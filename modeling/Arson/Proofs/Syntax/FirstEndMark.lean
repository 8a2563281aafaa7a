import Arson.Proofs.Syntax.TokenBounds
/-!
# Nothing after the first end mark is read

A parser is built on a token vector (`withEndMark`) and walks it with one token of lookahead, two
before a named function. Taking a token never takes an end mark, so the reader stays at or before
the first one; the token after the current one is looked at only when the current one is a
`prepmatch`, not an end mark; and the line compared before a `(` or a `[` is that of a token
already taken. Two token lists that hold the same tokens up to and including their first end mark,
whatever follows it (`SameThroughEnd`), are therefore read alike by every parsing function: to one
value, with the rest of the tokens again the same through the end mark, or to one fault
(`Reader.Matches`). The proof follows the parser's measure as the other statements about the whole
parser do: `AlignedBelow n` holds it for every parsing function on readers of fewer than `n`
tokens.

So the descent over the whole vector (`parseVector`) gives what `parse` gives, which reads only
the tokens through the first end mark: tokens after the first end mark never change a parse, and
a list without one parses as if an end mark followed its last token.
-/
namespace Arson.Syntax

/-- Two token lists with the same tokens up to and including their first end mark; what follows
it may differ. -/
inductive SameThroughEnd : List Token → List Token → Prop where
  | stop {e : Token} {post post' : List Token} (he : e.kind = .eof) :
      SameThroughEnd (e :: post) (e :: post')
  | next {t : Token} {toks toks' : List Token} (ht : t.kind ≠ .eof) :
      SameThroughEnd toks toks' → SameThroughEnd (t :: toks) (t :: toks')

namespace SameThroughEnd

theorem of_first {pre : List Token} {e : Token} (hpre : ∀ t ∈ pre, t.kind ≠ .eof)
    (he : e.kind = .eof) (post post' : List Token) :
    SameThroughEnd (pre ++ e :: post) (pre ++ e :: post') := by
  induction pre with
  | nil => exact .stop he
  | cons t pre ih =>
    exact .next (hpre t List.mem_cons_self) (ih fun u hu => hpre u (List.mem_cons_of_mem t hu))

end SameThroughEnd

namespace Reader

/-- Two readers at one place: after a token on one line, with the same tokens left through the
first end mark. -/
def Aligned (r r' : Reader) : Prop :=
  r.lastLine = r'.lastLine ∧ SameThroughEnd r.toks r'.toks

/-- Two results of one parsing function: one value with readers aligned after it, or one
fault. -/
def Matches {α : Type} {P P' : Reader → Prop} :
    Except ParseError (α × {s // P s}) → Except ParseError (α × {s // P' s}) → Prop
  | .ok (a, s), .ok (b, s') => a = b ∧ s.1.Aligned s'.1
  | .error e, .error e' => e = e'
  | _, _ => False

namespace Matches

variable {α β : Type} {P P' Q Q' : Reader → Prop}

theorem pure {a : α} {s s' : Reader} {hs : P s} {hs' : P' s'} (h : s.Aligned s') :
    Matches (Pure.pure (a, ⟨s, hs⟩) : Except ParseError (α × {s // P s}))
      (Pure.pure (a, ⟨s', hs'⟩)) := ⟨rfl, h⟩

theorem throw {e : ParseError} :
    Matches (throw e : Except ParseError (α × {s // P s}))
      (throw e : Except ParseError (α × {s // P' s})) := rfl

/-- Two matching results: one fault on both sides, or one value with aligned readers after it. -/
theorem cases {x : Except ParseError (α × {s // P s})} {y : Except ParseError (α × {s // P' s})}
    (h : Matches x y) :
    (∃ e, x = .error e ∧ y = .error e) ∨
      ∃ a s hs s' hs', x = .ok (a, ⟨s, hs⟩) ∧ y = .ok (a, ⟨s', hs'⟩) ∧ s.Aligned s' := by
  rcases x with e | ⟨a, s, hs⟩ <;> rcases y with e' | ⟨b, s', hs'⟩
  · exact .inl ⟨e, rfl, congrArg Except.error h.symm⟩
  · exact h.elim
  · exact h.elim
  · obtain ⟨rfl, h⟩ := h
    exact .inr ⟨a, s, hs, s', hs', rfl, rfl, h⟩

/-- A parse and what follows it: both sides go on from one value and aligned readers. -/
theorem bind {x : Except ParseError (α × {s // P s})} {y : Except ParseError (α × {s // P' s})}
    {f : α × {s // P s} → Except ParseError (β × {s // Q s})}
    {g : α × {s // P' s} → Except ParseError (β × {s // Q' s})} (hxy : Matches x y)
    (hfg : ∀ a s (hs : P s) s' (hs' : P' s'), s.Aligned s' →
      Matches (f (a, ⟨s, hs⟩)) (g (a, ⟨s', hs'⟩))) :
    Matches (x >>= f) (y >>= g) := by
  rcases hxy.cases with ⟨e, rfl, rfl⟩ | ⟨a, s, hs, s', hs', rfl, rfl, h⟩
  · rfl
  · exact hfg a s hs s' hs' h

end Matches

namespace Aligned

variable {r r' : Reader}

theorem peek (h : r.Aligned r') : r'.peek = r.peek := by
  obtain ⟨toks, L⟩ := r
  obtain ⟨toks', L'⟩ := r'
  cases h.2 <;> rfl

theorem kind (h : r.Aligned r') : r'.kind = r.kind := congrArg Token.kind h.peek

theorem lastLine (h : r.Aligned r') : r'.lastLine = r.lastLine := h.1.symm

/-- The token after the current one is looked at only when the current one is not the end mark;
then it is the same token on both sides, the end mark at the latest. -/
theorem nextKind (h : r.Aligned r') (hk : r.kind ≠ .eof) : r'.nextKind = r.nextKind := by
  obtain ⟨toks, L⟩ := r
  obtain ⟨toks', L'⟩ := r'
  obtain ⟨-, hs⟩ := h
  cases hs with
  | stop he => exact absurd he hk
  | next _ hrest => cases hrest <;> rfl

/-- Taking a token: the end mark is never taken, so both take the token before it, or both
refuse at one token. -/
theorem eat (h : r.Aligned r') (k : TokenKind) : Matches (r.eat k) (r'.eat k) := by
  obtain ⟨toks, L⟩ := r
  obtain ⟨toks', L'⟩ := r'
  obtain ⟨-, hs⟩ := h
  cases hs with
  | @stop e post post' he =>
    have hk : ¬(e.kind = k ∧ k ≠ .eof) := fun hk => hk.2 (hk.1 ▸ he)
    simp only [Reader.eat, hk, if_false]
    rfl
  | @next t rest rest' ht hrest =>
    simp only [Reader.eat]
    split
    · exact ⟨rfl, rfl, hrest⟩
    · rfl

theorem eatName (h : r.Aligned r') : Matches r.eatName r'.eatName := by
  unfold Reader.eatName
  exact Matches.bind (h.eat _) fun _ _ _ _ _ hs => Matches.pure hs

end Aligned

/-- Names after commas read alike. -/
theorem nameListTail_matches {r r' : Reader} (h : r.Aligned r') (acc : Array String) :
    Matches (r.nameListTail acc) (r'.nameListTail acc) := by
  rw [nameListTail, nameListTail, h.kind]
  split
  · rcases (h.eat .comma).cases with ⟨e, hx, hy⟩ | ⟨_, r1, h1, r1', _, hx, hy, hr1⟩
    · rw [hx, hy]
      rfl
    rw [hx, hy]
    dsimp only
    rcases hr1.eatName.cases with ⟨e, hx, hy⟩ | ⟨n, r2, h2, r2', _, hx, hy, hr2⟩
    · rw [hx, hy]
      rfl
    rw [hx, hy]
    dsimp only
    rcases (nameListTail_matches hr2 (acc.push n)).cases with
      ⟨e, hx, hy⟩ | ⟨ns, r3, _, r3', _, hx, hy, hr3⟩
    · rw [hx, hy]
      rfl
    rw [hx, hy]
    exact ⟨rfl, hr3⟩
  · exact ⟨rfl, h⟩
termination_by r.toks.length
decreasing_by omega

/-- Names read alike. -/
theorem nameList_matches {r r' : Reader} (h : r.Aligned r') : Matches r.nameList r'.nameList := by
  unfold nameList
  rw [h.kind]
  split
  · rcases h.eatName.cases with ⟨e, hx, hy⟩ | ⟨n, r1, _, r1', _, hx, hy, hr1⟩
    · rw [hx, hy]
      rfl
    rw [hx, hy]
    dsimp only
    rcases (nameListTail_matches hr1 #[n]).cases with ⟨e, hx, hy⟩ | ⟨ns, r2, _, r2', _, hx, hy, hr2⟩
    · rw [hx, hy]
      rfl
    rw [hx, hy]
    exact ⟨rfl, hr2⟩
  · exact ⟨rfl, h⟩

/-- Every parsing function reads aligned readers alike, on every reader shorter than `n`. -/
structure AlignedBelow (n : Nat) : Prop where
  primary : ∀ r r' : Reader, r.toks.length < n → r.Aligned r' → Matches r.primary r'.primary
  links : ∀ r r' : Reader, r.toks.length < n → r.Aligned r' → ∀ acc : Array Link,
    Matches (r.links acc) (r'.links acc)
  chain : ∀ r r' : Reader, r.toks.length < n → r.Aligned r' → Matches r.chain r'.chain
  expr : ∀ r r' : Reader, r.toks.length < n → r.Aligned r' → Matches r.expr r'.expr
  exprListTail : ∀ r r' : Reader, r.toks.length < n → r.Aligned r' → ∀ acc : Array Expr,
    Matches (r.exprListTail acc) (r'.exprListTail acc)
  exprList : ∀ r r' : Reader, r.toks.length < n → r.Aligned r' → ∀ closing,
    Matches (r.exprList closing) (r'.exprList closing)
  dictEntries : ∀ r r' : Reader, r.toks.length < n → r.Aligned r' →
    ∀ acc : Array (String × Expr), Matches (r.dictEntries acc) (r'.dictEntries acc)
  elifs : ∀ r r' : Reader, r.toks.length < n → r.Aligned r' → ∀ acc : Array Branch,
    Matches (r.elifs acc) (r'.elifs acc)
  block : ∀ r r' : Reader, r.toks.length < n → r.Aligned r' → Matches r.block r'.block
  stmt : ∀ r r' : Reader, r.toks.length < n → r.Aligned r' → Matches r.stmt r'.stmt
  stmtsUntilBrace : ∀ r r' : Reader, r.toks.length < n → r.Aligned r' → ∀ acc : Array Stmt,
    Matches (r.stmtsUntilBrace acc) (r'.stmtsUntilBrace acc)

namespace AlignedBelow

theorem zero : AlignedBelow 0 := by
  constructor <;> intro r _ hr <;> cases hr

variable {n : Nat} (ih : AlignedBelow n)
include ih

theorem primary_succ (r r' : Reader) (hr : r.toks.length < n + 1) (h : r.Aligned r') :
    Matches r.primary r'.primary := by
  unfold Reader.primary
  dsimp only
  -- both readers look at one token, so both take one branch
  rw [h.peek]
  split
  · -- `lightmatch` before a primary
    refine Matches.bind (h.eat _) fun _ r1 h1 r1' _ hr1 => ?_
    refine Matches.bind (ih.primary r1 r1' (by omega) hr1) fun _ _ _ _ _ hr2 => ?_
    exact Matches.pure hr2
  · exact Matches.bind (h.eat _) fun _ _ _ _ _ hs => Matches.pure hs
  · refine Matches.bind (h.eat _) fun _ _ _ _ _ hs => ?_
    split
    · exact Matches.pure hs
    · exact Matches.throw
  · exact Matches.bind (h.eat _) fun _ _ _ _ _ hs => Matches.pure hs
  · exact Matches.bind (h.eat _) fun _ _ _ _ _ hs => Matches.pure hs
  · exact Matches.bind (h.eat _) fun _ _ _ _ _ hs => Matches.pure hs
  · refine Matches.bind (h.eat _) fun _ r1 h1 r1' _ hr1 => ?_
    refine Matches.bind (ih.chain r1 r1' (by omega) hr1) fun _ _ _ _ _ hr2 => ?_
    exact Matches.pure hr2
  · -- a function literal
    refine Matches.bind (h.eat _) fun _ r1 h1 r1' _ hr1 => ?_
    dsimp only
    refine Matches.bind (hr1.eat _) fun _ r2 h2 r2' _ hr2 => ?_
    dsimp only
    refine Matches.bind (nameList_matches hr2) fun _ r3 h3 r3' _ hr3 => ?_
    dsimp only
    refine Matches.bind (hr3.eat _) fun _ r4 h4 r4' _ hr4 => ?_
    dsimp only
    refine Matches.bind (ih.block r4 r4' (by omega) hr4) fun _ _ _ _ _ hr5 => ?_
    exact Matches.pure hr5
  · refine Matches.bind (h.eat _) fun _ r1 h1 r1' _ hr1 => ?_
    refine Matches.bind (ih.expr r1 r1' (by omega) hr1) fun _ _ _ _ _ hr2 => ?_
    exact Matches.bind (hr2.eat _) fun _ _ _ _ _ hr3 => Matches.pure hr3
  · refine Matches.bind (h.eat _) fun _ r1 h1 r1' _ hr1 => ?_
    refine Matches.bind (ih.exprList r1 r1' (by omega) hr1 _) fun _ _ _ _ _ hr2 => ?_
    exact Matches.bind (hr2.eat _) fun _ _ _ _ _ hr3 => Matches.pure hr3
  · refine Matches.bind (h.eat _) fun _ r1 h1 r1' _ hr1 => ?_
    refine Matches.bind (ih.dictEntries r1 r1' (by omega) hr1 #[]) fun _ _ _ _ _ hr2 => ?_
    exact Matches.bind (hr2.eat _) fun _ _ _ _ _ hr3 => Matches.pure hr3
  · split <;> exact Matches.throw
  · exact Matches.throw

theorem links_succ (r r' : Reader) (hr : r.toks.length < n + 1) (h : r.Aligned r')
    (acc : Array Link) : Matches (r.links acc) (r'.links acc) := by
  unfold Reader.links
  dsimp only
  -- the line compared is that of the token taken last, the same on both sides
  rw [h.kind, h.peek, h.lastLine]
  split
  · split
    · refine Matches.bind (h.eat _) fun _ r1 h1 r1' _ hr1 => ?_
      dsimp only
      refine Matches.bind (ih.exprList r1 r1' (by omega) hr1 _) fun _ r2 h2 r2' _ hr2 => ?_
      dsimp only
      refine Matches.bind (hr2.eat _) fun _ r3 h3 r3' _ hr3 => ?_
      dsimp only
      refine Matches.bind (ih.links r3 r3' (by omega) hr3 _) fun _ _ _ _ _ hr4 => ?_
      exact Matches.pure hr4
    · exact Matches.pure h
  · split
    · refine Matches.bind (h.eat _) fun _ r1 h1 r1' _ hr1 => ?_
      dsimp only
      refine Matches.bind (ih.expr r1 r1' (by omega) hr1) fun _ r2 h2 r2' _ hr2 => ?_
      dsimp only
      refine Matches.bind (hr2.eat _) fun _ r3 h3 r3' _ hr3 => ?_
      dsimp only
      refine Matches.bind (ih.links r3 r3' (by omega) hr3 _) fun _ _ _ _ _ hr4 => ?_
      exact Matches.pure hr4
    · exact Matches.pure h
  · refine Matches.bind (h.eat _) fun _ r1 h1 r1' _ hr1 => ?_
    dsimp only
    refine Matches.bind hr1.eatName fun _ r2 h2 r2' _ hr2 => ?_
    dsimp only
    refine Matches.bind (ih.links r2 r2' (by omega) hr2 _) fun _ _ _ _ _ hr3 => ?_
    exact Matches.pure hr3
  · exact Matches.pure h

theorem chain_succ
    (primary : ∀ r r' : Reader, r.toks.length < n + 1 → r.Aligned r' →
      Matches r.primary r'.primary)
    (r r' : Reader) (hr : r.toks.length < n + 1) (h : r.Aligned r') :
    Matches r.chain r'.chain := by
  unfold Reader.chain
  refine Matches.bind (primary r r' hr h) fun _ r1 h1 r1' _ hr1 => ?_
  dsimp only
  refine Matches.bind (ih.links r1 r1' (by omega) hr1 #[]) fun _ _ _ _ _ hr2 => ?_
  exact Matches.pure hr2

theorem expr_succ
    (chain : ∀ r r' : Reader, r.toks.length < n + 1 → r.Aligned r' → Matches r.chain r'.chain)
    (r r' : Reader) (hr : r.toks.length < n + 1) (h : r.Aligned r') :
    Matches r.expr r'.expr := by
  unfold Reader.expr
  refine Matches.bind (chain r r' hr h) fun _ r1 h1 r1' _ hr1 => ?_
  dsimp only
  rw [hr1.kind]
  split
  · refine Matches.bind (hr1.eat _) fun _ r2 h2 r2' _ hr2 => ?_
    dsimp only
    refine Matches.bind (ih.expr r2 r2' (by omega) hr2) fun _ _ _ _ _ hr3 => ?_
    exact Matches.pure hr3
  · exact Matches.pure hr1

theorem exprListTail_succ (r r' : Reader) (hr : r.toks.length < n + 1) (h : r.Aligned r')
    (acc : Array Expr) : Matches (r.exprListTail acc) (r'.exprListTail acc) := by
  unfold Reader.exprListTail
  rw [h.kind]
  split
  · refine Matches.bind (h.eat _) fun _ r1 h1 r1' _ hr1 => ?_
    dsimp only
    refine Matches.bind (ih.expr r1 r1' (by omega) hr1) fun _ r2 h2 r2' _ hr2 => ?_
    dsimp only
    refine Matches.bind (ih.exprListTail r2 r2' (by omega) hr2 _) fun _ _ _ _ _ hr3 => ?_
    exact Matches.pure hr3
  · exact Matches.pure h

theorem exprList_succ
    (expr : ∀ r r' : Reader, r.toks.length < n + 1 → r.Aligned r' → Matches r.expr r'.expr)
    (r r' : Reader) (hr : r.toks.length < n + 1) (h : r.Aligned r') (closing : TokenKind) :
    Matches (r.exprList closing) (r'.exprList closing) := by
  unfold Reader.exprList
  rw [h.kind]
  split
  · exact Matches.pure h
  · refine Matches.bind (expr r r' hr h) fun _ r1 h1 r1' _ hr1 => ?_
    dsimp only
    refine Matches.bind (ih.exprListTail r1 r1' (by omega) hr1 _) fun _ _ _ _ _ hr2 => ?_
    exact Matches.pure hr2

theorem dictEntries_succ (r r' : Reader) (hr : r.toks.length < n + 1) (h : r.Aligned r')
    (acc : Array (String × Expr)) : Matches (r.dictEntries acc) (r'.dictEntries acc) := by
  unfold Reader.dictEntries
  rw [h.kind]
  split
  · exact Matches.pure h
  · refine Matches.bind (h.eat _) fun _ r1 h1 r1' _ hr1 => ?_
    dsimp only
    refine Matches.bind (hr1.eat _) fun _ r2 h2 r2' _ hr2 => ?_
    dsimp only
    refine Matches.bind (ih.expr r2 r2' (by omega) hr2) fun _ r3 h3 r3' _ hr3 => ?_
    dsimp only
    rw [hr3.kind]
    split
    · exact Matches.pure hr3
    · refine Matches.bind (hr3.eat _) fun _ r4 h4 r4' _ hr4 => ?_
      dsimp only
      refine Matches.bind (ih.dictEntries r4 r4' (by omega) hr4 _) fun _ _ _ _ _ hr5 => ?_
      exact Matches.pure hr5

theorem elifs_succ (r r' : Reader) (hr : r.toks.length < n + 1) (h : r.Aligned r')
    (acc : Array Branch) : Matches (r.elifs acc) (r'.elifs acc) := by
  unfold Reader.elifs
  rw [h.kind]
  split
  · refine Matches.bind (h.eat _) fun _ r1 h1 r1' _ hr1 => ?_
    dsimp only
    refine Matches.bind (ih.expr r1 r1' (by omega) hr1) fun _ r2 h2 r2' _ hr2 => ?_
    dsimp only
    refine Matches.bind (ih.block r2 r2' (by omega) hr2) fun _ r3 h3 r3' _ hr3 => ?_
    dsimp only
    refine Matches.bind (ih.elifs r3 r3' (by omega) hr3 _) fun _ _ _ _ _ hr4 => ?_
    exact Matches.pure hr4
  · refine Matches.bind (h.eat _) fun _ r1 h1 r1' _ hr1 => ?_
    dsimp only
    refine Matches.bind (ih.block r1 r1' (by omega) hr1) fun _ _ _ _ _ hr2 => ?_
    exact Matches.pure hr2
  · exact Matches.pure h

theorem block_succ (r r' : Reader) (hr : r.toks.length < n + 1) (h : r.Aligned r') :
    Matches r.block r'.block := by
  unfold Reader.block
  refine Matches.bind (h.eat _) fun _ r1 h1 r1' _ hr1 => ?_
  dsimp only
  refine Matches.bind (ih.stmtsUntilBrace r1 r1' (by omega) hr1 #[]) fun _ _ _ _ _ hr2 => ?_
  exact Matches.bind (hr2.eat _) fun _ _ _ _ _ hr3 => Matches.pure hr3

theorem stmt_succ
    (expr : ∀ r r' : Reader, r.toks.length < n + 1 → r.Aligned r' → Matches r.expr r'.expr)
    (r r' : Reader) (hr : r.toks.length < n + 1) (h : r.Aligned r') :
    Matches r.stmt r'.stmt := by
  unfold Reader.stmt
  rw [h.kind]
  split
  · -- a variable
    refine Matches.bind (h.eat _) fun _ r1 h1 r1' _ hr1 => ?_
    dsimp only
    refine Matches.bind hr1.eatName fun _ r2 h2 r2' _ hr2 => ?_
    dsimp only
    refine Matches.bind (hr2.eat _) fun _ r3 h3 r3' _ hr3 => ?_
    dsimp only
    refine Matches.bind (expr r3 r3' (by omega) hr3) fun _ _ _ _ _ hr4 => ?_
    exact Matches.pure hr4
  · -- the second token of lookahead: the current one is `prepmatch`, not the end mark
    rename_i hfunc
    rw [h.nextKind (by rw [hfunc]; simp)]
    split
    · -- a named function
      refine Matches.bind (h.eat _) fun _ r1 h1 r1' _ hr1 => ?_
      dsimp only
      refine Matches.bind hr1.eatName fun _ r2 h2 r2' _ hr2 => ?_
      dsimp only
      refine Matches.bind (hr2.eat _) fun _ r3 h3 r3' _ hr3 => ?_
      dsimp only
      refine Matches.bind (nameList_matches hr3) fun _ r4 h4 r4' _ hr4 => ?_
      dsimp only
      refine Matches.bind (hr4.eat _) fun _ r5 h5 r5' _ hr5 => ?_
      dsimp only
      refine Matches.bind (ih.block r5 r5' (by omega) hr5) fun _ _ _ _ _ hr6 => ?_
      exact Matches.pure hr6
    · exact Matches.bind (expr r r' hr h) fun _ _ _ _ _ hr1 => Matches.pure hr1
  · refine Matches.bind (h.eat _) fun _ r1 h1 r1' _ hr1 => ?_
    dsimp only
    refine Matches.bind (expr r1 r1' (by omega) hr1) fun _ _ _ _ _ hr2 => ?_
    exact Matches.pure hr2
  · -- a conditional
    refine Matches.bind (h.eat _) fun _ r1 h1 r1' _ hr1 => ?_
    dsimp only
    refine Matches.bind (expr r1 r1' (by omega) hr1) fun _ r2 h2 r2' _ hr2 => ?_
    dsimp only
    refine Matches.bind (ih.block r2 r2' (by omega) hr2) fun _ r3 h3 r3' _ hr3 => ?_
    dsimp only
    refine Matches.bind (ih.elifs r3 r3' (by omega) hr3 #[]) fun _ _ _ _ _ hr4 => ?_
    exact Matches.pure hr4
  · refine Matches.bind (h.eat _) fun _ r1 h1 r1' _ hr1 => ?_
    dsimp only
    refine Matches.bind (expr r1 r1' (by omega) hr1) fun _ r2 h2 r2' _ hr2 => ?_
    dsimp only
    refine Matches.bind (ih.block r2 r2' (by omega) hr2) fun _ _ _ _ _ hr3 => ?_
    exact Matches.pure hr3
  · -- a `for` range: two bounds, or a fault at the `for`
    refine Matches.bind (h.eat _) fun _ r1 h1 r1' _ hr1 => ?_
    dsimp only
    refine Matches.bind hr1.eatName fun _ r2 h2 r2' _ hr2 => ?_
    dsimp only
    refine Matches.bind (hr2.eat _) fun _ r3 h3 r3' _ hr3 => ?_
    dsimp only
    refine Matches.bind (hr3.eat _) fun _ r4 h4 r4' _ hr4 => ?_
    dsimp only
    refine Matches.bind (ih.exprList r4 r4' (by omega) hr4 _) fun _ r5 h5 r5' _ hr5 => ?_
    dsimp only
    refine Matches.bind (hr5.eat _) fun _ r6 h6 r6' _ hr6 => ?_
    dsimp only
    split
    · refine Matches.bind (ih.block r6 r6' (by omega) hr6) fun _ _ _ _ _ hr7 => ?_
      exact Matches.pure hr7
    · exact Matches.throw
  · exact Matches.bind (expr r r' hr h) fun _ _ _ _ _ hr1 => Matches.pure hr1

theorem stmtsUntilBrace_succ
    (stmt : ∀ r r' : Reader, r.toks.length < n + 1 → r.Aligned r' → Matches r.stmt r'.stmt)
    (r r' : Reader) (hr : r.toks.length < n + 1) (h : r.Aligned r') (acc : Array Stmt) :
    Matches (r.stmtsUntilBrace acc) (r'.stmtsUntilBrace acc) := by
  unfold Reader.stmtsUntilBrace
  rw [h.kind]
  split
  · exact Matches.pure h
  · refine Matches.bind (stmt r r' hr h) fun _ r1 h1 r1' _ hr1 => ?_
    dsimp only
    refine Matches.bind (ih.stmtsUntilBrace r1 r1' (by omega) hr1 _) fun _ _ _ _ _ hr2 => ?_
    exact Matches.pure hr2

/-- One more token of length: each function at length `n` uses the functions it calls on
shorter readers, and on the same reader only those of lower rank, proved first. -/
theorem succ : AlignedBelow (n + 1) :=
  have primary := ih.primary_succ
  have chain := ih.chain_succ primary
  have expr := ih.expr_succ chain
  have stmt := ih.stmt_succ expr
  { primary, chain, expr, stmt
    links := ih.links_succ
    exprListTail := ih.exprListTail_succ
    exprList := ih.exprList_succ expr
    dictEntries := ih.dictEntries_succ
    elifs := ih.elifs_succ
    block := ih.block_succ
    stmtsUntilBrace := ih.stmtsUntilBrace_succ stmt }

end AlignedBelow

theorem alignedBelow : ∀ n, AlignedBelow n
  | 0 => AlignedBelow.zero
  | n + 1 => (alignedBelow n).succ

/-- Statements up to the end mark, from aligned readers: one program or one fault. -/
theorem stmtsToEnd_aligned {r r' : Reader} (h : r.Aligned r') (acc : Array Stmt) :
    r.stmtsToEnd acc = r'.stmtsToEnd acc := by
  rw [stmtsToEnd, stmtsToEnd, h.kind]
  split
  · rfl
  · rcases ((alignedBelow _).stmt r r' (Nat.lt_succ_self _) h).cases with
      ⟨e, hx, hy⟩ | ⟨st, r1, h1, r1', _, hx, hy, hr1⟩
    · rw [hx, hy]
      rfl
    rw [hx, hy]
    exact stmtsToEnd_aligned hr1 _
termination_by r.toks.length

theorem stmtsToEnd_through {V V' : List Token} (h : SameThroughEnd V V') (L : Nat)
    (acc : Array Stmt) : stmtsToEnd ⟨V, L⟩ acc = stmtsToEnd ⟨V', L⟩ acc :=
  stmtsToEnd_aligned (show Aligned ⟨V, L⟩ ⟨V', L⟩ from ⟨rfl, h⟩) acc

end Reader

/-! ## The token vector -/

/-- The parse of the whole token vector a parser is built on, every token after its first end
mark included. -/
def parseVector (toks : List Token) : Except ParseError (List Stmt) :=
  Reader.stmtsToEnd ⟨withEndMark toks, 1⟩ #[]

theorem prefix_withEndMark (toks : List Token) : toks <+: withEndMark toks := by
  unfold withEndMark
  split
  · split
    · exact List.prefix_refl _
    · exact List.prefix_append _ _
  · rename_i hl
    rw [List.getLast?_eq_none_iff.mp hl]
    exact List.nil_prefix

/-- The vector and the tokens that `parse` reads have the same tokens through the first end
mark. -/
theorem sameThroughEnd_withEndMark : ∀ toks : List Token,
    SameThroughEnd (withEndMark toks) (throughEnd toks)
  | [] => .stop rfl
  | [t] => by
    by_cases ht : t.kind = .eof
    · simp only [withEndMark, throughEnd, List.getLast?_singleton, ht, if_true]
      exact .stop ht
    · simp only [withEndMark, throughEnd, List.getLast?_singleton, ht, if_false]
      exact .next ht (.stop rfl)
  | t :: u :: rest => by
    rw [withEndMark_cons_cons]
    by_cases ht : t.kind = .eof
    · simp only [throughEnd, ht, if_true]
      exact .stop ht
    · simp only [throughEnd, ht, if_false]
      exact .next ht (sameThroughEnd_withEndMark (u :: rest))

theorem parseVector_eq_parse (toks : List Token) : parseVector toks = parse toks :=
  Reader.stmtsToEnd_through (sameThroughEnd_withEndMark toks) 1 #[]

/-- Tokens that are not end marks, then an end mark: the vector parses as these tokens, whatever
follows them. -/
theorem parseVector_first_end_mark {pre : List Token} {e : Token}
    (hpre : ∀ t ∈ pre, t.kind ≠ .eof) (he : e.kind = .eof) (post : List Token) :
    parseVector (pre ++ e :: post) = Reader.stmtsToEnd ⟨pre ++ [e], 1⟩ #[] := by
  obtain ⟨extra, hv⟩ := prefix_withEndMark (pre ++ e :: post)
  unfold parseVector
  rw [← hv, List.append_assoc, List.cons_append]
  exact Reader.stmtsToEnd_through (.of_first hpre he _ _) 1 #[]

/-- Without an end mark among the tokens, the vector has one added at the last token's position,
or at 1:1 for no tokens; with that end mark written out, none is added. -/
theorem withEndMark_of_no_end_mark {ts : List Token} (hts : ∀ t ∈ ts, t.kind ≠ .eof) :
    withEndMark ts = withEndMark (ts ++
      [(ts.getLast?.map fun t => Token.eof t.line t.column).getD (Token.eof 1 1)]) := by
  have hend : ∀ m : Token, m.kind = .eof → withEndMark (ts ++ [m]) = ts ++ [m] := by
    intro m hm
    simp only [withEndMark, List.getLast?_concat, hm, if_true]
  cases hl : ts.getLast? with
  | none =>
    rw [List.getLast?_eq_none_iff.mp hl]
    rfl
  | some t =>
    have ht : t.kind ≠ .eof := hts t (List.mem_of_getLast? hl)
    rw [Option.map_some, Option.getD_some, hend _ rfl]
    simp only [withEndMark, hl, ht, if_false]

/-- The parser never looks past the first end mark, and supplies one where the list lacks it. -/
theorem parse_reads_through_first_end_mark :
    (∀ toks, parseVector toks = parse toks) ∧
    (∀ (ts us : List Token) (i : Nat) (e : Token), ts[i]? = some e → e.kind = .eof →
      (∀ t ∈ ts.take i, t.kind ≠ .eof) →
      parseVector (ts ++ us) = parseVector ts ∧
        parseVector ts = parseVector (ts.take (i + 1))) ∧
    (∀ ts : List Token, (∀ t ∈ ts, t.kind ≠ .eof) →
      parseVector ts = parseVector (ts ++
        [(ts.getLast?.map fun t => Token.eof t.line t.column).getD (Token.eof 1 1)])) := by
  refine ⟨parseVector_eq_parse, fun ts us i e hi he hpre => ?_, fun ts hts => ?_⟩
  · -- the list is the tokens before its first end mark, that end mark, and the rest
    obtain ⟨hlt, hget⟩ := List.getElem?_eq_some_iff.mp hi
    have hsplit : ts.take i ++ e :: ts.drop (i + 1) = ts := by
      rw [← hget, ← List.drop_eq_getElem_cons hlt, List.take_append_drop]
    have htake : ts.take (i + 1) = ts.take i ++ [e] := by
      rw [List.take_add_one, hi, Option.toList_some]
    have hread := parseVector_first_end_mark hpre he
    have hts : parseVector ts = Reader.stmtsToEnd ⟨ts.take i ++ [e], 1⟩ #[] := by
      rw [← hread (ts.drop (i + 1)), hsplit]
    refine ⟨?_, ?_⟩
    · calc parseVector (ts ++ us)
          = parseVector (ts.take i ++ e :: (ts.drop (i + 1) ++ us)) := by
            rw [← List.cons_append, ← List.append_assoc, hsplit]
        _ = parseVector ts := by rw [hread, hts]
    · rw [htake, hread [], hts]
  · unfold parseVector
    rw [← withEndMark_of_no_end_mark hts]

/-- A `(` after the end mark, on the line of the name before it, would make a call if it were
read. -/
theorem call_after_end_mark_unread :
    [(⟨.identifier, .str "f", "f", 1, 1⟩ : Token), Token.eof 1 2][1]? = some (Token.eof 1 2) ∧
    (Token.eof 1 2).kind = .eof ∧
    (∀ t ∈ [(⟨.identifier, .str "f", "f", 1, 1⟩ : Token), Token.eof 1 2].take 1,
      t.kind ≠ .eof) ∧
    parseVector ([⟨.identifier, .str "f", "f", 1, 1⟩, Token.eof 1 2] ++
        [⟨.leftParen, .empty, "(", 1, 2⟩, ⟨.rightParen, .empty, ")", 1, 3⟩]) =
      parseVector [⟨.identifier, .str "f", "f", 1, 1⟩, Token.eof 1 2] ∧
    parseVector [⟨.identifier, .str "f", "f", 1, 1⟩, Token.eof 1 2] =
      parseVector ([⟨.identifier, .str "f", "f", 1, 1⟩, Token.eof 1 2].take 2) :=
  ⟨rfl, rfl, by decide, parse_reads_through_first_end_mark.2.1 _ _ 1 _ rfl rfl (by decide)⟩

end Arson.Syntax
