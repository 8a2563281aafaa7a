import Arson.Session
/-!
# The parser reads only the tokens it is given

`parse` is a total function: it is defined by well-founded recursion on the number of tokens left
and then the rank of the rule, so on every token list it ends with a program or a parse fault. It
works on the tokens up to the first end mark, with an end mark added after the last token when
the list does not end with one (`throughEnd`), and these are a prefix of the token vector that
the parser is built on (`withEndMark`).

The descent never reads past them. `Within V r` says that the reader `r` has taken from the
tokens `V` only tokens that are not end marks and still has the end mark at its end, so the token
it looks at is one of `V`'s, never the default of an empty list. Every parsing function started
within `V` stops within `V`, and each fault it gives points at a token of `V` (`Stays`). The proof
follows the parser's measure as the proof of the parser's shapes does: `WithinBelow n` holds the
statement for every parsing function on readers of fewer than `n` tokens.
-/
namespace Arson.Syntax

/-- The token vector a parser is built on: the given tokens, with an end mark after the last one
at its position when it is not an end mark itself, and an end mark at 1:1 for no tokens. -/
def withEndMark (toks : List Token) : List Token :=
  match toks.getLast? with
  | some t => if t.kind = .eof then toks else toks ++ [Token.eof t.line t.column]
  | none => [Token.eof 1 1]

namespace Reader

/-- The reader stands within the tokens `V`: it has taken from them only tokens that are not end
marks, and what it has left ends with an end mark. -/
def Within (V : List Token) (r : Reader) : Prop :=
  (∃ taken, V = taken ++ r.toks ∧ ∀ t ∈ taken, t.kind ≠ .eof) ∧
    ∃ pre e, r.toks = pre ++ [e] ∧ e.kind = .eof

/-- A parse that stays within `V`: a result leaves a reader within `V`, and a fault points at a
token of `V`. -/
def Stays {α : Type} {P : Reader → Prop} (V : List Token)
    (res : Except ParseError (α × {s // P s})) : Prop :=
  (∀ a s h, res = .ok (a, ⟨s, h⟩) → Within V s) ∧ ∀ e, res = .error e → e.token ∈ V

section Within

variable {V : List Token} {r : Reader}

theorem Within.mem (h : Within V r) {t : Token} (ht : t ∈ r.toks) : t ∈ V := by
  obtain ⟨⟨taken, hV, -⟩, -⟩ := h
  rw [hV]
  exact List.mem_append_right _ ht

/-- A reader within `V` has a token to look at, one of `V`'s. -/
theorem Within.peek_mem (h : Within V r) : r.peek ∈ V := by
  obtain ⟨toks, L⟩ := r
  cases toks with
  | nil =>
    obtain ⟨-, pre, e, htoks, -⟩ := h
    simp at htoks
  | cons t rest => exact h.mem List.mem_cons_self

/-- Taking a token that is not the end mark leaves a reader within `V`: the end mark is still
there after it. -/
theorem Within.next {t : Token} {rest : List Token} {L : Nat} (h : Within V ⟨t :: rest, L⟩)
    (ht : t.kind ≠ .eof) (L' : Nat) : Within V ⟨rest, L'⟩ := by
  obtain ⟨⟨taken, hV, htaken⟩, pre, e, htoks, he⟩ := h
  refine ⟨⟨taken ++ [t], by simpa using hV, ?_⟩, ?_⟩
  · intro u hu
    rcases List.mem_append.mp hu with hu | hu
    · exact htaken u hu
    · rw [List.mem_singleton.mp hu]
      exact ht
  · cases pre with
    | nil =>
      obtain ⟨rfl, -⟩ := List.cons.inj htoks
      exact absurd he ht
    | cons p pre =>
      obtain ⟨-, rfl⟩ := List.cons.inj htoks
      exact ⟨pre, e, rfl, he⟩

end Within

namespace Stays

variable {α β : Type} {P Q : Reader → Prop} {V : List Token}

theorem pure {a : α} {s : Reader} {h : P s} (hs : Within V s) :
    Stays V (Pure.pure (a, ⟨s, h⟩) : Except ParseError (α × {s // P s})) := by
  refine ⟨fun b u hu heq => ?_, fun e he => ?_⟩
  · cases heq
    exact hs
  · cases he

theorem throw {e : ParseError} (he : e.token ∈ V) :
    Stays V (throw e : Except ParseError (α × {s // P s})) := by
  refine ⟨fun _ _ _ h => ?_, fun e' h => ?_⟩
  · cases h
  · cases h
    exact he

/-- A parse and what follows it stay within `V` when each does from where it starts. -/
theorem bind {x : Except ParseError (α × {s // P s})}
    {f : α × {s // P s} → Except ParseError (β × {s // Q s})} (hx : Stays V x)
    (hf : ∀ a s h, Within V s → Stays V (f (a, ⟨s, h⟩))) : Stays V (x >>= f) := by
  cases x with
  | error e =>
    refine ⟨fun _ _ _ h => ?_, fun e' h => ?_⟩
    · cases h
    · cases h
      exact hx.2 e rfl
  | ok p =>
    obtain ⟨a, s, h⟩ := p
    exact hf a s h (hx.1 a s h rfl)

end Stays

section Steps

variable {V : List Token} {r : Reader}

/-- Taking a token: the end mark is never taken, and a refusal points at the token looked at. -/
theorem eat_stays (hr : Within V r) (k : TokenKind) : Stays V (r.eat k) := by
  obtain ⟨toks, L⟩ := r
  cases toks with
  | nil => exact Stays.throw hr.peek_mem
  | cons t rest =>
    unfold Reader.eat
    dsimp only
    split
    case isTrue hk =>
      refine ⟨fun a s h heq => ?_, fun e he => ?_⟩
      · cases heq
        exact hr.next (hk.1 ▸ hk.2) t.line
      · cases he
    case isFalse => exact Stays.throw hr.peek_mem

theorem eat_peek {k : TokenKind} {t : Token} {s : r.Past} (h : r.eat k = .ok (t, s)) :
    t = r.peek := by
  obtain ⟨toks, L⟩ := r
  cases toks with
  | nil => cases h
  | cons u rest =>
    unfold Reader.eat at h
    dsimp only at h
    split at h
    · cases h
      rfl
    · cases h

theorem eat_bind_stays {β : Type} {Q : Reader → Prop} (hr : Within V r) (k : TokenKind)
    {f : Token × r.Past → Except ParseError (β × {s // Q s})}
    (hf : ∀ t s h, t ∈ V → Within V s → Stays V (f (t, ⟨s, h⟩))) :
    Stays V (r.eat k >>= f) := by
  rcases hx : r.eat k with e | ⟨t, s, h⟩
  · exact Stays.throw ((eat_stays hr k).2 e hx)
  · exact hf t s h (eat_peek hx ▸ hr.peek_mem) ((eat_stays hr k).1 t s h hx)

theorem eatName_stays (hr : Within V r) : Stays V r.eatName := by
  unfold Reader.eatName
  exact Stays.bind (eat_stays hr _) fun _ _ _ hs => Stays.pure hs

theorem nameListTail_stays {r : Reader} (hr : Within V r) (acc : Array String) :
    Stays V (r.nameListTail acc) := by
  rw [nameListTail]
  split
  · rcases hx : r.eat .comma with e | ⟨t, r1, h1⟩
    · exact Stays.throw ((eat_stays hr _).2 e hx)
    · have hr1 := (eat_stays hr _).1 t r1 h1 hx
      dsimp only
      rcases hn : r1.eatName with e | ⟨n, r2, h2⟩
      · exact Stays.throw ((eatName_stays hr1).2 e hn)
      · have hr2 := (eatName_stays hr1).1 n r2 h2 hn
        dsimp only
        have ht := nameListTail_stays hr2 (acc.push n)
        rcases ht1 : r2.nameListTail (acc.push n) with e | ⟨ns, r3, h3⟩
        · exact Stays.throw (ht.2 e ht1)
        · exact Stays.pure (ht.1 ns r3 h3 ht1)
  · exact Stays.pure hr
termination_by r.toks.length
decreasing_by omega

theorem nameList_stays (hr : Within V r) : Stays V r.nameList := by
  unfold nameList
  split
  · rcases hn : r.eatName with e | ⟨n, r1, h1⟩
    · exact Stays.throw ((eatName_stays hr).2 e hn)
    · have hr1 := (eatName_stays hr).1 n r1 h1 hn
      dsimp only
      have ht := nameListTail_stays hr1 #[n]
      rcases ht1 : r1.nameListTail #[n] with e | ⟨ns, r2, h2⟩
      · exact Stays.throw (ht.2 e ht1)
      · exact Stays.pure (ht.1 ns r2 h2 ht1)
  · exact Stays.pure hr

end Steps

/-- Every parsing function, on every reader of fewer than `n` tokens within some tokens `V`,
stays within `V`. -/
structure WithinBelow (n : Nat) : Prop where
  primary : ∀ (V : List Token) (r : Reader), r.toks.length < n → Within V r →
    Stays V r.primary
  links : ∀ (V : List Token) (r : Reader), r.toks.length < n → Within V r →
    ∀ acc : Array Link, Stays V (r.links acc)
  chain : ∀ (V : List Token) (r : Reader), r.toks.length < n → Within V r → Stays V r.chain
  expr : ∀ (V : List Token) (r : Reader), r.toks.length < n → Within V r → Stays V r.expr
  exprListTail : ∀ (V : List Token) (r : Reader), r.toks.length < n → Within V r →
    ∀ acc : Array Expr, Stays V (r.exprListTail acc)
  exprList : ∀ (V : List Token) (r : Reader), r.toks.length < n → Within V r →
    ∀ closing, Stays V (r.exprList closing)
  dictEntries : ∀ (V : List Token) (r : Reader), r.toks.length < n → Within V r →
    ∀ acc : Array (String × Expr), Stays V (r.dictEntries acc)
  elifs : ∀ (V : List Token) (r : Reader), r.toks.length < n → Within V r →
    ∀ acc : Array Branch, Stays V (r.elifs acc)
  block : ∀ (V : List Token) (r : Reader), r.toks.length < n → Within V r → Stays V r.block
  stmt : ∀ (V : List Token) (r : Reader), r.toks.length < n → Within V r → Stays V r.stmt
  stmtsUntilBrace : ∀ (V : List Token) (r : Reader), r.toks.length < n → Within V r →
    ∀ acc : Array Stmt, Stays V (r.stmtsUntilBrace acc)

namespace WithinBelow

theorem zero : WithinBelow 0 := by
  constructor <;> intro V r hr <;> cases hr

variable {n : Nat} (ih : WithinBelow n) {V : List Token}
include ih

theorem primary_succ (r : Reader) (hr : r.toks.length < n + 1) (hw : Within V r) :
    Stays V r.primary := by
  have hpeek := hw.peek_mem
  unfold Reader.primary
  dsimp only
  split
  · -- `lightmatch` before a primary
    refine Stays.bind (eat_stays hw _) fun _ r1 h1 hw1 => ?_
    refine Stays.bind (ih.primary V r1 (by omega) hw1) fun e r2 _ hw2 => ?_
    exact Stays.pure hw2
  · exact Stays.bind (eat_stays hw _) fun _ _ _ hs => Stays.pure hs
  · -- a number token without a value is refused after it is taken
    refine Stays.bind (eat_stays hw _) fun _ s _ hs => ?_
    split
    · exact Stays.pure hs
    · exact Stays.throw hpeek
  · exact Stays.bind (eat_stays hw _) fun _ _ _ hs => Stays.pure hs
  · exact Stays.bind (eat_stays hw _) fun _ _ _ hs => Stays.pure hs
  · exact Stays.bind (eat_stays hw _) fun _ _ _ hs => Stays.pure hs
  · refine Stays.bind (eat_stays hw _) fun _ r1 h1 hw1 => ?_
    refine Stays.bind (ih.chain V r1 (by omega) hw1) fun e r2 _ hw2 => ?_
    exact Stays.pure hw2
  · -- a function literal
    refine Stays.bind (eat_stays hw _) fun _ r1 h1 hw1 => ?_
    dsimp only
    refine Stays.bind (eat_stays hw1 _) fun _ r2 h2 hw2 => ?_
    dsimp only
    refine Stays.bind (nameList_stays hw2) fun _ r3 h3 hw3 => ?_
    dsimp only
    refine Stays.bind (eat_stays hw3 _) fun _ r4 h4 hw4 => ?_
    dsimp only
    refine Stays.bind (ih.block V r4 (by omega) hw4) fun _ r5 _ hw5 => ?_
    exact Stays.pure hw5
  · refine Stays.bind (eat_stays hw _) fun _ r1 h1 hw1 => ?_
    refine Stays.bind (ih.expr V r1 (by omega) hw1) fun _ r2 _ hw2 => ?_
    exact Stays.bind (eat_stays hw2 _) fun _ _ _ hs => Stays.pure hs
  · refine Stays.bind (eat_stays hw _) fun _ r1 h1 hw1 => ?_
    refine Stays.bind (ih.exprList V r1 (by omega) hw1 _) fun _ r2 _ hw2 => ?_
    exact Stays.bind (eat_stays hw2 _) fun _ _ _ hs => Stays.pure hs
  · refine Stays.bind (eat_stays hw _) fun _ r1 h1 hw1 => ?_
    refine Stays.bind (ih.dictEntries V r1 (by omega) hw1 #[]) fun _ r2 _ hw2 => ?_
    exact Stays.bind (eat_stays hw2 _) fun _ _ _ hs => Stays.pure hs
  · split <;> exact Stays.throw hpeek
  · exact Stays.throw hpeek

theorem links_succ (r : Reader) (hr : r.toks.length < n + 1) (hw : Within V r)
    (acc : Array Link) : Stays V (r.links acc) := by
  unfold Reader.links
  dsimp only
  split
  · split
    · refine Stays.bind (eat_stays hw _) fun _ r1 h1 hw1 => ?_
      dsimp only
      refine Stays.bind (ih.exprList V r1 (by omega) hw1 _) fun _ r2 h2 hw2 => ?_
      dsimp only
      refine Stays.bind (eat_stays hw2 _) fun _ r3 h3 hw3 => ?_
      dsimp only
      refine Stays.bind (ih.links V r3 (by omega) hw3 _) fun _ r4 _ hw4 => ?_
      exact Stays.pure hw4
    · exact Stays.pure hw
  · split
    · refine Stays.bind (eat_stays hw _) fun _ r1 h1 hw1 => ?_
      dsimp only
      refine Stays.bind (ih.expr V r1 (by omega) hw1) fun _ r2 h2 hw2 => ?_
      dsimp only
      refine Stays.bind (eat_stays hw2 _) fun _ r3 h3 hw3 => ?_
      dsimp only
      refine Stays.bind (ih.links V r3 (by omega) hw3 _) fun _ r4 _ hw4 => ?_
      exact Stays.pure hw4
    · exact Stays.pure hw
  · refine Stays.bind (eat_stays hw _) fun _ r1 h1 hw1 => ?_
    dsimp only
    refine Stays.bind (eatName_stays hw1) fun _ r2 h2 hw2 => ?_
    dsimp only
    refine Stays.bind (ih.links V r2 (by omega) hw2 _) fun _ r3 _ hw3 => ?_
    exact Stays.pure hw3
  · exact Stays.pure hw

theorem chain_succ
    (primary : ∀ (V : List Token) (r : Reader), r.toks.length < n + 1 → Within V r →
      Stays V r.primary)
    (r : Reader) (hr : r.toks.length < n + 1) (hw : Within V r) : Stays V r.chain := by
  unfold Reader.chain
  refine Stays.bind (primary V r hr hw) fun _ r1 h1 hw1 => ?_
  dsimp only
  refine Stays.bind (ih.links V r1 (by omega) hw1 #[]) fun _ r2 _ hw2 => ?_
  exact Stays.pure hw2

theorem expr_succ
    (chain : ∀ (V : List Token) (r : Reader), r.toks.length < n + 1 → Within V r →
      Stays V r.chain)
    (r : Reader) (hr : r.toks.length < n + 1) (hw : Within V r) : Stays V r.expr := by
  unfold Reader.expr
  refine Stays.bind (chain V r hr hw) fun _ r1 h1 hw1 => ?_
  dsimp only
  split
  · refine Stays.bind (eat_stays hw1 _) fun _ r2 h2 hw2 => ?_
    dsimp only
    refine Stays.bind (ih.expr V r2 (by omega) hw2) fun _ r3 _ hw3 => ?_
    exact Stays.pure hw3
  · exact Stays.pure hw1

theorem exprListTail_succ (r : Reader) (hr : r.toks.length < n + 1) (hw : Within V r)
    (acc : Array Expr) : Stays V (r.exprListTail acc) := by
  unfold Reader.exprListTail
  split
  · refine Stays.bind (eat_stays hw _) fun _ r1 h1 hw1 => ?_
    dsimp only
    refine Stays.bind (ih.expr V r1 (by omega) hw1) fun _ r2 h2 hw2 => ?_
    dsimp only
    refine Stays.bind (ih.exprListTail V r2 (by omega) hw2 _) fun _ r3 _ hw3 => ?_
    exact Stays.pure hw3
  · exact Stays.pure hw

theorem exprList_succ
    (expr : ∀ (V : List Token) (r : Reader), r.toks.length < n + 1 → Within V r →
      Stays V r.expr)
    (r : Reader) (hr : r.toks.length < n + 1) (hw : Within V r) (closing : TokenKind) :
    Stays V (r.exprList closing) := by
  unfold Reader.exprList
  split
  · exact Stays.pure hw
  · refine Stays.bind (expr V r hr hw) fun _ r1 h1 hw1 => ?_
    dsimp only
    refine Stays.bind (ih.exprListTail V r1 (by omega) hw1 _) fun _ r2 _ hw2 => ?_
    exact Stays.pure hw2

theorem dictEntries_succ (r : Reader) (hr : r.toks.length < n + 1) (hw : Within V r)
    (acc : Array (String × Expr)) : Stays V (r.dictEntries acc) := by
  unfold Reader.dictEntries
  split
  · exact Stays.pure hw
  · refine Stays.bind (eat_stays hw _) fun _ r1 h1 hw1 => ?_
    dsimp only
    refine Stays.bind (eat_stays hw1 _) fun _ r2 h2 hw2 => ?_
    dsimp only
    refine Stays.bind (ih.expr V r2 (by omega) hw2) fun _ r3 h3 hw3 => ?_
    dsimp only
    split
    · exact Stays.pure hw3
    · refine Stays.bind (eat_stays hw3 _) fun _ r4 h4 hw4 => ?_
      dsimp only
      refine Stays.bind (ih.dictEntries V r4 (by omega) hw4 _) fun _ r5 _ hw5 => ?_
      exact Stays.pure hw5

theorem elifs_succ (r : Reader) (hr : r.toks.length < n + 1) (hw : Within V r)
    (acc : Array Branch) : Stays V (r.elifs acc) := by
  unfold Reader.elifs
  split
  · refine Stays.bind (eat_stays hw _) fun _ r1 h1 hw1 => ?_
    dsimp only
    refine Stays.bind (ih.expr V r1 (by omega) hw1) fun _ r2 h2 hw2 => ?_
    dsimp only
    refine Stays.bind (ih.block V r2 (by omega) hw2) fun _ r3 h3 hw3 => ?_
    dsimp only
    refine Stays.bind (ih.elifs V r3 (by omega) hw3 _) fun _ r4 _ hw4 => ?_
    exact Stays.pure hw4
  · refine Stays.bind (eat_stays hw _) fun _ r1 h1 hw1 => ?_
    dsimp only
    refine Stays.bind (ih.block V r1 (by omega) hw1) fun _ r2 _ hw2 => ?_
    exact Stays.pure hw2
  · exact Stays.pure hw

theorem block_succ (r : Reader) (hr : r.toks.length < n + 1) (hw : Within V r) :
    Stays V r.block := by
  unfold Reader.block
  refine Stays.bind (eat_stays hw _) fun _ r1 h1 hw1 => ?_
  dsimp only
  refine Stays.bind (ih.stmtsUntilBrace V r1 (by omega) hw1 #[]) fun _ r2 _ hw2 => ?_
  exact Stays.bind (eat_stays hw2 _) fun _ _ _ hs => Stays.pure hs

theorem stmt_succ
    (expr : ∀ (V : List Token) (r : Reader), r.toks.length < n + 1 → Within V r →
      Stays V r.expr)
    (r : Reader) (hr : r.toks.length < n + 1) (hw : Within V r) : Stays V r.stmt := by
  unfold Reader.stmt
  split
  · -- a variable
    refine Stays.bind (eat_stays hw _) fun _ r1 h1 hw1 => ?_
    dsimp only
    refine Stays.bind (eatName_stays hw1) fun _ r2 h2 hw2 => ?_
    dsimp only
    refine Stays.bind (eat_stays hw2 _) fun _ r3 h3 hw3 => ?_
    dsimp only
    refine Stays.bind (expr V r3 (by omega) hw3) fun _ r4 _ hw4 => ?_
    exact Stays.pure hw4
  · split
    · -- a named function
      refine Stays.bind (eat_stays hw _) fun _ r1 h1 hw1 => ?_
      dsimp only
      refine Stays.bind (eatName_stays hw1) fun _ r2 h2 hw2 => ?_
      dsimp only
      refine Stays.bind (eat_stays hw2 _) fun _ r3 h3 hw3 => ?_
      dsimp only
      refine Stays.bind (nameList_stays hw3) fun _ r4 h4 hw4 => ?_
      dsimp only
      refine Stays.bind (eat_stays hw4 _) fun _ r5 h5 hw5 => ?_
      dsimp only
      refine Stays.bind (ih.block V r5 (by omega) hw5) fun _ r6 _ hw6 => ?_
      exact Stays.pure hw6
    · refine Stays.bind (expr V r hr hw) fun _ r1 _ hw1 => ?_
      exact Stays.pure hw1
  · refine Stays.bind (eat_stays hw _) fun _ r1 h1 hw1 => ?_
    dsimp only
    refine Stays.bind (expr V r1 (by omega) hw1) fun _ r2 _ hw2 => ?_
    exact Stays.pure hw2
  · -- a conditional
    refine Stays.bind (eat_stays hw _) fun _ r1 h1 hw1 => ?_
    dsimp only
    refine Stays.bind (expr V r1 (by omega) hw1) fun _ r2 h2 hw2 => ?_
    dsimp only
    refine Stays.bind (ih.block V r2 (by omega) hw2) fun _ r3 h3 hw3 => ?_
    dsimp only
    refine Stays.bind (ih.elifs V r3 (by omega) hw3 #[]) fun _ r4 _ hw4 => ?_
    exact Stays.pure hw4
  · refine Stays.bind (eat_stays hw _) fun _ r1 h1 hw1 => ?_
    dsimp only
    refine Stays.bind (expr V r1 (by omega) hw1) fun _ r2 h2 hw2 => ?_
    dsimp only
    refine Stays.bind (ih.block V r2 (by omega) hw2) fun _ r3 _ hw3 => ?_
    exact Stays.pure hw3
  · -- a `for` range: the fault for a wrong count of bounds points at the `for`
    refine eat_bind_stays hw _ fun forTok r1 h1 hfor hw1 => ?_
    dsimp only
    refine Stays.bind (eatName_stays hw1) fun _ r2 h2 hw2 => ?_
    dsimp only
    refine Stays.bind (eat_stays hw2 _) fun _ r3 h3 hw3 => ?_
    dsimp only
    refine Stays.bind (eat_stays hw3 _) fun _ r4 h4 hw4 => ?_
    dsimp only
    refine Stays.bind (ih.exprList V r4 (by omega) hw4 _) fun bounds r5 h5 hw5 => ?_
    dsimp only
    refine Stays.bind (eat_stays hw5 _) fun _ r6 h6 hw6 => ?_
    dsimp only
    split
    · refine Stays.bind (ih.block V r6 (by omega) hw6) fun _ r7 _ hw7 => ?_
      exact Stays.pure hw7
    · exact Stays.throw hfor
  · refine Stays.bind (expr V r hr hw) fun _ r1 _ hw1 => ?_
    exact Stays.pure hw1

theorem stmtsUntilBrace_succ
    (stmt : ∀ (V : List Token) (r : Reader), r.toks.length < n + 1 → Within V r →
      Stays V r.stmt)
    (r : Reader) (hr : r.toks.length < n + 1) (hw : Within V r) (acc : Array Stmt) :
    Stays V (r.stmtsUntilBrace acc) := by
  unfold Reader.stmtsUntilBrace
  split
  · exact Stays.pure hw
  · refine Stays.bind (stmt V r hr hw) fun _ r1 h1 hw1 => ?_
    dsimp only
    refine Stays.bind (ih.stmtsUntilBrace V r1 (by omega) hw1 _) fun _ r2 _ hw2 => ?_
    exact Stays.pure hw2

/-- One more token of length: each function at length `n` uses the functions it calls on
shorter readers, and on the same reader only those of lower rank, proved first. -/
theorem succ : WithinBelow (n + 1) :=
  have primary := fun V => @primary_succ n ih V
  have chain := fun V => @chain_succ n ih V (fun V => primary V)
  have expr := fun V => @expr_succ n ih V (fun V => chain V)
  have stmt := fun V => @stmt_succ n ih V (fun V => expr V)
  { primary, chain, expr, stmt
    links := fun V => @links_succ n ih V
    exprListTail := fun V => @exprListTail_succ n ih V
    exprList := fun V => @exprList_succ n ih V (fun V => expr V)
    dictEntries := fun V => @dictEntries_succ n ih V
    elifs := fun V => @elifs_succ n ih V
    block := fun V => @block_succ n ih V
    stmtsUntilBrace := fun V => @stmtsUntilBrace_succ n ih V (fun V => stmt V) }

end WithinBelow

theorem withinBelow : ∀ n, WithinBelow n
  | 0 => WithinBelow.zero
  | n + 1 => (withinBelow n).succ

/-- The statements up to the end mark: a fault points at a token of `V`. -/
theorem stmtsToEnd_within {V : List Token} (r : Reader) (hw : Within V r) (acc : Array Stmt)
    (e : ParseError) (he : r.stmtsToEnd acc = .error e) : e.token ∈ V := by
  rw [Reader.stmtsToEnd] at he
  split at he
  · cases he
  · have hs := (withinBelow _).stmt V r (Nat.lt_succ_self _) hw
    rcases hx : r.stmt with e' | ⟨s, r1, h1⟩
    · rw [hx] at he
      cases he
      exact hs.2 _ hx
    · rw [hx] at he
      exact stmtsToEnd_within r1 (hs.1 s r1 h1 hx) _ e he
termination_by r.toks.length
decreasing_by omega

end Reader

/-! ## The tokens the parser works on -/

theorem throughEnd_ends : ∀ toks : List Token,
    ∃ pre e, throughEnd toks = pre ++ [e] ∧ e.kind = .eof
  | [] => ⟨[], _, rfl, rfl⟩
  | [t] => by
    by_cases ht : t.kind = .eof
    · exact ⟨[], t, by simp [throughEnd, ht], ht⟩
    · exact ⟨[t], Token.eof t.line t.column, by simp [throughEnd, ht], rfl⟩
  | t :: u :: rest => by
    by_cases ht : t.kind = .eof
    · exact ⟨[], t, by simp [throughEnd, ht], ht⟩
    · obtain ⟨pre, e, h, he⟩ := throughEnd_ends (u :: rest)
      exact ⟨t :: pre, e, by simp [throughEnd, ht, h], he⟩

theorem withEndMark_cons_cons (t u : Token) (rest : List Token) :
    withEndMark (t :: u :: rest) = t :: withEndMark (u :: rest) := by
  cases hl : (u :: rest).getLast? with
  | none => simp at hl
  | some l =>
    simp only [withEndMark, List.getLast?_cons_cons, hl]
    split <;> simp

/-- The tokens the parser works on are a prefix of the token vector. -/
theorem withEndMark_begins_throughEnd : ∀ toks : List Token, throughEnd toks <+: withEndMark toks
  | [] => List.prefix_refl _
  | [t] => by
    by_cases ht : t.kind = .eof <;> simp [throughEnd, withEndMark, ht]
  | t :: u :: rest => by
    rw [withEndMark_cons_cons]
    by_cases ht : t.kind = .eof
    · simp [throughEnd, ht]
    · simpa [throughEnd, ht] using withEndMark_begins_throughEnd (u :: rest)

theorem within_throughEnd (toks : List Token) :
    Reader.Within (throughEnd toks) ⟨throughEnd toks, 1⟩ :=
  ⟨⟨[], rfl, by simp⟩, throughEnd_ends toks⟩

/-- The parser is total and never reads past the tokens it is given. -/
theorem parse_within_tokens (toks : List Token) :
    (∀ n, Reader.WithinBelow n) ∧
    Reader.Within (throughEnd toks) ⟨throughEnd toks, 1⟩ ∧
    throughEnd toks <+: withEndMark toks ∧
    ((∃ prog, parse toks = .ok prog) ∨
      ∃ e, parse toks = .error e ∧ e.report.kind = .parseError ∧
        e.token ∈ withEndMark toks) := by
  refine ⟨Reader.withinBelow, within_throughEnd toks, withEndMark_begins_throughEnd toks, ?_⟩
  rcases hp : parse toks with e | prog
  · refine .inr ⟨e, rfl, rfl, (withEndMark_begins_throughEnd toks).subset ?_⟩
    exact Reader.stmtsToEnd_within _ (within_throughEnd toks) #[] e hp
  · exact .inl ⟨prog, rfl⟩

end Arson.Syntax
