import Arson.Proofs.Syntax.ParseSteps
import Mathlib.Data.List.Forall2
/-!
# Token lists the parser cannot tell apart

The parser looks at a token's kind, its literal and its line, and at the text of a name or a
string; it never looks at a column, nor at the source text of a keyword or a symbol. Two token
lists that agree on these, token by token (`Token.Alike`), parse alike: to the same program, or
to faults of the same kind at tokens that agree, hence on the same line (`parse_alike`).

The proof follows the parser's own measure, as the shape of parsed programs does: `AlikeBelow n`
says that every parsing function reads two alike readers shorter than `n` alike, and each function
at length `n` is reached from the functions it calls.
-/
namespace Arson.Syntax

/-- Two tokens the parser cannot tell apart: one kind, one literal, one line, and one text for a
name or a string. -/
def Token.Alike (a b : Token) : Prop :=
  a.kind = b.kind ∧ a.literal = b.literal ∧ a.line = b.line ∧
    (a.kind = .identifier ∨ a.kind = .string → a.text = b.text)

theorem Token.Alike.refl (a : Token) : a.Alike a := ⟨rfl, rfl, rfl, fun _ => rfl⟩

/-- Two parse faults of one kind, at tokens the parser cannot tell apart. -/
def ParseError.Alike : ParseError → ParseError → Prop
  | .expected w a, .expected w' b => w = w' ∧ a.Alike b
  | .numberWithoutValue a, .numberWithoutValue b => a.Alike b
  | .reserved a, .reserved b => a.Alike b
  | .rangeBounds n a, .rangeBounds n' b => n = n' ∧ a.Alike b
  | _, _ => False

theorem ParseError.Alike.token {e e' : ParseError} (h : e.Alike e') : e.token.Alike e'.token := by
  cases e <;> cases e' <;> simp only [ParseError.Alike] at h
  all_goals first | exact h | exact h.2

/-- Two parses of whole programs: one program, or faults alike. -/
def ParseError.Twins {α : Type} : Except ParseError α → Except ParseError α → Prop
  | .ok a, .ok b => a = b
  | .error e, .error e' => e.Alike e'
  | _, _ => False

namespace Reader

/-- Two readers whose tokens the parser cannot tell apart, after tokens on one line. -/
def Alike (r r' : Reader) : Prop :=
  List.Forall₂ Token.Alike r.toks r'.toks ∧ r.lastLine = r'.lastLine

/-- Two results of one parsing function: values related by `V`, with readers alike after them,
or faults alike. -/
def Twin {α : Type} {P P' : Reader → Prop} (V : α → α → Prop) :
    Except ParseError (α × {s // P s}) → Except ParseError (α × {s // P' s}) → Prop
  | .ok (a, s), .ok (b, s') => V a b ∧ s.1.Alike s'.1
  | .error e, .error e' => e.Alike e'
  | _, _ => False

namespace Twin

variable {α β : Type} {P P' Q Q' : Reader → Prop} {V : α → α → Prop} {W : β → β → Prop}

theorem pure {a b : α} {s s' : Reader} {hs : P s} {hs' : P' s'} (hab : V a b) (h : s.Alike s') :
    Twin V (Pure.pure (a, ⟨s, hs⟩) : Except ParseError (α × {s // P s}))
      (Pure.pure (b, ⟨s', hs'⟩)) := ⟨hab, h⟩

theorem throw {e e' : ParseError} (h : e.Alike e') :
    Twin V (throw e : Except ParseError (α × {s // P s}))
      (throw e' : Except ParseError (α × {s // P' s})) := h

/-- A parse and what follows it, on two readers alike. -/
theorem bind {x : Except ParseError (α × {s // P s})} {y : Except ParseError (α × {s // P' s})}
    {f : α × {s // P s} → Except ParseError (β × {s // Q s})}
    {g : α × {s // P' s} → Except ParseError (β × {s // Q' s})} (hxy : Twin V x y)
    (hfg : ∀ a b s (hs : P s) s' (hs' : P' s'), V a b → s.Alike s' →
      Twin W (f (a, ⟨s, hs⟩)) (g (b, ⟨s', hs'⟩))) :
    Twin W (x >>= f) (y >>= g) := by
  rcases x with e | ⟨a, s, hs⟩ <;> rcases y with e' | ⟨b, s', hs'⟩
  · exact hxy
  · exact hxy.elim
  · exact hxy.elim
  · exact hfg a b s hs s' hs' hxy.1 hxy.2

end Twin

namespace Alike

variable {r r' : Reader}

theorem length (h : r.Alike r') : r'.toks.length = r.toks.length := h.1.length_eq.symm

theorem peek (h : r.Alike r') : r.peek.Alike r'.peek := by
  obtain ⟨toks, L⟩ := r
  obtain ⟨toks', L'⟩ := r'
  obtain ⟨hs, -⟩ := h
  cases hs with
  | nil => exact .refl _
  | cons ht _ => exact ht

theorem peek_kind (h : r.Alike r') : r'.peek.kind = r.peek.kind := h.peek.1.symm

theorem kind (h : r.Alike r') : r'.kind = r.kind := h.peek_kind

theorem peek_line (h : r.Alike r') : r'.peek.line = r.peek.line := h.peek.2.2.1.symm

theorem nextKind (h : r.Alike r') : r'.nextKind = r.nextKind := by
  obtain ⟨toks, L⟩ := r
  obtain ⟨toks', L'⟩ := r'
  obtain ⟨hs, -⟩ := h
  rcases hs with _ | ⟨_, _ | ⟨hb, _⟩⟩
  · rfl
  · rfl
  · exact hb.1.symm

/-- Taking a token of a kind succeeds on both readers or on neither, and takes tokens alike. -/
theorem eat (h : r.Alike r') (k : TokenKind) :
    Twin (fun a b => a.kind = k ∧ a.Alike b) (r.eat k) (r'.eat k) := by
  obtain ⟨toks, L⟩ := r
  obtain ⟨toks', L'⟩ := r'
  obtain ⟨hs, hL⟩ := h
  cases hs with
  | nil => exact ⟨rfl, .refl _⟩
  | @cons t t' rest rest' ht hrest =>
    simp only [Reader.eat, ht.1]
    split
    · rename_i hk
      exact ⟨⟨ht.1.trans hk.1, ht⟩, hrest, ht.2.2.1⟩
    · exact ⟨rfl, ht⟩

theorem eatName (h : r.Alike r') : Twin Eq r.eatName r'.eatName := by
  unfold Reader.eatName
  exact Twin.bind (h.eat _) fun _ _ _ _ _ _ ht hs => Twin.pure (ht.2.2.2.2 (.inl ht.1)) hs

end Alike


/-- Names after commas read alike. -/
theorem nameListTail_alike {r r' : Reader} (h : r.Alike r') (acc : Array String) :
    Twin Eq (r.nameListTail acc) (r'.nameListTail acc) := by
  rw [nameListTail, nameListTail, h.kind]
  split
  · have he := h.eat .comma
    rcases hx : r.eat .comma with e | ⟨t, r1, h1⟩ <;>
      rcases hy : r'.eat .comma with e' | ⟨t', r1', h1'⟩ <;> rw [hx, hy] at he
    · exact he
    · exact he.elim
    · exact he.elim
    · have hn := Alike.eatName he.2
      dsimp only
      rcases hn1 : r1.eatName with e | ⟨n, r2, h2⟩ <;>
        rcases hn2 : r1'.eatName with e' | ⟨n', r2', h2'⟩ <;> rw [hn1, hn2] at hn
      · exact hn
      · exact hn.elim
      · exact hn.elim
      · obtain ⟨rfl, hr2⟩ := hn
        have ht := nameListTail_alike hr2 (acc.push n)
        dsimp only
        rcases ht1 : r2.nameListTail (acc.push n) with e | ⟨ns, r3, h3⟩ <;>
          rcases ht2 : r2'.nameListTail (acc.push n) with e' | ⟨ns', r3', h3'⟩ <;>
          rw [ht1, ht2] at ht
        · exact ht
        · exact ht.elim
        · exact ht.elim
        · exact ht
  · exact ⟨rfl, h⟩
termination_by r.toks.length
decreasing_by all_goals simp only [Subtype.coe_mk] at *; omega

/-- Names read alike. -/
theorem nameList_alike {r r' : Reader} (h : r.Alike r') : Twin Eq r.nameList r'.nameList := by
  unfold nameList
  rw [h.kind]
  split
  · have hn := h.eatName
    rcases hn1 : r.eatName with e | ⟨n, r1, h1⟩ <;>
      rcases hn2 : r'.eatName with e' | ⟨n', r1', h1'⟩ <;> rw [hn1, hn2] at hn
    · exact hn
    · exact hn.elim
    · exact hn.elim
    · obtain ⟨rfl, hr1⟩ := hn
      have ht := nameListTail_alike hr1 #[n]
      dsimp only
      rcases ht1 : r1.nameListTail #[n] with e | ⟨ns, r2, h2⟩ <;>
        rcases ht2 : r1'.nameListTail #[n] with e' | ⟨ns', r2', h2'⟩ <;> rw [ht1, ht2] at ht
      · exact ht
      · exact ht.elim
      · exact ht.elim
      · exact ht
  · exact ⟨rfl, h⟩

/-- The parsing functions read readers alike alike, on every reader shorter than `n`. -/
structure AlikeBelow (n : Nat) : Prop where
  primary : ∀ r r' : Reader, r.toks.length < n → r.Alike r' → Twin Eq r.primary r'.primary
  links : ∀ r r' : Reader, r.toks.length < n → r.Alike r' → ∀ acc : Array Link,
    Twin Eq (r.links acc) (r'.links acc)
  chain : ∀ r r' : Reader, r.toks.length < n → r.Alike r' → Twin Eq r.chain r'.chain
  expr : ∀ r r' : Reader, r.toks.length < n → r.Alike r' → Twin Eq r.expr r'.expr
  exprListTail : ∀ r r' : Reader, r.toks.length < n → r.Alike r' → ∀ acc : Array Expr,
    Twin Eq (r.exprListTail acc) (r'.exprListTail acc)
  exprList : ∀ r r' : Reader, r.toks.length < n → r.Alike r' → ∀ closing,
    Twin Eq (r.exprList closing) (r'.exprList closing)
  dictEntries : ∀ r r' : Reader, r.toks.length < n → r.Alike r' →
    ∀ acc : Array (String × Expr), Twin Eq (r.dictEntries acc) (r'.dictEntries acc)
  elifs : ∀ r r' : Reader, r.toks.length < n → r.Alike r' → ∀ acc : Array Branch,
    Twin Eq (r.elifs acc) (r'.elifs acc)
  block : ∀ r r' : Reader, r.toks.length < n → r.Alike r' → Twin Eq r.block r'.block
  stmt : ∀ r r' : Reader, r.toks.length < n → r.Alike r' → Twin Eq r.stmt r'.stmt
  stmtsUntilBrace : ∀ r r' : Reader, r.toks.length < n → r.Alike r' → ∀ acc : Array Stmt,
    Twin Eq (r.stmtsUntilBrace acc) (r'.stmtsUntilBrace acc)

namespace AlikeBelow

theorem zero : AlikeBelow 0 := by
  constructor <;> intro r _ hr <;> cases hr

variable {n : Nat} (ih : AlikeBelow n)
include ih

theorem primary_succ (r r' : Reader) (hr : r.toks.length < n + 1) (h : r.Alike r') :
    Twin Eq r.primary r'.primary := by
  have hpeek := h.peek
  unfold Reader.primary
  dsimp only
  rw [h.peek_kind]
  split
  · -- `lightmatch` before a primary
    refine Twin.bind (h.eat _) fun _ _ r1 h1 r1' _ _ hr1 => ?_
    refine Twin.bind (ih.primary r1 r1' (by omega) hr1) fun e _ r2 _ r2' _ he hr2 => ?_
    exact Twin.pure he hr2
  · -- a name: its text
    rename_i hk
    exact Twin.bind (h.eat _) fun _ _ _ _ _ _ _ hs => Twin.pure (congrArg Expr.ident (hpeek.2.2.2 (.inl hk))) hs
  · refine Twin.bind (h.eat _) fun _ _ _ _ _ _ _ hs => ?_
    rw [← hpeek.2.1]
    split
    · exact Twin.pure rfl hs
    · exact Twin.throw hpeek
  · rename_i hk
    exact Twin.bind (h.eat _) fun _ _ _ _ _ _ _ hs => Twin.pure (congrArg Expr.str (hpeek.2.2.2 (.inr hk))) hs
  · exact Twin.bind (h.eat _) fun _ _ _ _ _ _ _ hs => Twin.pure rfl hs
  · exact Twin.bind (h.eat _) fun _ _ _ _ _ _ _ hs => Twin.pure rfl hs
  · -- a minus negates a chain
    refine Twin.bind (h.eat _) fun _ _ r1 h1 r1' _ _ hr1 => ?_
    refine Twin.bind (ih.chain r1 r1' (by omega) hr1) fun e _ _ _ _ _ he hr2 => ?_
    exact Twin.pure (congrArg Expr.negate he) hr2
  · -- a function literal: its body is a block
    refine Twin.bind (h.eat _) fun _ _ r1 h1 r1' _ _ hr1 => ?_
    dsimp only
    refine Twin.bind (hr1.eat _) fun _ _ r2 h2 r2' _ _ hr2 => ?_
    dsimp only
    refine Twin.bind (nameList_alike hr2) fun ps _ r3 h3 r3' _ hps hr3 => ?_
    dsimp only
    refine Twin.bind (hr3.eat _) fun _ _ r4 h4 r4' _ _ hr4 => ?_
    dsimp only
    refine Twin.bind (ih.block r4 r4' (by omega) hr4) fun body _ _ _ _ _ hb hr5 => ?_
    exact Twin.pure (by rw [hps, hb]) hr5
  · refine Twin.bind (h.eat _) fun _ _ r1 h1 r1' _ _ hr1 => ?_
    refine Twin.bind (ih.expr r1 r1' (by omega) hr1) fun e _ _ _ _ _ he hr2 => ?_
    exact Twin.bind (hr2.eat _) fun _ _ _ _ _ _ _ hr3 => Twin.pure he hr3
  · refine Twin.bind (h.eat _) fun _ _ r1 h1 r1' _ _ hr1 => ?_
    refine Twin.bind (ih.exprList r1 r1' (by omega) hr1 _) fun items _ _ _ _ _ hi hr2 => ?_
    exact Twin.bind (hr2.eat _) fun _ _ _ _ _ _ _ hr3 => Twin.pure (congrArg Expr.array hi) hr3
  · refine Twin.bind (h.eat _) fun _ _ r1 h1 r1' _ _ hr1 => ?_
    refine Twin.bind (ih.dictEntries r1 r1' (by omega) hr1 #[]) fun es _ _ _ _ _ hes hr2 => ?_
    exact Twin.bind (hr2.eat _) fun _ _ _ _ _ _ _ hr3 => Twin.pure (congrArg Expr.dict hes) hr3
  · split
    · exact Twin.throw hpeek
    · exact Twin.throw ⟨rfl, hpeek⟩
  · exact Twin.throw ⟨rfl, hpeek⟩

theorem links_succ (r r' : Reader) (hr : r.toks.length < n + 1) (h : r.Alike r')
    (acc : Array Link) : Twin Eq (r.links acc) (r'.links acc) := by
  unfold Reader.links
  dsimp only
  rw [h.kind, h.peek_line, ← h.2]
  split
  · split
    · refine Twin.bind (h.eat _) fun _ _ r1 h1 r1' _ _ hr1 => ?_
      dsimp only
      refine Twin.bind (ih.exprList r1 r1' (by omega) hr1 _) fun args _ r2 h2 r2' _ ha hr2 => ?_
      dsimp only
      refine Twin.bind (hr2.eat _) fun _ _ r3 h3 r3' _ _ hr3 => ?_
      dsimp only
      rw [← ha]
      refine Twin.bind (ih.links r3 r3' (by omega) hr3 _) fun ls _ _ _ _ _ hls hr4 => ?_
      exact Twin.pure hls hr4
    · exact Twin.pure rfl h
  · split
    · refine Twin.bind (h.eat _) fun _ _ r1 h1 r1' _ _ hr1 => ?_
      dsimp only
      refine Twin.bind (ih.expr r1 r1' (by omega) hr1) fun key _ r2 h2 r2' _ hk hr2 => ?_
      dsimp only
      refine Twin.bind (hr2.eat _) fun _ _ r3 h3 r3' _ _ hr3 => ?_
      dsimp only
      rw [← hk]
      refine Twin.bind (ih.links r3 r3' (by omega) hr3 _) fun ls _ _ _ _ _ hls hr4 => ?_
      exact Twin.pure hls hr4
    · exact Twin.pure rfl h
  · refine Twin.bind (h.eat _) fun _ _ r1 h1 r1' _ _ hr1 => ?_
    dsimp only
    refine Twin.bind (Alike.eatName hr1) fun name _ r2 h2 r2' _ hn hr2 => ?_
    dsimp only
    rw [← hn]
    refine Twin.bind (ih.links r2 r2' (by omega) hr2 _) fun ls _ _ _ _ _ hls hr3 => ?_
    exact Twin.pure hls hr3
  · exact Twin.pure rfl h

theorem chain_succ
    (primary : ∀ r r' : Reader, r.toks.length < n + 1 → r.Alike r' → Twin Eq r.primary r'.primary)
    (r r' : Reader) (hr : r.toks.length < n + 1) (h : r.Alike r') : Twin Eq r.chain r'.chain := by
  unfold Reader.chain
  refine Twin.bind (primary r r' hr h) fun e _ r1 h1 r1' _ he hr1 => ?_
  dsimp only
  refine Twin.bind (ih.links r1 r1' (by omega) hr1 #[]) fun ls _ _ _ _ _ hls hr2 => ?_
  exact Twin.pure (by rw [he, hls]) hr2

theorem expr_succ
    (chain : ∀ r r' : Reader, r.toks.length < n + 1 → r.Alike r' → Twin Eq r.chain r'.chain)
    (r r' : Reader) (hr : r.toks.length < n + 1) (h : r.Alike r') : Twin Eq r.expr r'.expr := by
  unfold Reader.expr
  refine Twin.bind (chain r r' hr h) fun lhs _ r1 h1 r1' _ hl hr1 => ?_
  dsimp only
  rw [hr1.kind]
  split
  · refine Twin.bind (hr1.eat _) fun _ _ r2 h2 r2' _ _ hr2 => ?_
    dsimp only
    refine Twin.bind (ih.expr r2 r2' (by omega) hr2) fun rhs _ _ _ _ _ hrhs hr3 => ?_
    exact Twin.pure (by rw [hl, hrhs]) hr3
  · exact Twin.pure hl hr1

theorem exprListTail_succ (r r' : Reader) (hr : r.toks.length < n + 1) (h : r.Alike r')
    (acc : Array Expr) : Twin Eq (r.exprListTail acc) (r'.exprListTail acc) := by
  unfold Reader.exprListTail
  rw [h.kind]
  split
  · refine Twin.bind (h.eat _) fun _ _ r1 h1 r1' _ _ hr1 => ?_
    dsimp only
    refine Twin.bind (ih.expr r1 r1' (by omega) hr1) fun e _ r2 h2 r2' _ he hr2 => ?_
    dsimp only
    rw [← he]
    refine Twin.bind (ih.exprListTail r2 r2' (by omega) hr2 _) fun es _ _ _ _ _ hes hr3 => ?_
    exact Twin.pure hes hr3
  · exact Twin.pure rfl h

theorem exprList_succ
    (expr : ∀ r r' : Reader, r.toks.length < n + 1 → r.Alike r' → Twin Eq r.expr r'.expr)
    (r r' : Reader) (hr : r.toks.length < n + 1) (h : r.Alike r') (closing : TokenKind) :
    Twin Eq (r.exprList closing) (r'.exprList closing) := by
  unfold Reader.exprList
  rw [h.kind]
  split
  · exact Twin.pure rfl h
  · refine Twin.bind (expr r r' hr h) fun e _ r1 h1 r1' _ he hr1 => ?_
    dsimp only
    rw [← he]
    refine Twin.bind (ih.exprListTail r1 r1' (by omega) hr1 _) fun es _ _ _ _ _ hes hr2 => ?_
    exact Twin.pure hes hr2

theorem dictEntries_succ (r r' : Reader) (hr : r.toks.length < n + 1) (h : r.Alike r')
    (acc : Array (String × Expr)) : Twin Eq (r.dictEntries acc) (r'.dictEntries acc) := by
  unfold Reader.dictEntries
  rw [h.kind]
  split
  · exact Twin.pure rfl h
  · refine Twin.bind (h.eat _) fun key key' r1 h1 r1' _ hkey hr1 => ?_
    dsimp only
    refine Twin.bind (hr1.eat _) fun _ _ r2 h2 r2' _ _ hr2 => ?_
    dsimp only
    refine Twin.bind (ih.expr r2 r2' (by omega) hr2) fun v _ r3 h3 r3' _ hv hr3 => ?_
    dsimp only
    -- the key is a string, so its text is read alike
    rw [← hkey.2.2.2.2 (.inr hkey.1), ← hv, hr3.kind]
    split
    · exact Twin.pure rfl hr3
    · refine Twin.bind (hr3.eat _) fun _ _ r4 h4 r4' _ _ hr4 => ?_
      dsimp only
      refine Twin.bind (ih.dictEntries r4 r4' (by omega) hr4 _) fun es _ _ _ _ _ hes hr5 => ?_
      exact Twin.pure hes hr5

theorem elifs_succ (r r' : Reader) (hr : r.toks.length < n + 1) (h : r.Alike r')
    (acc : Array Branch) : Twin Eq (r.elifs acc) (r'.elifs acc) := by
  unfold Reader.elifs
  rw [h.kind]
  split
  · refine Twin.bind (h.eat _) fun _ _ r1 h1 r1' _ _ hr1 => ?_
    dsimp only
    refine Twin.bind (ih.expr r1 r1' (by omega) hr1) fun test _ r2 h2 r2' _ ht hr2 => ?_
    dsimp only
    refine Twin.bind (ih.block r2 r2' (by omega) hr2) fun body _ r3 h3 r3' _ hb hr3 => ?_
    dsimp only
    rw [← ht, ← hb]
    refine Twin.bind (ih.elifs r3 r3' (by omega) hr3 _) fun bs _ _ _ _ _ hbs hr4 => ?_
    exact Twin.pure hbs hr4
  · refine Twin.bind (h.eat _) fun _ _ r1 h1 r1' _ _ hr1 => ?_
    dsimp only
    refine Twin.bind (ih.block r1 r1' (by omega) hr1) fun body _ _ _ _ _ hb hr2 => ?_
    exact Twin.pure (by rw [hb]) hr2
  · exact Twin.pure rfl h

theorem block_succ (r r' : Reader) (hr : r.toks.length < n + 1) (h : r.Alike r') :
    Twin Eq r.block r'.block := by
  unfold Reader.block
  refine Twin.bind (h.eat _) fun _ _ r1 h1 r1' _ _ hr1 => ?_
  dsimp only
  refine Twin.bind (ih.stmtsUntilBrace r1 r1' (by omega) hr1 #[]) fun body _ _ _ _ _ hb hr2 => ?_
  exact Twin.bind (hr2.eat _) fun _ _ _ _ _ _ _ hr3 => Twin.pure hb hr3

theorem stmt_succ
    (expr : ∀ r r' : Reader, r.toks.length < n + 1 → r.Alike r' → Twin Eq r.expr r'.expr)
    (r r' : Reader) (hr : r.toks.length < n + 1) (h : r.Alike r') : Twin Eq r.stmt r'.stmt := by
  unfold Reader.stmt
  rw [h.kind]
  split
  · -- a variable
    refine Twin.bind (h.eat _) fun _ _ r1 h1 r1' _ _ hr1 => ?_
    dsimp only
    refine Twin.bind (Alike.eatName hr1) fun name _ r2 h2 r2' _ hn hr2 => ?_
    dsimp only
    refine Twin.bind (hr2.eat _) fun _ _ r3 h3 r3' _ _ hr3 => ?_
    dsimp only
    refine Twin.bind (expr r3 r3' (by omega) hr3) fun e _ _ _ _ _ he hr4 => ?_
    exact Twin.pure (by rw [hn, he]) hr4
  · rw [h.nextKind]
    split
    · -- a named function
      refine Twin.bind (h.eat _) fun _ _ r1 h1 r1' _ _ hr1 => ?_
      dsimp only
      refine Twin.bind (Alike.eatName hr1) fun name _ r2 h2 r2' _ hn hr2 => ?_
      dsimp only
      refine Twin.bind (hr2.eat _) fun _ _ r3 h3 r3' _ _ hr3 => ?_
      dsimp only
      refine Twin.bind (nameList_alike hr3) fun ps _ r4 h4 r4' _ hps hr4 => ?_
      dsimp only
      refine Twin.bind (hr4.eat _) fun _ _ r5 h5 r5' _ _ hr5 => ?_
      dsimp only
      refine Twin.bind (ih.block r5 r5' (by omega) hr5) fun body _ _ _ _ _ hb hr6 => ?_
      exact Twin.pure (by rw [hn, hps, hb]) hr6
    · exact Twin.bind (expr r r' hr h) fun _ _ _ _ _ _ he hr1 =>
        Twin.pure (congrArg Stmt.expr he) hr1
  · refine Twin.bind (h.eat _) fun _ _ r1 h1 r1' _ _ hr1 => ?_
    dsimp only
    refine Twin.bind (expr r1 r1' (by omega) hr1) fun e _ _ _ _ _ he hr2 => ?_
    exact Twin.pure (congrArg Stmt.ret he) hr2
  · -- a conditional
    refine Twin.bind (h.eat _) fun _ _ r1 h1 r1' _ _ hr1 => ?_
    dsimp only
    refine Twin.bind (expr r1 r1' (by omega) hr1) fun test _ r2 h2 r2' _ ht hr2 => ?_
    dsimp only
    refine Twin.bind (ih.block r2 r2' (by omega) hr2) fun body _ r3 h3 r3' _ hb hr3 => ?_
    dsimp only
    refine Twin.bind (ih.elifs r3 r3' (by omega) hr3 #[]) fun bs _ _ _ _ _ hbs hr4 => ?_
    exact Twin.pure (by rw [ht, hb, hbs]) hr4
  · refine Twin.bind (h.eat _) fun _ _ r1 h1 r1' _ _ hr1 => ?_
    dsimp only
    refine Twin.bind (expr r1 r1' (by omega) hr1) fun test _ r2 h2 r2' _ ht hr2 => ?_
    dsimp only
    refine Twin.bind (ih.block r2 r2' (by omega) hr2) fun body _ _ _ _ _ hb hr3 => ?_
    exact Twin.pure (by rw [ht, hb]) hr3
  · -- a `for` range: exactly two bounds, or a fault at the `for`
    refine Twin.bind (h.eat _) fun forTok forTok' r1 h1 r1' _ hfor hr1 => ?_
    dsimp only
    refine Twin.bind (Alike.eatName hr1) fun name _ r2 h2 r2' _ hn hr2 => ?_
    dsimp only
    refine Twin.bind (hr2.eat _) fun _ _ r3 h3 r3' _ _ hr3 => ?_
    dsimp only
    refine Twin.bind (hr3.eat _) fun _ _ r4 h4 r4' _ _ hr4 => ?_
    dsimp only
    refine Twin.bind (ih.exprList r4 r4' (by omega) hr4 _) fun bounds _ r5 h5 r5' _ hbs hr5 => ?_
    dsimp only
    refine Twin.bind (hr5.eat _) fun _ _ r6 h6 r6' _ _ hr6 => ?_
    dsimp only
    rw [← hbs, ← hn]
    split
    · refine Twin.bind (ih.block r6 r6' (by omega) hr6) fun body _ _ _ _ _ hb hr7 => ?_
      exact Twin.pure (by rw [hb]) hr7
    · exact Twin.throw ⟨rfl, hfor.2⟩
  · exact Twin.bind (expr r r' hr h) fun _ _ _ _ _ _ he hr1 =>
      Twin.pure (congrArg Stmt.expr he) hr1

theorem stmtsUntilBrace_succ
    (stmt : ∀ r r' : Reader, r.toks.length < n + 1 → r.Alike r' → Twin Eq r.stmt r'.stmt)
    (r r' : Reader) (hr : r.toks.length < n + 1) (h : r.Alike r') (acc : Array Stmt) :
    Twin Eq (r.stmtsUntilBrace acc) (r'.stmtsUntilBrace acc) := by
  unfold Reader.stmtsUntilBrace
  rw [h.kind]
  split
  · exact Twin.pure rfl h
  · refine Twin.bind (stmt r r' hr h) fun st _ r1 h1 r1' _ hs hr1 => ?_
    dsimp only
    rw [← hs]
    refine Twin.bind (ih.stmtsUntilBrace r1 r1' (by omega) hr1 _) fun ss _ _ _ _ _ hss hr2 => ?_
    exact Twin.pure hss hr2

/-- One more token of length: each function at length `n` uses the functions it calls on
shorter readers, and on the same reader only those of lower rank, proved first. -/
theorem succ : AlikeBelow (n + 1) :=
  have primary := ih.primary_succ
  have chain := ih.chain_succ primary
  have expr := ih.expr_succ chain
  have stmt := ih.stmt_succ expr
  { primary, chain, expr, stmt
    links := ih.links_succ
    exprListTail := ih.exprListTail_succ
    exprList := ih.exprList_succ expr
    dictEntries := ih.dictEntries_succ
    elifs := ih.elifs_succ
    block := ih.block_succ
    stmtsUntilBrace := ih.stmtsUntilBrace_succ stmt }

end AlikeBelow

theorem alikeBelow : ∀ n, AlikeBelow n
  | 0 => AlikeBelow.zero
  | n + 1 => (alikeBelow n).succ

/-- Statements up to the end mark read alike. -/
theorem stmtsToEnd_alike {r r' : Reader} (h : r.Alike r') (acc : Array Stmt) :
    ParseError.Twins (r.stmtsToEnd acc) (r'.stmtsToEnd acc) := by
  rw [stmtsToEnd, stmtsToEnd, h.kind]
  split
  · rfl
  · have hs := (alikeBelow _).stmt r r' (Nat.lt_succ_self _) h
    rcases hx : r.stmt with e | ⟨st, r1, h1⟩ <;>
      rcases hy : r'.stmt with e' | ⟨st', r1', h1'⟩ <;> rw [hx, hy] at hs
    · exact hs
    · exact hs.elim
    · exact hs.elim
    · obtain ⟨rfl, hr1⟩ := hs
      exact stmtsToEnd_alike hr1 _
termination_by r.toks.length

end Reader

/-- Cutting at the first end mark keeps token lists alike. -/
theorem throughEnd_alike {toks toks' : List Token} (h : List.Forall₂ Token.Alike toks toks') :
    List.Forall₂ Token.Alike (throughEnd toks) (throughEnd toks') := by
  induction h with
  | nil => exact .cons (.refl _) .nil
  | cons ht hrest ih =>
    -- the last token gets an end mark of its own unless it is one
    cases hrest with
    | nil =>
      simp only [throughEnd, ht.1]
      split
      · exact .cons ht .nil
      · exact .cons ht (.cons ⟨rfl, rfl, ht.2.2.1, fun h => by cases h <;> contradiction⟩ .nil)
    | cons =>
      simp only [throughEnd, ht.1]
      split
      · exact .cons ht .nil
      · exact .cons ht ih

/-- Token lists that the parser cannot tell apart parse to one program, or fail alike. -/
theorem parse_alike {toks toks' : List Token} (h : List.Forall₂ Token.Alike toks toks') :
    ParseError.Twins (parse toks) (parse toks') := by
  have hr : Reader.Alike ⟨throughEnd toks, 1⟩ ⟨throughEnd toks', 1⟩ := ⟨throughEnd_alike h, rfl⟩
  exact Reader.stmtsToEnd_alike hr #[]

end Arson.Syntax
