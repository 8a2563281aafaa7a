import Arson.Syntax.Parser
/-!
# The shape of a parsed program

The parser builds chains and conditionals in one shape only. A chain gets at least one link, and
a single call link makes a call expression instead (`chainOf`); the branches of a conditional are
`elif`s and then at most one `else`, which ends them. `Stmt.allShaped` says this of every node of
a program, and every program the parser gives has it (`parse_shaped`).

The proof follows the parser's own measure: `ShapedBelow n` says that every parsing function, on
readers shorter than `n`, gives only well-shaped results, and each function at length `n` is reached from the
functions it calls, on shorter readers or earlier in the order of ranks.
-/
namespace Arson.Syntax

/-- The links a chain may carry: not none, and not one call alone. -/
def Link.chainable : List Link → Bool
  | [] => false
  | [.call _] => false
  | _ => true

def Branch.isElif : Branch → Bool
  | .elif _ _ => true
  | .otherwise _ => false

/-- Branches in the order the parser reads them: `elif`s, then at most one `else`, last. -/
def Branch.ordered : List Branch → Bool
  | [] => true
  | .elif _ _ :: bs => ordered bs
  | [.otherwise _] => true
  | .otherwise _ :: _ :: _ => false

mutual
/-- Every chain and every conditional in an expression has the parser's shape. -/
def Expr.shaped : Expr → Bool
  | .ident _ | .number _ | .str _ | .bool _ => true
  | .negate e => e.shaped
  | .binOp a _ b => a.shaped && b.shaped
  | .call f args => f.shaped && Expr.allShaped args
  | .array items => Expr.allShaped items
  | .dict entries => Expr.entriesShaped entries
  | .lambda _ body => Stmt.allShaped body
  | .chain r ls => r.shaped && Link.chainable ls && Link.allShaped ls

def Expr.allShaped : List Expr → Bool
  | [] => true
  | e :: es => e.shaped && Expr.allShaped es

def Expr.entriesShaped : List (String × Expr) → Bool
  | [] => true
  | (_, e) :: es => e.shaped && Expr.entriesShaped es

def Link.shaped : Link → Bool
  | .call args => Expr.allShaped args
  | .attr _ => true
  | .index k => k.shaped

def Link.allShaped : List Link → Bool
  | [] => true
  | l :: ls => l.shaped && Link.allShaped ls

def Branch.shaped : Branch → Bool
  | .elif t body => t.shaped && Stmt.allShaped body
  | .otherwise body => Stmt.allShaped body

def Branch.allShaped : List Branch → Bool
  | [] => true
  | b :: bs => b.shaped && Branch.allShaped bs

def Stmt.shaped : Stmt → Bool
  | .var _ e | .ret e | .expr e => e.shaped
  | .func _ _ body => Stmt.allShaped body
  | .ifElse t body bs =>
    t.shaped && Stmt.allShaped body && Branch.ordered bs && Branch.allShaped bs
  | .whileLoop t body => t.shaped && Stmt.allShaped body
  | .forRange _ a b body => a.shaped && b.shaped && Stmt.allShaped body

/-- Every statement of a program has the parser's shape. -/
def Stmt.allShaped : List Stmt → Bool
  | [] => true
  | s :: ss => s.shaped && Stmt.allShaped ss
end

example : Stmt.allShaped [.expr (.chain (.ident "a") [.attr "b"])] = true := by decide
example : Stmt.allShaped [.expr (.chain (.ident "a") [.call []])] = false := by decide

@[simp] theorem Expr.allShaped_append (xs ys : List Expr) :
    Expr.allShaped (xs ++ ys) = (Expr.allShaped xs && Expr.allShaped ys) := by
  induction xs with
  | nil => rfl
  | cons x xs ih => simp [Expr.allShaped, ih, Bool.and_assoc]

@[simp] theorem Expr.entriesShaped_append (xs ys : List (String × Expr)) :
    Expr.entriesShaped (xs ++ ys) = (Expr.entriesShaped xs && Expr.entriesShaped ys) := by
  induction xs with
  | nil => rfl
  | cons x xs ih => simp [Expr.entriesShaped, ih, Bool.and_assoc]

@[simp] theorem Link.allShaped_append (xs ys : List Link) :
    Link.allShaped (xs ++ ys) = (Link.allShaped xs && Link.allShaped ys) := by
  induction xs with
  | nil => rfl
  | cons x xs ih => simp [Link.allShaped, ih, Bool.and_assoc]

@[simp] theorem Branch.allShaped_append (xs ys : List Branch) :
    Branch.allShaped (xs ++ ys) = (Branch.allShaped xs && Branch.allShaped ys) := by
  induction xs with
  | nil => rfl
  | cons x xs ih => simp [Branch.allShaped, ih, Bool.and_assoc]

@[simp] theorem Stmt.allShaped_append (xs ys : List Stmt) :
    Stmt.allShaped (xs ++ ys) = (Stmt.allShaped xs && Stmt.allShaped ys) := by
  induction xs with
  | nil => rfl
  | cons x xs ih => simp [Stmt.allShaped, ih, Bool.and_assoc]

/-- `elif`s alone are in order, and so they are with one `else` after them. -/
theorem Branch.ordered_of_elifs {bs : List Branch} (h : bs.all Branch.isElif) :
    Branch.ordered bs ∧ ∀ body, Branch.ordered (bs ++ [.otherwise body]) := by
  induction bs with
  | nil => exact ⟨rfl, fun _ => rfl⟩
  | cons b bs ih =>
    rw [List.all_cons, Bool.and_eq_true] at h
    cases b with
    | elif t body => exact ih h.2
    | otherwise body => cases h.1

theorem chainOf_shaped {e : Expr} {ls : List Link} (he : e.shaped) (hls : Link.allShaped ls) :
    (Reader.chainOf e ls).shaped := by
  match ls with
  | [] => exact he
  | [.call args] => simpa [Reader.chainOf, Expr.shaped, Link.allShaped, Link.shaped, he] using hls
  | [.attr _] | [.index _] | _ :: _ :: _ =>
    simp [Reader.chainOf, Expr.shaped, Link.chainable, he, hls]

/-- What a parse gives, when it succeeds, has `P`. -/
def Yields {ε α : Type} (P : α → Prop) (res : Except ε α) : Prop := ∀ a, res = .ok a → P a

namespace Yields

variable {ε α β : Type} {P : α → Prop} {Q : β → Prop}

theorem pure {a : α} (h : P a) : Yields (ε := ε) P (Pure.pure a) := by
  rintro b ⟨⟩
  exact h

theorem error {e : ε} : Yields P (.error e : Except ε α) := by
  rintro b ⟨⟩

/-- A parse and what follows it, for a parse that gives a value and the reader after it. -/
theorem bind {S : Reader → Prop} {P : α × {s // S s} → Prop} {x : Except ε (α × {s // S s})}
    {f : α × {s // S s} → Except ε β} (hx : Yields P x)
    (hf : ∀ a s (h : S s), P (a, ⟨s, h⟩) → Yields Q (f (a, ⟨s, h⟩))) : Yields Q (x >>= f) := by
  intro b hb
  cases x with
  | error e => cases hb
  | ok a =>
    obtain ⟨a, s, h⟩ := a
    exact hf a s h (hx _ rfl) b hb

theorem after {S : Reader → Prop} {x : Except ε (α × {s // S s})}
    {f : α × {s // S s} → Except ε β} (hf : ∀ a s (h : S s), Yields Q (f (a, ⟨s, h⟩))) :
    Yields Q (x >>= f) :=
  bind (fun _ _ => trivial : Yields (fun _ => True) x) fun a s h _ => hf a s h

end Yields

namespace Reader

/-- The parser's shapes, for every parsing function on every reader shorter than `n`. -/
structure ShapedBelow (n : Nat) : Prop where
  primary : ∀ r : Reader, r.toks.length < n → Yields (fun p => p.1.shaped) r.primary
  links : ∀ r : Reader, r.toks.length < n → ∀ acc : Array Link, Link.allShaped acc.toList →
    Yields (fun p => Link.allShaped p.1) (r.links acc)
  chain : ∀ r : Reader, r.toks.length < n → Yields (fun p => p.1.shaped) r.chain
  expr : ∀ r : Reader, r.toks.length < n → Yields (fun p => p.1.shaped) r.expr
  exprListTail : ∀ r : Reader, r.toks.length < n → ∀ acc : Array Expr,
    Expr.allShaped acc.toList → Yields (fun p => Expr.allShaped p.1) (r.exprListTail acc)
  exprList : ∀ r : Reader, r.toks.length < n → ∀ closing,
    Yields (fun p => Expr.allShaped p.1) (r.exprList closing)
  dictEntries : ∀ r : Reader, r.toks.length < n → ∀ acc : Array (String × Expr),
    Expr.entriesShaped acc.toList → Yields (fun p => Expr.entriesShaped p.1) (r.dictEntries acc)
  elifs : ∀ r : Reader, r.toks.length < n → ∀ acc : Array Branch,
    acc.toList.all Branch.isElif → Branch.allShaped acc.toList →
    Yields (fun p => Branch.ordered p.1 ∧ Branch.allShaped p.1) (r.elifs acc)
  block : ∀ r : Reader, r.toks.length < n → Yields (fun p => Stmt.allShaped p.1) r.block
  stmt : ∀ r : Reader, r.toks.length < n → Yields (fun p => p.1.shaped) r.stmt
  stmtsUntilBrace : ∀ r : Reader, r.toks.length < n → ∀ acc : Array Stmt,
    Stmt.allShaped acc.toList → Yields (fun p => Stmt.allShaped p.1) (r.stmtsUntilBrace acc)

namespace ShapedBelow

theorem zero : ShapedBelow 0 := by
  constructor <;> intro r hr <;> cases hr

variable {n : Nat} (ih : ShapedBelow n)
include ih

theorem primary_succ (r : Reader) (hr : r.toks.length < n + 1) :
    Yields (fun p => p.1.shaped) r.primary := by
  unfold Reader.primary
  dsimp only
  split
  · -- `lightmatch` before a primary
    refine Yields.after fun _ r1 h1 => ?_
    refine Yields.bind (ih.primary r1 (by omega)) fun e r2 h2 he => ?_
    exact Yields.pure he
  · exact Yields.after fun _ _ _ => Yields.pure rfl
  · refine Yields.after fun _ _ _ => ?_
    split
    · exact Yields.pure rfl
    · exact Yields.error
  · exact Yields.after fun _ _ _ => Yields.pure rfl
  · exact Yields.after fun _ _ _ => Yields.pure rfl
  · exact Yields.after fun _ _ _ => Yields.pure rfl
  · -- a minus negates a chain
    refine Yields.after fun _ r1 h1 => ?_
    refine Yields.bind (ih.chain r1 (by omega)) fun e r2 h2 he => ?_
    exact Yields.pure he
  · -- a function literal: its body is a block
    refine Yields.after fun _ r1 h1 => ?_
    dsimp only
    refine Yields.after fun _ r2 h2 => ?_
    dsimp only
    refine Yields.after fun _ r3 h3 => ?_
    dsimp only
    refine Yields.after fun _ r4 h4 => ?_
    dsimp only
    refine Yields.bind (ih.block r4 (by omega)) fun body r5 h5 hb => ?_
    exact Yields.pure hb
  · refine Yields.after fun _ r1 h1 => ?_
    refine Yields.bind (ih.expr r1 (by omega)) fun e r2 h2 he => ?_
    exact Yields.after fun _ _ _ => Yields.pure he
  · refine Yields.after fun _ r1 h1 => ?_
    refine Yields.bind (ih.exprList r1 (by omega) _) fun items r2 h2 hi => ?_
    exact Yields.after fun _ _ _ => Yields.pure hi
  · refine Yields.after fun _ r1 h1 => ?_
    refine Yields.bind (ih.dictEntries r1 (by omega) #[] rfl) fun entries r2 h2 he => ?_
    exact Yields.after fun _ _ _ => Yields.pure he
  · split <;> exact Yields.error
  · exact Yields.error

theorem links_succ (r : Reader) (hr : r.toks.length < n + 1) (acc : Array Link)
    (hacc : Link.allShaped acc.toList) :
    Yields (fun p => Link.allShaped p.1) (r.links acc) := by
  unfold Reader.links
  dsimp only
  split
  · split
    · refine Yields.after fun _ r1 h1 => ?_
      dsimp only
      refine Yields.bind (ih.exprList r1 (by omega) _) fun args r2 h2 ha => ?_
      dsimp only
      refine Yields.after fun _ r3 h3 => ?_
      dsimp only
      refine Yields.bind (ih.links r3 (by omega) _ ?_) fun rest r4 h4 hrest => ?_
      · simp [Link.allShaped, Link.shaped, hacc, ha]
      · exact Yields.pure hrest
    · exact Yields.pure hacc
  · split
    · refine Yields.after fun _ r1 h1 => ?_
      dsimp only
      refine Yields.bind (ih.expr r1 (by omega)) fun key r2 h2 hk => ?_
      dsimp only
      refine Yields.after fun _ r3 h3 => ?_
      dsimp only
      refine Yields.bind (ih.links r3 (by omega) _ ?_) fun rest r4 h4 hrest => ?_
      · simp [Link.allShaped, Link.shaped, hacc, hk]
      · exact Yields.pure hrest
    · exact Yields.pure hacc
  · refine Yields.after fun _ r1 h1 => ?_
    dsimp only
    refine Yields.after fun _ r2 h2 => ?_
    dsimp only
    refine Yields.bind (ih.links r2 (by omega) _ ?_) fun rest r3 h3 hrest => ?_
    · simp [Link.allShaped, Link.shaped, hacc]
    · exact Yields.pure hrest
  · exact Yields.pure hacc

theorem chain_succ
    (primary : ∀ r : Reader, r.toks.length < n + 1 → Yields (fun p => p.1.shaped) r.primary)
    (r : Reader) (hr : r.toks.length < n + 1) : Yields (fun p => p.1.shaped) r.chain := by
  unfold Reader.chain
  refine Yields.bind (primary r hr) fun e r1 h1 he => ?_
  dsimp only
  refine Yields.bind (ih.links r1 (by omega) #[] rfl) fun ls r2 h2 hls => ?_
  exact Yields.pure (chainOf_shaped he hls)

theorem expr_succ
    (chain : ∀ r : Reader, r.toks.length < n + 1 → Yields (fun p => p.1.shaped) r.chain)
    (r : Reader) (hr : r.toks.length < n + 1) : Yields (fun p => p.1.shaped) r.expr := by
  unfold Reader.expr
  refine Yields.bind (chain r hr) fun lhs r1 h1 hl => ?_
  dsimp only
  split
  · refine Yields.after fun _ r2 h2 => ?_
    dsimp only
    refine Yields.bind (ih.expr r2 (by omega)) fun rhs r3 h3 hrhs => ?_
    exact Yields.pure (by simp [Expr.shaped, hl, hrhs])
  · exact Yields.pure hl

theorem exprListTail_succ (r : Reader) (hr : r.toks.length < n + 1) (acc : Array Expr)
    (hacc : Expr.allShaped acc.toList) :
    Yields (fun p => Expr.allShaped p.1) (r.exprListTail acc) := by
  unfold Reader.exprListTail
  split
  · refine Yields.after fun _ r1 h1 => ?_
    dsimp only
    refine Yields.bind (ih.expr r1 (by omega)) fun e r2 h2 he => ?_
    dsimp only
    refine Yields.bind (ih.exprListTail r2 (by omega) _ ?_) fun rest r3 h3 hrest => ?_
    · simp [Expr.allShaped, hacc, he]
    · exact Yields.pure hrest
  · exact Yields.pure hacc

theorem exprList_succ
    (expr : ∀ r : Reader, r.toks.length < n + 1 → Yields (fun p => p.1.shaped) r.expr)
    (r : Reader) (hr : r.toks.length < n + 1) (closing : TokenKind) :
    Yields (fun p => Expr.allShaped p.1) (r.exprList closing) := by
  unfold Reader.exprList
  split
  · exact Yields.pure rfl
  · refine Yields.bind (expr r hr) fun e r1 h1 he => ?_
    dsimp only
    refine Yields.bind (ih.exprListTail r1 (by omega) _ ?_) fun rest r2 h2 hrest => ?_
    · simp [Expr.allShaped, he]
    · exact Yields.pure hrest

theorem dictEntries_succ (r : Reader) (hr : r.toks.length < n + 1) (acc : Array (String × Expr))
    (hacc : Expr.entriesShaped acc.toList) :
    Yields (fun p => Expr.entriesShaped p.1) (r.dictEntries acc) := by
  unfold Reader.dictEntries
  split
  · exact Yields.pure hacc
  · refine Yields.after fun key r1 h1 => ?_
    dsimp only
    refine Yields.after fun _ r2 h2 => ?_
    dsimp only
    refine Yields.bind (ih.expr r2 (by omega)) fun value r3 h3 hv => ?_
    have hacc' : Expr.entriesShaped (acc.push (key.text, value)).toList := by
      simp [Expr.entriesShaped, hacc, hv]
    dsimp only
    split
    · exact Yields.pure hacc'
    · refine Yields.after fun _ r4 h4 => ?_
      dsimp only
      refine Yields.bind (ih.dictEntries r4 (by omega) _ hacc') fun rest r5 h5 hrest => ?_
      exact Yields.pure hrest

theorem elifs_succ (r : Reader) (hr : r.toks.length < n + 1) (acc : Array Branch)
    (helif : acc.toList.all Branch.isElif) (hacc : Branch.allShaped acc.toList) :
    Yields (fun p => Branch.ordered p.1 ∧ Branch.allShaped p.1) (r.elifs acc) := by
  unfold Reader.elifs
  split
  · refine Yields.after fun _ r1 h1 => ?_
    dsimp only
    refine Yields.bind (ih.expr r1 (by omega)) fun test r2 h2 ht => ?_
    dsimp only
    refine Yields.bind (ih.block r2 (by omega)) fun body r3 h3 hb => ?_
    dsimp only
    refine Yields.bind (ih.elifs r3 (by omega) _ ?_ ?_) fun rest r4 h4 hrest => ?_
    · simp [Branch.isElif, helif]
    · simp [Branch.allShaped, Branch.shaped, hacc, ht, hb]
    · exact Yields.pure hrest
  · refine Yields.after fun _ r1 h1 => ?_
    dsimp only
    refine Yields.bind (ih.block r1 (by omega)) fun body r2 h2 hb => ?_
    refine Yields.pure ⟨?_, ?_⟩
    · simpa using (Branch.ordered_of_elifs helif).2 body
    · simp [Branch.allShaped, Branch.shaped, hacc, hb]
  · exact Yields.pure ⟨(Branch.ordered_of_elifs helif).1, hacc⟩

theorem block_succ (r : Reader) (hr : r.toks.length < n + 1) :
    Yields (fun p => Stmt.allShaped p.1) r.block := by
  unfold Reader.block
  refine Yields.after fun _ r1 h1 => ?_
  dsimp only
  refine Yields.bind (ih.stmtsUntilBrace r1 (by omega) #[] rfl) fun body r2 h2 hb => ?_
  exact Yields.after fun _ _ _ => Yields.pure hb

theorem stmt_succ
    (expr : ∀ r : Reader, r.toks.length < n + 1 → Yields (fun p => p.1.shaped) r.expr)
    (r : Reader) (hr : r.toks.length < n + 1) : Yields (fun p => p.1.shaped) r.stmt := by
  unfold Reader.stmt
  split
  · -- a variable
    refine Yields.after fun _ r1 h1 => ?_
    dsimp only
    refine Yields.after fun _ r2 h2 => ?_
    dsimp only
    refine Yields.after fun _ r3 h3 => ?_
    dsimp only
    refine Yields.bind (expr r3 (by omega)) fun e r4 h4 he => ?_
    exact Yields.pure he
  · split
    · -- a named function
      refine Yields.after fun _ r1 h1 => ?_
      dsimp only
      refine Yields.after fun _ r2 h2 => ?_
      dsimp only
      refine Yields.after fun _ r3 h3 => ?_
      dsimp only
      refine Yields.after fun _ r4 h4 => ?_
      dsimp only
      refine Yields.after fun _ r5 h5 => ?_
      dsimp only
      refine Yields.bind (ih.block r5 (by omega)) fun body r6 h6 hb => ?_
      exact Yields.pure hb
    · refine Yields.bind (expr r hr) fun e r1 h1 he => ?_
      exact Yields.pure he
  · refine Yields.after fun _ r1 h1 => ?_
    dsimp only
    refine Yields.bind (expr r1 (by omega)) fun e r2 h2 he => ?_
    exact Yields.pure he
  · -- a conditional
    refine Yields.after fun _ r1 h1 => ?_
    dsimp only
    refine Yields.bind (expr r1 (by omega)) fun test r2 h2 ht => ?_
    dsimp only
    refine Yields.bind (ih.block r2 (by omega)) fun body r3 h3 hb => ?_
    dsimp only
    refine Yields.bind (ih.elifs r3 (by omega) #[] rfl rfl) fun bs r4 h4 hbs => ?_
    exact Yields.pure (by simp [Stmt.shaped, ht, hb, hbs.1, hbs.2])
  · refine Yields.after fun _ r1 h1 => ?_
    dsimp only
    refine Yields.bind (expr r1 (by omega)) fun test r2 h2 ht => ?_
    dsimp only
    refine Yields.bind (ih.block r2 (by omega)) fun body r3 h3 hb => ?_
    exact Yields.pure (by simp [Stmt.shaped, ht, hb])
  · -- a `for` range: exactly two bounds
    refine Yields.after fun _ r1 h1 => ?_
    dsimp only
    refine Yields.after fun _ r2 h2 => ?_
    dsimp only
    refine Yields.after fun _ r3 h3 => ?_
    dsimp only
    refine Yields.after fun _ r4 h4 => ?_
    dsimp only
    refine Yields.bind (ih.exprList r4 (by omega) _) fun bounds r5 h5 hbounds => ?_
    dsimp only
    refine Yields.after fun _ r6 h6 => ?_
    dsimp only
    split
    · refine Yields.bind (ih.block r6 (by omega)) fun body r7 h7 hb => ?_
      simp only [Expr.allShaped, Bool.and_true, Bool.and_eq_true] at hbounds
      exact Yields.pure (by simp [Stmt.shaped, hbounds.1, hbounds.2, hb])
    · exact Yields.error
  · refine Yields.bind (expr r hr) fun e r1 h1 he => ?_
    exact Yields.pure he

theorem stmtsUntilBrace_succ
    (stmt : ∀ r : Reader, r.toks.length < n + 1 → Yields (fun p => p.1.shaped) r.stmt)
    (r : Reader) (hr : r.toks.length < n + 1) (acc : Array Stmt)
    (hacc : Stmt.allShaped acc.toList) :
    Yields (fun p => Stmt.allShaped p.1) (r.stmtsUntilBrace acc) := by
  unfold Reader.stmtsUntilBrace
  split
  · exact Yields.pure hacc
  · refine Yields.bind (stmt r hr) fun s r1 h1 hs => ?_
    dsimp only
    refine Yields.bind (ih.stmtsUntilBrace r1 (by omega) _ ?_) fun rest r2 h2 hrest => ?_
    · simp [Stmt.allShaped, hacc, hs]
    · exact Yields.pure hrest

/-- One more token of length: each function at length `n` uses the functions it calls on
shorter readers, and on the same reader only those of lower rank, proved first. -/
theorem succ : ShapedBelow (n + 1) :=
  have primary := ih.primary_succ
  have chain := ih.chain_succ primary
  have expr := ih.expr_succ chain
  have stmt := ih.stmt_succ expr
  { primary, chain, expr, stmt
    links := ih.links_succ
    exprListTail := ih.exprListTail_succ
    exprList := ih.exprList_succ expr
    dictEntries := ih.dictEntries_succ
    elifs := ih.elifs_succ
    block := ih.block_succ
    stmtsUntilBrace := ih.stmtsUntilBrace_succ stmt }

end ShapedBelow

theorem shapedBelow : ∀ n, ShapedBelow n
  | 0 => ShapedBelow.zero
  | n + 1 => (shapedBelow n).succ

theorem stmtsToEnd_shaped (r : Reader) (acc : Array Stmt) (hacc : Stmt.allShaped acc.toList) :
    Yields (fun p => Stmt.allShaped p) (r.stmtsToEnd acc) := by
  rw [Reader.stmtsToEnd]
  split
  · exact Yields.pure hacc
  · refine Yields.bind ((shapedBelow _).stmt r (Nat.lt_succ_self _)) fun s r1 h1 hs => ?_
    exact stmtsToEnd_shaped r1 _ (by simp [Stmt.allShaped, hacc, hs])
termination_by r.toks.length

end Reader

/-- Every program the parser gives has the parser's shape. -/
theorem parse_shaped {toks : List Token} {prog : List Stmt} (h : parse toks = .ok prog) :
    Stmt.allShaped prog :=
  Reader.stmtsToEnd_shaped _ #[] rfl prog h

end Arson.Syntax
