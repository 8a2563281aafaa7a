import Arson.Proofs.Eval.Call
/-!
# More fuel keeps a finished answer

Every evaluation function counts its steps against its fuel. A run that finishes, with a value or
a fault and not for want of fuel, finishes the same way when it is given more fuel, and when it
starts on a machine that differs only in the events shown to a tracer: evaluation never reads
them. So the fuel is only a bound on the steps a run may take, and two computations are compared
by how they finish (`Outlasts`): wherever the first finishes, the second, started on a machine
alike, finishes with the same value or the same fault, on a machine alike.

The proof is one induction on the fuel over all the evaluation functions at once (`Outlasting`),
as for `OrderBlind`: each primitive of the machine has a rule, and each evaluation function a
`_succ` lemma built from the rules and the functions it calls with one unit of fuel less.
-/
namespace Arson.Eval

open Arson.Syntax

/-! ### Machines alike but for their events -/

/-- Two machines alike in everything a program can see or a later step can read: all but the
events shown to a tracer. -/
structure Machine.Alike (m m' : Machine) : Prop where
  env : m.env = m'.env
  heap : m.heap = m'.heap
  output : m.output = m'.output
  input : m.input = m'.input
  stack : m.stack = m'.stack
  draws : m.draws = m'.draws
  drawn : m.drawn = m'.drawn
  tracing : m.tracing = m'.tracing

namespace Machine.Alike

variable {m m' : Machine}

theorem refl (m : Machine) : m.Alike m := ⟨rfl, rfl, rfl, rfl, rfl, rfl, rfl, rfl⟩

theorem symm (h : m.Alike m') : m'.Alike m :=
  ⟨h.env.symm, h.heap.symm, h.output.symm, h.input.symm, h.stack.symm, h.draws.symm,
    h.drawn.symm, h.tracing.symm⟩

theorem trans {m'' : Machine} (h : m.Alike m') (h' : m'.Alike m'') : m.Alike m'' :=
  ⟨h.env.trans h'.env, h.heap.trans h'.heap, h.output.trans h'.output, h.input.trans h'.input,
    h.stack.trans h'.stack, h.draws.trans h'.draws, h.drawn.trans h'.drawn,
    h.tracing.trans h'.tracing⟩

theorem emitted (hm : m.Alike m') (ev ev' : Event) :
    (exec (emit ev) m).2.Alike (exec (emit ev') m').2 := by
  simp only [emit, exec_modify]
  by_cases ht : m.tracing = true
  · rw [if_pos ht, if_pos (hm.tracing ▸ ht)]
    exact { hm with }
  · rw [if_neg ht, if_neg (hm.tracing ▸ ht)]
    exact hm

/-- A tracer sees nothing a program can: recording an event leaves a machine alike. -/
theorem of_emit (m : Machine) (ev : Event) : (exec (emit ev) m).2.Alike m := by
  simp only [emit, exec_modify]
  split
  · exact { refl m with }
  · exact refl m

theorem callStart (hm : m.Alike m') (r : Ref) (c : Closure) (args : List Value) :
    (Eval.callStart m r c args).Alike (Eval.callStart m' r c args) := by
  have hpushed : Machine.Alike { m with stack := m.stack ++ [c.label] }
      { m' with stack := m'.stack ++ [c.label] } :=
    { hm with stack := by rw [hm.stack] }
  have hemit := hpushed.emitted (.functionCall c.label (m.stack ++ [c.label]).length)
    (.functionCall c.label (m'.stack ++ [c.label]).length)
  exact { hemit with env := rfl }

end Machine.Alike

/-! ### Comparing how two computations finish -/

/-- Two outcomes alike: values related by `V`, or one stop, on machines alike. -/
def Finished {α : Type} (V : α → α → Prop) :
    Except Stop α × Machine → Except Stop α × Machine → Prop
  | (.ok a, m), (.ok b, m') => V a b ∧ m.Alike m'
  | (.error e, m), (.error e', m') => e = e' ∧ m.Alike m'
  | _, _ => False

theorem Finished.eq {α : Type} {o o' : Except Stop α × Machine} (h : Finished Eq o o') :
    o.1 = o'.1 ∧ o.2.Alike o'.2 := by
  rcases o with ⟨_ | _, _⟩ <;> rcases o' with ⟨_ | _, _⟩
  · exact ⟨by rw [h.1], h.2⟩
  · exact h.elim
  · exact h.elim
  · exact ⟨by rw [h.1], h.2⟩

/-- Wherever `x` finishes without running out of fuel, `y`, started on a machine alike, finishes
alike, with values related by `V`. -/
def Outlasts {α : Type} (V : α → α → Prop) (x y : EvalM α) : Prop :=
  ∀ m m', m.Alike m' → (exec x m).1 ≠ .error .outOfFuel → Finished V (exec x m) (exec y m')

/-- `x` finishes alike from machines alike: it reads nothing a tracer was shown. -/
abbrev Steady {α : Type} (x : EvalM α) : Prop := Outlasts Eq x x

theorem exec_bind_error {α β : Type} {x : EvalM α} {f : α → EvalM β} {m m₁ : Machine}
    {e : Stop} (hx : exec x m = (.error e, m₁)) : exec (x >>= f) m = (.error e, m₁) := by
  rw [exec_bind, hx]

theorem exec_bind_ok {α β : Type} {x : EvalM α} {f : α → EvalM β} {m m₁ : Machine} {a : α}
    (hx : exec x m = (.ok a, m₁)) : exec (x >>= f) m = exec (f a) m₁ := by
  rw [exec_bind, hx]

namespace Outlasts

variable {α β : Type} {V : α → α → Prop} {W : β → β → Prop}

theorem pure {a b : α} (h : V a b) : Outlasts V (Pure.pure a) (Pure.pure b) := fun _ _ hm _ => by
  rw [exec_pure, exec_pure]
  exact ⟨h, hm⟩

theorem throw (e : Stop) : Outlasts V (MonadExcept.throw e : EvalM α) (MonadExcept.throw e) :=
  fun _ _ hm _ => by
    rw [exec_throw, exec_throw]
    exact ⟨rfl, hm⟩

theorem outOfFuel (y : EvalM α) : Outlasts V (MonadExcept.throw .outOfFuel) y :=
  fun _ _ _ hfin => absurd (by rw [exec_throw]) hfin

theorem raise (c : Cause) : Outlasts V (Eval.raise c : EvalM α) (Eval.raise c) := throw _

theorem bind {x y : EvalM α} {f g : α → EvalM β} (hxy : Outlasts V x y)
    (hfg : ∀ a b, V a b → Outlasts W (f a) (g b)) : Outlasts W (x >>= f) (y >>= g) := by
  intro m m' hm hfin
  rcases hx : exec x m with ⟨e | a, m₁⟩
  · -- `x` stops, not for want of fuel, so `y` stops alike
    rw [exec_bind_error hx] at hfin ⊢
    have he : e ≠ .outOfFuel := fun h' => hfin (by subst h'; rfl)
    have h := hxy m m' hm (by rw [hx]; exact fun h' => he (Except.error.inj h'))
    rw [hx] at h
    rcases hy : exec y m' with ⟨e' | b, m₁'⟩ <;> rw [hy] at h
    · rw [exec_bind_error hy]
      exact h
    · exact h.elim
  · rw [exec_bind_ok hx] at hfin ⊢
    have h := hxy m m' hm (by rw [hx]; exact nofun)
    rw [hx] at h
    rcases hy : exec y m' with ⟨e' | b, m₁'⟩ <;> rw [hy] at h
    · exact h.elim
    · rw [exec_bind_ok hy]
      exact hfg a b h.1 m₁ m₁' h.2 hfin

theorem bind_eq {x y : EvalM α} {f g : α → EvalM β} (hxy : Outlasts Eq x y)
    (hfg : ∀ a, Outlasts W (f a) (g a)) : Outlasts W (x >>= f) (y >>= g) :=
  hxy.bind fun a _ hab => hab ▸ hfg a

theorem ite {c : Prop} [Decidable c] {x x' y y' : EvalM α} (hx : c → Outlasts V x x')
    (hy : ¬c → Outlasts V y y') : Outlasts V (if c then x else y) (if c then x' else y') := by
  by_cases hc : c
  · rw [if_pos hc, if_pos hc]
    exact hx hc
  · rw [if_neg hc, if_neg hc]
    exact hy hc

theorem emit_left {x y : EvalM α} (hxy : Outlasts V x y) (ev : Event) :
    Outlasts V (emit ev >>= fun _ => x) y := fun m m' hm hfin => by
  rw [exec_bind_ok (rfl : exec (emit ev) m = (.ok (), (exec (emit ev) m).2))] at hfin ⊢
  exact hxy _ m' ((Machine.Alike.of_emit m ev).trans hm) hfin

theorem emit_right {x y : EvalM α} (hxy : Outlasts V x y) (ev : Event) :
    Outlasts V x (emit ev >>= fun _ => y) := fun m m' hm hfin => by
  rw [exec_bind_ok (rfl : exec (emit ev) m' = (.ok (), (exec (emit ev) m').2))]
  exact hxy m _ (hm.trans (Machine.Alike.of_emit m' ev).symm) hfin

/-! ### The primitives of the machine -/

theorem get : Outlasts Machine.Alike get get := fun m m' hm _ => by
  rw [exec_get, exec_get]
  exact ⟨hm, hm⟩

theorem modify {g g' : Machine → Machine} (hg : ∀ m m', m.Alike m' → (g m).Alike (g' m')) :
    Outlasts Eq (modify g) (modify g') := fun m m' hm _ => by
  rw [exec_modify, exec_modify]
  exact ⟨rfl, hg m m' hm⟩

theorem set {s s' : Machine} (h : s.Alike s') : Outlasts Eq (set s : EvalM Unit) (set s') :=
  fun _ _ _ _ => by
    rw [exec_set, exec_set]
    exact ⟨rfl, h⟩

theorem modifyGet {g g' : Machine → β × Machine}
    (hg : ∀ m m', m.Alike m' → W (g m).1 (g' m').1 ∧ (g m).2.Alike (g' m').2) :
    Outlasts W (modifyGet g) (modifyGet g') := fun m m' hm _ => by
  rw [exec_modifyGet, exec_modifyGet]
  exact hg m m' hm

theorem orRaise (e : Except Cause α) : Steady (Eval.orRaise e) := by
  cases e with
  | ok a => exact pure rfl
  | error c => exact raise c

theorem heap : Steady heap := get.bind fun _ _ hm => pure hm.heap

theorem truthy (v : Value) : Steady (Eval.truthy v) :=
  heap.bind_eq fun _ => pure rfl

theorem emit (ev : Event) : Steady (Eval.emit ev) := modify fun _ _ hm => hm.emitted ev ev

theorem write (s : String) : Steady (Eval.write s) :=
  modify fun _ _ hm => { hm with output := by rw [hm.output] }

theorem readLine : Steady Eval.readLine := modifyGet fun m m' hm => by
  rw [show splitLine m.input = splitLine m'.input by rw [hm.input]]
  exact ⟨rfl, { hm with input := rfl }⟩

theorem draw (lo hi : Int) : Steady (Eval.draw lo hi) := modifyGet fun m m' hm => by
  refine ⟨?_, { hm with drawn := ?_ }⟩
  · show m.draws.pick m.drawn lo hi = m'.draws.pick m'.drawn lo hi
    rw [hm.draws, hm.drawn]
  · show m.drawn + 1 = m'.drawn + 1
    rw [hm.drawn]

theorem defineVar (name : String) (v : Value) : Steady (Eval.defineVar name v) :=
  modify fun _ _ hm => { hm with env := by rw [hm.env] }

theorem alloc (c : Cell) : Steady (Eval.alloc c) :=
  modifyGet fun _ _ hm => ⟨by rw [hm.heap], { hm with heap := by rw [hm.heap] }⟩

theorem onHeap (f : Heap → Except Cause (Heap × α)) : Steady (Eval.onHeap f) := by
  refine get.bind fun m m' hm => ?_
  rw [hm.heap]
  split
  · refine (set ?_).bind_eq fun _ => pure rfl
    exact { hm with heap := rfl }
  · exact raise _

theorem lookup (name : String) : Steady (Eval.lookup name) := by
  refine get.bind fun m m' hm => ?_
  rw [hm.env]
  split
  · exact pure rfl
  · split
    · exact pure rfl
    · exact throw _

theorem runBuiltin (b : Builtin) (args : List Value) : Steady (Eval.runBuiltin b args) := by
  cases b <;> simp only [Eval.runBuiltin]
  case fire => exact heap.bind_eq fun _ => (write _).bind_eq fun _ => pure rfl
  case load =>
    refine (orRaise _).bind_eq fun _ => ?_
    split
    · exact (write _).bind_eq fun _ => readLine.bind_eq fun _ => pure rfl
    · exact raise _
  case random =>
    refine (orRaise _).bind_eq fun _ => (orRaise _).bind_eq fun lo => ?_
    refine (orRaise _).bind_eq fun hi => ?_
    exact ite (fun _ => raise _) fun _ => (draw lo hi).bind_eq fun _ => pure rfl
  case int | float => exact (orRaise _).bind_eq fun _ => orRaise _
  case str | bool => exact (orRaise _).bind_eq fun _ => heap.bind_eq fun _ => pure rfl

theorem callBuiltin (name : String) (args : List Value) : Steady (Eval.callBuiltin name args) := by
  unfold Eval.callBuiltin
  split
  · exact runBuiltin _ args
  · exact raise _

end Outlasts

/-! ### Calls -/

/-- What two calls give back once their bodies have finished alike: the callers' environments put
back, one name popped, and faults given the same stack as help. -/
theorem Finished.callResult {b b' : Except Stop Flow × Machine} (h : Finished Eq b b')
    {env env' : Env} (henv : env = env') :
    Finished Eq (callResult b.2.stack b.1, { b.2 with env := env, stack := b.2.stack.dropLast })
      (callResult b'.2.stack b'.1, { b'.2 with env := env', stack := b'.2.stack.dropLast }) := by
  obtain ⟨hres, hm⟩ := h.eq
  rw [hres, show b.2.stack = b'.2.stack from hm.stack]
  have hback : Machine.Alike { b.2 with env := env, stack := b'.2.stack.dropLast }
      { b'.2 with env := env', stack := b'.2.stack.dropLast } :=
    { hm with env := henv, stack := rfl }
  -- each outcome of the body, a value or a stop, is given back as one result
  rcases b'.1 with (_ | _) | (_ | _) <;> exact ⟨rfl, hback⟩

/-! ### Every evaluation function -/

/-- Every evaluation function at fuel `n` is outlasted by itself at fuel `k`. -/
structure Outlasting (n k : Nat) : Prop where
  expr : ∀ e, Outlasts Eq (evalExpr n e) (evalExpr k e)
  list : ∀ es, Outlasts Eq (evalList n es) (evalList k es)
  entries : ∀ es acc, Outlasts Eq (evalEntries n es acc) (evalEntries k es acc)
  links : ∀ v ls, Outlasts Eq (evalLinks n v ls) (evalLinks k v ls)
  call : ∀ f args, Outlasts Eq (callValue n f args) (callValue k f args)
  closure : ∀ r c args, Outlasts Eq (callClosure n r c args) (callClosure k r c args)
  block : ∀ ss, Outlasts Eq (evalBlock n ss) (evalBlock k ss)
  stmt : ∀ s, Outlasts Eq (evalStmt n s) (evalStmt k s)
  branches : ∀ bs, Outlasts Eq (evalBranches n bs) (evalBranches k bs)
  loop : ∀ t b, Outlasts Eq (runWhile n t b) (runWhile k t b)
  range : ∀ x i j b, Outlasts Eq (runFor n x i j b) (runFor k x i j b)

namespace Outlasting

variable {n k : Nat} (ih : Outlasting n k)
include ih

theorem expr_succ (e : Expr) : Outlasts Eq (evalExpr (n + 1) e) (evalExpr (k + 1) e) := by
  cases e with
  | ident name => simp only [evalExpr]; exact Outlasts.lookup name
  | number x => simp only [evalExpr]; exact Outlasts.pure rfl
  | str s => simp only [evalExpr]; exact Outlasts.pure rfl
  | bool b => simp only [evalExpr]; exact Outlasts.pure rfl
  | negate inner =>
    simp only [evalExpr]
    refine (ih.expr inner).bind_eq fun v => ?_
    split
    · exact Outlasts.pure rfl
    · exact Outlasts.raise _
  | binOp lhs op rhs =>
    cases op
    case and =>
      simp only [evalExpr]
      exact (ih.expr lhs).bind_eq fun _ => (Outlasts.truthy _).bind_eq fun _ =>
        Outlasts.ite (fun _ => ih.expr rhs) fun _ => Outlasts.pure rfl
    case or =>
      simp only [evalExpr]
      exact (ih.expr lhs).bind_eq fun _ => (Outlasts.truthy _).bind_eq fun _ =>
        Outlasts.ite (fun _ => Outlasts.pure rfl) fun _ => ih.expr rhs
    case assign =>
      simp only [evalExpr]
      split
      · exact (ih.expr rhs).bind_eq fun _ =>
          (Outlasts.defineVar _ _).bind_eq fun _ => Outlasts.pure rfl
      · exact Outlasts.raise _
    all_goals
      simp only [evalExpr]
      exact (ih.expr lhs).bind_eq fun _ => (ih.expr rhs).bind_eq fun _ => Outlasts.onHeap _
  | call callee args =>
    simp only [evalExpr]
    exact (ih.expr callee).bind_eq fun _ => (ih.list args).bind_eq fun _ => ih.call _ _
  | array items =>
    simp only [evalExpr]
    exact (ih.list items).bind_eq fun _ => (Outlasts.alloc _).bind_eq fun _ => Outlasts.pure rfl
  | dict entries =>
    simp only [evalExpr]
    exact (ih.entries entries []).bind_eq fun _ =>
      (Outlasts.alloc _).bind_eq fun _ => Outlasts.pure rfl
  | lambda params body =>
    -- the new function keeps the environment of each machine, which is the same
    simp only [evalExpr]
    refine Outlasts.get.bind fun _ _ hm => ?_
    rw [hm.env]
    exact (Outlasts.alloc _).bind_eq fun _ => Outlasts.pure rfl
  | chain receiver links =>
    simp only [evalExpr]
    exact (ih.expr receiver).bind_eq fun _ => ih.links _ links

theorem list_succ (es : List Expr) : Outlasts Eq (evalList (n + 1) es) (evalList (k + 1) es) := by
  cases es with
  | nil => simp only [evalList]; exact Outlasts.pure rfl
  | cons e rest =>
    simp only [evalList]
    exact (ih.expr e).bind_eq fun _ => (ih.list rest).bind_eq fun _ => Outlasts.pure rfl

theorem entries_succ (es : List (String × Expr)) (acc : Entries) :
    Outlasts Eq (evalEntries (n + 1) es acc) (evalEntries (k + 1) es acc) := by
  cases es with
  | nil => simp only [evalEntries]; exact Outlasts.pure rfl
  | cons entry rest =>
    simp only [evalEntries]
    exact (ih.expr entry.2).bind_eq fun _ => ih.entries rest _

theorem links_succ (cur : Value) (ls : List Link) :
    Outlasts Eq (evalLinks (n + 1) cur ls) (evalLinks (k + 1) cur ls) := by
  match ls with
  | [] => simp only [evalLinks]; exact Outlasts.pure rfl
  | .call args :: rest =>
    simp only [evalLinks]
    exact (ih.list args).bind_eq fun _ => (ih.call cur _).bind_eq fun _ => ih.links _ rest
  | .index key :: rest =>
    simp only [evalLinks]
    exact (ih.expr key).bind_eq fun _ => Outlasts.heap.bind_eq fun _ =>
      (Outlasts.orRaise _).bind_eq fun _ => ih.links _ rest
  | .attr name :: rest =>
    simp only [evalLinks, pure_bind]
    refine (Outlasts.orRaise _).bind_eq fun _ => ?_
    exact Outlasts.ite
      (fun _ => (Outlasts.emit _).bind_eq fun _ => (ih.call _ _).bind_eq fun _ => ih.links _ rest)
      fun _ => ih.links _ rest

theorem call_succ (f : Value) (args : List Value) :
    Outlasts Eq (callValue (n + 1) f args) (callValue (k + 1) f args) := by
  cases f with
  | function r =>
    simp only [callValue]
    exact Outlasts.heap.bind_eq fun _ => ih.closure r _ args
  | builtin name =>
    simp only [callValue]
    exact (Outlasts.emit _).bind_eq fun _ => Outlasts.callBuiltin name args
  | method recv name =>
    simp only [callValue]
    exact Outlasts.onHeap _
  | number _ | str _ | bool _ | null | array _ | dict _ =>
    simp only [callValue]
    exact Outlasts.raise _

/-- The call itself: refused alike for its arity or its depth, or its bodies start on machines
alike, one with less fuel; a call that finishes has a body that finishes, and the two give back
alike. -/
theorem closure_succ (r : Ref) (c : Closure) (args : List Value) :
    Outlasts Eq (callClosure (n + 1) r c args) (callClosure (k + 1) r c args) := by
  intro m m' hm hfin
  by_cases harity : args.length = c.params.length
  · by_cases hdepth : m.stack.length < maxDepth
    · have hdepth' : m'.stack.length < maxDepth := hm.stack ▸ hdepth
      rw [exec_callClosure n r c args m harity hdepth] at hfin ⊢
      rw [exec_callClosure k r c args m' harity hdepth']
      have hbody := ih.block c.body _ _ (hm.callStart r c args) fun hout => hfin (by
        simp only [hout]
        rfl)
      exact hbody.callResult hm.env
    · have hdepth' : maxDepth ≤ m'.stack.length := hm.stack ▸ Nat.not_lt.mp hdepth
      rw [exec_callClosure_depth n r c args m harity (Nat.not_lt.mp hdepth),
        exec_callClosure_depth k r c args m' harity hdepth']
      exact ⟨rfl, hm⟩
  · rw [exec_callClosure_arity n r c args m harity, exec_callClosure_arity k r c args m' harity]
    exact ⟨rfl, hm⟩

theorem block_succ (ss : List Stmt) :
    Outlasts Eq (evalBlock (n + 1) ss) (evalBlock (k + 1) ss) := by
  cases ss with
  | nil => simp only [evalBlock]; exact Outlasts.pure rfl
  | cons s rest =>
    simp only [evalBlock]
    refine (ih.stmt s).bind_eq fun flow => ?_
    cases flow with
    | ret v => exact Outlasts.pure rfl
    | normal => exact ih.block rest

theorem stmt_succ (s : Stmt) : Outlasts Eq (evalStmt (n + 1) s) (evalStmt (k + 1) s) := by
  cases s with
  | var name e =>
    simp only [evalStmt]
    exact (ih.expr e).bind_eq fun _ => (Outlasts.defineVar _ _).bind_eq fun _ => Outlasts.pure rfl
  | func name params body =>
    simp only [evalStmt]
    refine Outlasts.get.bind fun _ _ hm => ?_
    rw [hm.env]
    exact (Outlasts.alloc _).bind_eq fun _ =>
      (Outlasts.defineVar _ _).bind_eq fun _ => Outlasts.pure rfl
  | ret e =>
    simp only [evalStmt]
    exact (ih.expr e).bind_eq fun _ => Outlasts.pure rfl
  | ifElse test body branches =>
    simp only [evalStmt]
    exact (ih.expr test).bind_eq fun _ => (Outlasts.truthy _).bind_eq fun _ =>
      Outlasts.ite (fun _ => ih.block body) fun _ => ih.branches branches
  | whileLoop test body =>
    simp only [evalStmt]
    exact ih.loop test body
  | forRange name start stop body =>
    simp only [evalStmt]
    exact (ih.expr start).bind_eq fun _ => (Outlasts.orRaise _).bind_eq fun _ =>
      (ih.expr stop).bind_eq fun _ => (Outlasts.orRaise _).bind_eq fun _ => ih.range name _ _ body
  | expr e =>
    simp only [evalStmt]
    exact (ih.expr e).bind_eq fun _ => Outlasts.pure rfl

theorem branches_succ (bs : List Branch) :
    Outlasts Eq (evalBranches (n + 1) bs) (evalBranches (k + 1) bs) := by
  match bs with
  | [] => simp only [evalBranches]; exact Outlasts.pure rfl
  | .otherwise body :: _ => simp only [evalBranches]; exact ih.block body
  | .elif test body :: rest =>
    simp only [evalBranches]
    exact (ih.expr test).bind_eq fun _ => (Outlasts.truthy _).bind_eq fun _ =>
      Outlasts.ite (fun _ => ih.block body) fun _ => ih.branches rest

theorem loop_succ (test : Expr) (body : List Stmt) :
    Outlasts Eq (runWhile (n + 1) test body) (runWhile (k + 1) test body) := by
  simp only [runWhile]
  refine (ih.expr test).bind_eq fun _ => (Outlasts.truthy _).bind_eq fun _ =>
    Outlasts.ite (fun _ => (ih.block body).bind_eq fun flow => ?_) fun _ => Outlasts.pure rfl
  cases flow with
  | ret v => exact Outlasts.pure rfl
  | normal => exact ih.loop test body

theorem range_succ (name : String) (i stop : Int) (body : List Stmt) :
    Outlasts Eq (runFor (n + 1) name i stop body) (runFor (k + 1) name i stop body) := by
  simp only [runFor]
  refine Outlasts.ite (fun _ => ?_) fun _ => Outlasts.pure rfl
  refine (Outlasts.defineVar _ _).bind_eq fun _ => (ih.block body).bind_eq fun flow => ?_
  cases flow with
  | ret v => exact Outlasts.pure rfl
  | normal => exact ih.range name _ stop body

theorem succ : Outlasting (n + 1) (k + 1) where
  expr := ih.expr_succ
  list := ih.list_succ
  entries := ih.entries_succ
  links := ih.links_succ
  call := ih.call_succ
  closure := ih.closure_succ
  block := ih.block_succ
  stmt := ih.stmt_succ
  branches := ih.branches_succ
  loop := ih.loop_succ
  range := ih.range_succ

end Outlasting

theorem outlasting_zero (k : Nat) : Outlasting 0 k where
  expr _ := by simp only [evalExpr]; exact Outlasts.outOfFuel _
  list _ := by simp only [evalList]; exact Outlasts.outOfFuel _
  entries _ _ := by simp only [evalEntries]; exact Outlasts.outOfFuel _
  links _ _ := by simp only [evalLinks]; exact Outlasts.outOfFuel _
  call _ _ := by simp only [callValue]; exact Outlasts.outOfFuel _
  closure _ _ _ := by simp only [callClosure]; exact Outlasts.outOfFuel _
  block _ := by simp only [evalBlock]; exact Outlasts.outOfFuel _
  stmt _ := by simp only [evalStmt]; exact Outlasts.outOfFuel _
  branches _ := by simp only [evalBranches]; exact Outlasts.outOfFuel _
  loop _ _ := by simp only [runWhile]; exact Outlasts.outOfFuel _
  range _ _ _ _ := by simp only [runFor]; exact Outlasts.outOfFuel _

/-- Whatever finishes at some fuel finishes alike at any fuel above it. -/
theorem outlasting : ∀ n k, n ≤ k → Outlasting n k
  | 0, k, _ => outlasting_zero k
  | n + 1, k + 1, h => (outlasting n k (Nat.le_of_succ_le_succ h)).succ

end Arson.Eval
