import Arson.Proofs.Eval.Call
import Arson.Proofs.Value.Reordered
import Arson.Proofs.Text.Nearest
/-!
# Runs that list their bindings in other orders

A scope lists its bindings in the order they were made, and nothing but the search for a name to
suggest ever reads that order. Started on two machines whose scopes (the machine's and those kept
by its functions) hold the same bindings in other orders, every evaluation function runs in
lockstep: the same value or the same stop, the same output, input, stack, random state and
events, and machines whose bindings again differ at most in order (`orderBlind`). A fault differs
at most in its suggestion, which is the nearest name to the missing one among the same candidates
met in two orders; when one candidate alone is nearest, that is the same name
(`Text.nearest_perm`).

The proof is one induction on the fuel over all the evaluation functions at once, as for
`FrameKept`, with `Lockstep` in place of `Guards`: a relation between two runs of one computation.
-/
namespace Arson.Eval

open Arson.Syntax

/-! ### Faults, stops and machines alike but for order -/

/-- Two faults alike but for the order candidates for a suggestion were met in: one cause, one
help, and the same suggestion or the nearest name to one missing name among one list of
candidates taken in two orders. -/
structure Fault.Reordered (f f' : Fault) : Prop where
  cause : f.cause = f'.cause
  help : f.help = f'.help
  suggestion : f.suggestion = f'.suggestion ∨
    ∃ name cs cs', f.cause = .undefinedName name ∧ cs.Perm cs' ∧
      f.suggestion = Text.nearest name cs ∧ f'.suggestion = Text.nearest name cs'

theorem Fault.Reordered.refl (f : Fault) : f.Reordered f := ⟨rfl, rfl, .inl rfl⟩

theorem Fault.Reordered.within {f f' : Fault} (h : f.Reordered f') (stack : List String) :
    (f.within stack).Reordered (f'.within stack) := by
  unfold Fault.within
  rw [← h.help]
  split
  · exact h
  · exact ⟨h.cause, rfl, h.suggestion⟩

/-- Two stops alike: faults alike, or both for want of fuel. -/
def Stop.Reordered : Stop → Stop → Prop
  | .fault f, .fault f' => f.Reordered f'
  | .outOfFuel, .outOfFuel => True
  | _, _ => False

/-- Two machines alike but for the order of their bindings: reordered environments and heaps, and
the same output, input, call stack, random source and events. -/
structure Machine.Reordered (m m' : Machine) : Prop where
  env : m.env.Reordered m'.env
  heap : m.heap.Reordered m'.heap
  output : m.output = m'.output
  input : m.input = m'.input
  stack : m.stack = m'.stack
  draws : m.draws = m'.draws
  drawn : m.drawn = m'.drawn
  events : m.events = m'.events
  tracing : m.tracing = m'.tracing

/-- Two outcomes of runs on reordered machines: values related by `V`, or stops alike, on
reordered machines. -/
def EndsAlike {α : Type} (V : α → α → Prop) :
    Except Stop α × Machine → Except Stop α × Machine → Prop
  | (.ok a, m), (.ok b, m') => V a b ∧ m.Reordered m'
  | (.error e, m), (.error e', m') => e.Reordered e' ∧ m.Reordered m'
  | _, _ => False

/-- Run on machines alike but for the order of their bindings, `x` and `y` end alike. -/
def Lockstep {α : Type} (V : α → α → Prop) (x y : EvalM α) : Prop :=
  ∀ m m', m.Reordered m' → EndsAlike V (exec x m) (exec y m')

/-- `x` does not see the order of bindings: run on two reordered machines, it gives one value or
stops alike. -/
abbrev Blind {α : Type} (x : EvalM α) : Prop := Lockstep Eq x x

/-- Two results of one step on reordered heaps: one value on reordered heaps, or one fault. -/
def StepReordered {α : Type} : Except Cause (Heap × α) → Except Cause (Heap × α) → Prop
  | .ok (h, a), .ok (h', b) => h.Reordered h' ∧ a = b
  | .error c, .error c' => c = c'
  | _, _ => False

/-! ### The operations on values -/

section Operations

variable {h h' : Heap}

theorem Cell.reordered_array (xs : Array Value) : (Cell.array xs).Reordered (.array xs) := rfl

theorem Cell.reordered_dict (es : Entries) : (Cell.dict es).Reordered (.dict es) := rfl

theorem Closure.Reordered.cell {c c' : Closure} (h : c.Reordered c') :
    (Cell.function c).Reordered (.function c') := h

theorem StepReordered.error {α : Type} (c : Cause) :
    StepReordered (.error c : Except Cause (Heap × α)) (.error c) := rfl

theorem StepReordered.bind {α γ : Type} {x : Except Cause γ} {f g : γ → Except Cause (Heap × α)}
    (hfg : ∀ a, StepReordered (f a) (g a)) : StepReordered (x >>= f) (x >>= g) := by
  cases x with
  | error c => exact .error c
  | ok a => exact hfg a

theorem StepReordered.map {α β : Type} {x : Except Cause β} (hh : h.Reordered h') (f : β → α) :
    StepReordered (x.map fun a => (h, f a)) (x.map fun a => (h', f a)) := by
  cases x with
  | error c => exact .error c
  | ok a => exact ⟨hh, rfl⟩

theorem indexValue_reordered (hh : h.Reordered h') (v key : Value) :
    indexValue h v key = indexValue h' v key := by
  unfold indexValue
  simp only [hh.items, hh.entries]

theorem applyOp_reordered (hh : h.Reordered h') (op : BinaryOp) (a b : Value) :
    StepReordered (applyOp h op a b) (applyOp h' op a b) := by
  unfold applyOp
  cases op <;> dsimp only
  case add =>
    split
    · exact ⟨hh, rfl⟩
    · exact ⟨hh, rfl⟩
    · rename_i r s
      rw [hh.items r, hh.items s]
      have halloc := hh.alloc (Cell.reordered_array (h'.items r ++ h'.items s))
      exact ⟨halloc.1, congrArg Value.array halloc.2⟩
    · exact .error _
  case equal => exact ⟨hh, by rw [Value.equal_reordered hh]⟩
  case sub | mul | div | mod =>
    split
    · exact StepReordered.map hh _
    · exact .error _
  case less | lessEq | greater | greaterEq =>
    split
    · exact ⟨hh, rfl⟩
    · exact ⟨hh, rfl⟩
    · exact .error _
  all_goals exact .error _

theorem invokeMethod_reordered (hh : h.Reordered h') (recv : Receiver) (name : String)
    (args : List Value) :
    StepReordered (invokeMethod h recv name args) (invokeMethod h' recv name args) := by
  cases recv with
  | array r =>
    simp only [invokeMethod, invokeArrayMethod]
    rw [hh.items r]
    split
    · exact .bind fun _ => ⟨hh, rfl⟩
    · exact .bind fun _ => ⟨hh.put r rfl, rfl⟩
    · refine .bind fun _ => ?_
      split
      · exact ⟨hh.put r rfl, rfl⟩
      · exact .error _
    · exact .bind fun _ => .bind fun _ => .bind fun _ => ⟨hh.put r rfl, rfl⟩
    · exact StepReordered.map hh _
  | dict r =>
    simp only [invokeMethod, invokeDictMethod]
    rw [hh.entries r]
    split
    · exact .bind fun _ => .bind fun _ => ⟨hh.put r rfl, rfl⟩
    · exact .bind fun _ => ⟨hh, rfl⟩
    · refine .bind fun _ => ?_
      exact ⟨(hh.alloc (Cell.reordered_array _)).1,
        congrArg Value.array (hh.alloc (Cell.reordered_array _)).2⟩
    · exact .bind fun _ => .bind fun _ => ⟨hh, rfl⟩
    · exact StepReordered.map hh _

end Operations

/-! ### Running in lockstep -/

namespace Lockstep

variable {α β : Type} {V : α → α → Prop} {W : β → β → Prop}

theorem pure {a b : α} (h : V a b) : Lockstep V (Pure.pure a) (Pure.pure b) := fun m m' hm => by
  rw [exec_pure, exec_pure]
  exact ⟨h, hm⟩

theorem throw {e e' : Stop} (h : e.Reordered e') :
    Lockstep V (MonadExcept.throw e : EvalM α) (MonadExcept.throw e') := fun m m' hm => by
  rw [exec_throw, exec_throw]
  exact ⟨h, hm⟩

theorem raise (c : Cause) : Lockstep V (Eval.raise c : EvalM α) (Eval.raise c) :=
  throw (Fault.Reordered.refl _)

theorem bind {x y : EvalM α} {f g : α → EvalM β} (hxy : Lockstep V x y)
    (hfg : ∀ a b, V a b → Lockstep W (f a) (g b)) : Lockstep W (x >>= f) (y >>= g) := by
  intro m m' hm
  have h := hxy m m' hm
  rw [exec_bind, exec_bind]
  rcases hx : exec x m with ⟨e | a, m₁⟩ <;> rcases hy : exec y m' with ⟨e' | b, m₁'⟩ <;>
    rw [hx, hy] at h
  · exact h
  · exact h.elim
  · exact h.elim
  · exact hfg a b h.1 m₁ m₁' h.2

theorem ite {c : Prop} [Decidable c] {x x' y y' : EvalM α} (hx : c → Lockstep V x x')
    (hy : ¬c → Lockstep V y y') : Lockstep V (if c then x else y) (if c then x' else y') := by
  by_cases hc : c
  · rw [if_pos hc, if_pos hc]
    exact hx hc
  · rw [if_neg hc, if_neg hc]
    exact hy hc

theorem get : Lockstep Machine.Reordered get get := fun m m' hm => by
  rw [exec_get, exec_get]
  exact ⟨hm, hm⟩

theorem modify {g g' : Machine → Machine} (hg : ∀ m m', m.Reordered m' → (g m).Reordered (g' m')) :
    Lockstep Eq (modify g) (modify g') := fun m m' hm => by
  rw [exec_modify, exec_modify]
  exact ⟨rfl, hg m m' hm⟩

theorem set {s s' : Machine} (h : s.Reordered s') : Lockstep Eq (set s : EvalM Unit) (set s') :=
  fun m m' _ => by
    rw [exec_set, exec_set]
    exact ⟨rfl, h⟩

theorem modifyGet {g g' : Machine → β × Machine}
    (hg : ∀ m m', m.Reordered m' → W (g m).1 (g' m').1 ∧ (g m).2.Reordered (g' m').2) :
    Lockstep W (modifyGet g) (modifyGet g') := fun m m' hm => by
  rw [exec_modifyGet, exec_modifyGet]
  exact hg m m' hm

theorem orRaise (e : Except Cause α) : Blind (Eval.orRaise e) := by
  cases e with
  | ok a => exact pure rfl
  | error c => exact raise c

theorem bind_eq {x y : EvalM α} {f g : α → EvalM β} (hxy : Lockstep Eq x y)
    (hfg : ∀ a, Lockstep W (f a) (g a)) : Lockstep W (x >>= f) (y >>= g) :=
  hxy.bind fun a _ hab => hab ▸ hfg a

theorem heap : Lockstep Heap.Reordered heap heap :=
  get.bind fun _ _ hm => pure hm.heap

theorem truthy (v : Value) : Blind (Eval.truthy v) :=
  heap.bind fun _ _ hh => pure (Value.truthy_reordered hh v)

theorem emit (ev : Event) : Blind (Eval.emit ev) := modify fun m m' hm => by
  by_cases ht : m.tracing = true
  · rw [if_pos ht, if_pos (hm.tracing ▸ ht)]
    exact { hm with events := by rw [hm.events] }
  · rw [if_neg ht, if_neg (hm.tracing ▸ ht)]
    exact hm

theorem write (s : String) : Blind (Eval.write s) :=
  modify fun _ _ hm => { hm with output := by rw [hm.output] }

theorem readLine : Blind Eval.readLine := modifyGet fun m m' hm => by
  rw [show splitLine m.input = splitLine m'.input by rw [hm.input]]
  rcases splitLine m'.input with ⟨line, rest⟩
  exact ⟨rfl, { hm with input := rfl }⟩

theorem draw (lo hi : Int) : Blind (Eval.draw lo hi) := modifyGet fun m m' hm => by
  refine ⟨?_, { hm with drawn := ?_ }⟩
  · show m.draws.pick m.drawn lo hi = m'.draws.pick m'.drawn lo hi
    rw [hm.draws, hm.drawn]
  · show m.drawn + 1 = m'.drawn + 1
    rw [hm.drawn]

theorem defineVar (name : String) (v : Value) : Blind (Eval.defineVar name v) :=
  modify fun _ _ hm => { hm with env := hm.env.define name v }

theorem alloc {c c' : Cell} (hc : c.Reordered c') : Lockstep Eq (Eval.alloc c) (Eval.alloc c') :=
  modifyGet fun _ _ hm => ⟨(hm.heap.alloc hc).2, { hm with heap := (hm.heap.alloc hc).1 }⟩

theorem onHeap {f f' : Heap → Except Cause (Heap × α)}
    (hf : ∀ h h', h.Reordered h' → StepReordered (f h) (f' h')) :
    Lockstep Eq (Eval.onHeap f) (Eval.onHeap f') := by
  refine get.bind fun m m' hm => ?_
  have hstep := hf m.heap m'.heap hm.heap
  revert hstep
  rcases f m.heap with c | ⟨h₁, a⟩ <;> rcases f' m'.heap with c' | ⟨h₁', b⟩ <;> intro hstep
  · obtain rfl : c = c' := hstep
    exact raise c
  · exact hstep.elim
  · exact hstep.elim
  · obtain ⟨hh₁, rfl⟩ := hstep
    refine (set ?_).bind fun _ _ _ => pure rfl
    exact { hm with heap := hh₁ }

/-- Looking a name up gives one value on both machines; a missing name is reported with the same
cause, and with the nearest of the same candidates, met in two orders. -/
theorem lookup (name : String) : Blind (Eval.lookup name) := by
  refine get.bind fun m m' hm => ?_
  rw [hm.env.get? name]
  split
  · exact pure rfl
  · split
    · exact pure rfl
    · exact throw ⟨rfl, rfl, .inr ⟨name, _, _, rfl, hm.env.names.append (.refl _), rfl, rfl⟩⟩

theorem runBuiltin (b : Builtin) (args : List Value) : Blind (Eval.runBuiltin b args) := by
  cases b <;> simp only [Eval.runBuiltin]
  case fire =>
    refine heap.bind fun h h' hh => ?_
    simp only [Value.display, Value.render_reordered hh]
    exact (write _).bind fun _ _ _ => pure rfl
  case load =>
    refine (orRaise _).bind fun _ _ _ => ?_
    split
    · exact (write _).bind fun _ _ _ => readLine.bind fun _ _ hl => pure (hl ▸ rfl)
    · exact raise _
  case random =>
    refine (orRaise _).bind fun _ _ _ => (orRaise _).bind fun lo _ hlo => ?_
    refine (orRaise _).bind fun hi _ hhi => ?_
    subst hlo hhi
    exact ite (fun _ => raise _) fun _ => (draw lo hi).bind fun _ _ hd => pure (hd ▸ rfl)
  case int | float => exact (orRaise _).bind fun _ _ _ => orRaise _
  case str =>
    refine (orRaise _).bind fun _ _ _ => heap.bind fun h h' hh => ?_
    rw [Value.display, Value.display, Value.render_reordered hh]
    exact pure rfl
  case bool =>
    refine (orRaise _).bind fun _ _ _ => heap.bind fun h h' hh => ?_
    rw [Value.truthy_reordered hh]
    exact pure rfl

theorem callBuiltin (name : String) (args : List Value) : Blind (Eval.callBuiltin name args) := by
  unfold Eval.callBuiltin
  split
  · exact runBuiltin _ args
  · exact raise _

end Lockstep

/-! ### Calls -/

section Calls

variable {m m' : Machine}

theorem EndsAlike.machine {α : Type} {V : α → α → Prop} {o o' : Except Stop α × Machine}
    (h : EndsAlike V o o') : o.2.Reordered o'.2 := by
  rcases o with ⟨_ | _, _⟩ <;> rcases o' with ⟨_ | _, _⟩
  · exact h.2
  · exact h.elim
  · exact h.elim
  · exact h.2

theorem callEnv_reordered (r : Ref) {c c' : Closure} (hc : c.Reordered c') (args : List Value) :
    (callEnv r c args).Reordered (callEnv r c' args) := by
  unfold callEnv
  rw [← hc.params, ← hc.name]
  refine Env.Reordered.foldl_define _ ?_
  -- the function's own name, when it has one, is bound first in both
  split
  · exact hc.env.enclose.define _ _
  · exact hc.env.enclose

theorem callStart_reordered (hm : m.Reordered m') (r : Ref) {c c' : Closure} (hc : c.Reordered c')
    (args : List Value) : (callStart m r c args).Reordered (callStart m' r c' args) := by
  have hpushed : Machine.Reordered { m with stack := m.stack ++ [c.label] }
      { m' with stack := m.stack ++ [c.label] } := { hm with stack := rfl }
  have hemit :=
    (Lockstep.emit (.functionCall c.label (m.stack ++ [c.label]).length) _ _ hpushed).machine
  unfold callStart
  rw [← hc.label, ← hm.stack]
  exact { hemit with env := callEnv_reordered r hc args }

/-- What two calls give back once their bodies, run in lockstep, have stopped: the caller's
environments put back, one name popped, and faults given the same stack as help. -/
theorem EndsAlike.callResult {b b' : Except Stop Flow × Machine} (h : EndsAlike Eq b b')
    {env env' : Env} (henv : env.Reordered env') :
    EndsAlike Eq (callResult b.2.stack b.1, { b.2 with env := env, stack := b.2.stack.dropLast })
      (callResult b'.2.stack b'.1, { b'.2 with env := env', stack := b'.2.stack.dropLast }) := by
  have hm := h.machine
  have hback : Machine.Reordered { b.2 with env := env, stack := b.2.stack.dropLast }
      { b'.2 with env := env', stack := b'.2.stack.dropLast } :=
    { hm with env := henv, stack := by rw [hm.stack] }
  rcases b with ⟨e | fl, mb⟩ <;> rcases b' with ⟨e' | fl', mb'⟩
  · have hs : mb.stack = mb'.stack := hm.stack
    cases e <;> cases e'
    · refine ⟨?_, hback⟩
      rw [← hs]
      exact Fault.Reordered.within h.1 _
    · exact h.1.elim
    · exact h.1.elim
    · exact ⟨trivial, hback⟩
  · exact h.elim
  · exact h.elim
  · obtain rfl : fl = fl' := h.1
    cases fl
    · exact ⟨rfl, hback⟩
    · exact ⟨rfl, hback⟩

end Calls

/-! ### Every evaluation function -/

/-- Every evaluation function at fuel `n` runs in lockstep on reordered machines; a call runs
in lockstep for two functions alike but for the order of their environments. -/
structure OrderBlind (n : Nat) : Prop where
  expr : ∀ e, Blind (evalExpr n e)
  list : ∀ es, Blind (evalList n es)
  entries : ∀ es acc, Blind (evalEntries n es acc)
  links : ∀ v ls, Blind (evalLinks n v ls)
  call : ∀ f args, Blind (callValue n f args)
  closure : ∀ r c c' args, c.Reordered c' →
    Lockstep Eq (callClosure n r c args) (callClosure n r c' args)
  block : ∀ ss, Blind (evalBlock n ss)
  stmt : ∀ s, Blind (evalStmt n s)
  branches : ∀ bs, Blind (evalBranches n bs)
  loop : ∀ t b, Blind (runWhile n t b)
  range : ∀ x i j b, Blind (runFor n x i j b)

namespace OrderBlind

variable {n : Nat} (ih : OrderBlind n)
include ih

theorem expr_succ (e : Expr) : Blind (evalExpr (n + 1) e) := by
  cases e with
  | ident name => simp only [evalExpr]; exact Lockstep.lookup name
  | number x => simp only [evalExpr]; exact Lockstep.pure rfl
  | str s => simp only [evalExpr]; exact Lockstep.pure rfl
  | bool b => simp only [evalExpr]; exact Lockstep.pure rfl
  | negate inner =>
    simp only [evalExpr]
    refine (ih.expr inner).bind_eq fun v => ?_
    split
    · exact Lockstep.pure rfl
    · exact Lockstep.raise _
  | binOp lhs op rhs =>
    cases op
    case and =>
      simp only [evalExpr]
      exact (ih.expr lhs).bind_eq fun _ => (Lockstep.truthy _).bind_eq fun _ =>
        Lockstep.ite (fun _ => ih.expr rhs) fun _ => Lockstep.pure rfl
    case or =>
      simp only [evalExpr]
      exact (ih.expr lhs).bind_eq fun _ => (Lockstep.truthy _).bind_eq fun _ =>
        Lockstep.ite (fun _ => Lockstep.pure rfl) fun _ => ih.expr rhs
    case assign =>
      simp only [evalExpr]
      split
      · exact (ih.expr rhs).bind_eq fun _ =>
          (Lockstep.defineVar _ _).bind_eq fun _ => Lockstep.pure rfl
      · exact Lockstep.raise _
    all_goals
      simp only [evalExpr]
      exact (ih.expr lhs).bind_eq fun _ => (ih.expr rhs).bind_eq fun _ =>
        Lockstep.onHeap fun _ _ hh => applyOp_reordered hh _ _ _
  | call callee args =>
    simp only [evalExpr]
    exact (ih.expr callee).bind_eq fun _ => (ih.list args).bind_eq fun _ => ih.call _ _
  | array items =>
    simp only [evalExpr]
    exact (ih.list items).bind_eq fun _ =>
      (Lockstep.alloc (Cell.reordered_array _)).bind_eq fun _ => Lockstep.pure rfl
  | dict entries =>
    simp only [evalExpr]
    exact (ih.entries entries []).bind_eq fun _ =>
      (Lockstep.alloc (Cell.reordered_dict _)).bind_eq fun _ => Lockstep.pure rfl
  | lambda params body =>
    -- the new function keeps the environment of each machine, reordered alike
    simp only [evalExpr]
    refine Lockstep.get.bind fun _ _ hm => ?_
    refine (Lockstep.alloc ?_).bind_eq fun _ => Lockstep.pure rfl
    exact Closure.Reordered.cell ⟨rfl, rfl, rfl, hm.env⟩
  | chain receiver links =>
    simp only [evalExpr]
    exact (ih.expr receiver).bind_eq fun _ => ih.links _ links

theorem list_succ (es : List Expr) : Blind (evalList (n + 1) es) := by
  cases es with
  | nil => simp only [evalList]; exact Lockstep.pure rfl
  | cons e rest =>
    simp only [evalList]
    exact (ih.expr e).bind_eq fun _ => (ih.list rest).bind_eq fun _ => Lockstep.pure rfl

theorem entries_succ (es : List (String × Expr)) (acc : Entries) :
    Blind (evalEntries (n + 1) es acc) := by
  cases es with
  | nil => simp only [evalEntries]; exact Lockstep.pure rfl
  | cons entry rest =>
    simp only [evalEntries]
    exact (ih.expr entry.2).bind_eq fun _ => ih.entries rest _

theorem links_succ (cur : Value) (ls : List Link) : Blind (evalLinks (n + 1) cur ls) := by
  match ls with
  | [] => simp only [evalLinks]; exact Lockstep.pure rfl
  | .call args :: rest =>
    simp only [evalLinks]
    exact (ih.list args).bind_eq fun _ => (ih.call cur _).bind_eq fun _ => ih.links _ rest
  | .index key :: rest =>
    simp only [evalLinks]
    refine (ih.expr key).bind_eq fun _ => Lockstep.heap.bind fun _ _ hh => ?_
    rw [indexValue_reordered hh]
    exact (Lockstep.orRaise _).bind_eq fun _ => ih.links _ rest
  | .attr name :: rest =>
    simp only [evalLinks, pure_bind]
    refine (Lockstep.orRaise _).bind_eq fun _ => ?_
    exact Lockstep.ite
      (fun _ => (Lockstep.emit _).bind_eq fun _ => (ih.call _ _).bind_eq fun _ => ih.links _ rest)
      fun _ => ih.links _ rest

theorem call_succ (f : Value) (args : List Value) : Blind (callValue (n + 1) f args) := by
  cases f with
  | function r =>
    -- the function is read off each heap: two functions alike but for their environments
    simp only [callValue]
    exact Lockstep.heap.bind fun _ _ hh => ih.closure r _ _ args (hh.closure r)
  | builtin name =>
    simp only [callValue]
    exact (Lockstep.emit _).bind_eq fun _ => Lockstep.callBuiltin name args
  | method recv name =>
    simp only [callValue]
    exact Lockstep.onHeap fun _ _ hh => invokeMethod_reordered hh _ _ _
  | number _ | str _ | bool _ | null | array _ | dict _ =>
    simp only [callValue]
    exact Lockstep.raise _

/-- The call itself: refused alike for its arity or its depth, or its bodies run in lockstep from
two reordered machines, each with its function's own environment, and give back alike. -/
theorem closure_succ (r : Ref) (c c' : Closure) (args : List Value) (hc : c.Reordered c') :
    Lockstep Eq (callClosure (n + 1) r c args) (callClosure (n + 1) r c' args) := by
  intro m m' hm
  by_cases harity : args.length = c.params.length
  · have harity' : args.length = c'.params.length := hc.params ▸ harity
    by_cases hdepth : m.stack.length < maxDepth
    · have hdepth' : m'.stack.length < maxDepth := hm.stack ▸ hdepth
      rw [exec_callClosure n r c args m harity hdepth,
        exec_callClosure n r c' args m' harity' hdepth']
      have hbody := ih.block c.body _ _ (callStart_reordered hm r hc args)
      rw [← hc.body]
      exact hbody.callResult hm.env
    · have hdepth' : maxDepth ≤ m'.stack.length := hm.stack ▸ Nat.not_lt.mp hdepth
      rw [exec_callClosure_depth n r c args m harity (Nat.not_lt.mp hdepth),
        exec_callClosure_depth n r c' args m' harity' hdepth', ← hc.label]
      exact ⟨Fault.Reordered.refl _, hm⟩
  · have harity' : args.length ≠ c'.params.length := hc.params ▸ harity
    rw [exec_callClosure_arity n r c args m harity, exec_callClosure_arity n r c' args m' harity',
      ← hc.label, ← hc.params]
    exact ⟨Fault.Reordered.refl _, hm⟩

theorem block_succ (ss : List Stmt) : Blind (evalBlock (n + 1) ss) := by
  cases ss with
  | nil => simp only [evalBlock]; exact Lockstep.pure rfl
  | cons s rest =>
    simp only [evalBlock]
    refine (ih.stmt s).bind_eq fun flow => ?_
    cases flow with
    | ret v => exact Lockstep.pure rfl
    | normal => exact ih.block rest

theorem stmt_succ (s : Stmt) : Blind (evalStmt (n + 1) s) := by
  cases s with
  | var name e =>
    simp only [evalStmt]
    exact (ih.expr e).bind_eq fun _ => (Lockstep.defineVar _ _).bind_eq fun _ => Lockstep.pure rfl
  | func name params body =>
    simp only [evalStmt]
    refine Lockstep.get.bind fun _ _ hm => ?_
    refine (Lockstep.alloc ?_).bind_eq fun _ =>
      (Lockstep.defineVar _ _).bind_eq fun _ => Lockstep.pure rfl
    exact Closure.Reordered.cell ⟨rfl, rfl, rfl, hm.env⟩
  | ret e =>
    simp only [evalStmt]
    exact (ih.expr e).bind_eq fun _ => Lockstep.pure rfl
  | ifElse test body branches =>
    simp only [evalStmt]
    exact (ih.expr test).bind_eq fun _ => (Lockstep.truthy _).bind_eq fun _ =>
      Lockstep.ite (fun _ => ih.block body) fun _ => ih.branches branches
  | whileLoop test body =>
    simp only [evalStmt]
    exact ih.loop test body
  | forRange name start stop body =>
    simp only [evalStmt]
    exact (ih.expr start).bind_eq fun _ => (Lockstep.orRaise _).bind_eq fun _ =>
      (ih.expr stop).bind_eq fun _ => (Lockstep.orRaise _).bind_eq fun _ => ih.range name _ _ body
  | expr e =>
    simp only [evalStmt]
    exact (ih.expr e).bind_eq fun _ => Lockstep.pure rfl

theorem branches_succ (bs : List Branch) : Blind (evalBranches (n + 1) bs) := by
  match bs with
  | [] => simp only [evalBranches]; exact Lockstep.pure rfl
  | .otherwise body :: _ => simp only [evalBranches]; exact ih.block body
  | .elif test body :: rest =>
    simp only [evalBranches]
    exact (ih.expr test).bind_eq fun _ => (Lockstep.truthy _).bind_eq fun _ =>
      Lockstep.ite (fun _ => ih.block body) fun _ => ih.branches rest

theorem loop_succ (test : Expr) (body : List Stmt) : Blind (runWhile (n + 1) test body) := by
  simp only [runWhile]
  refine (ih.expr test).bind_eq fun _ => (Lockstep.truthy _).bind_eq fun _ =>
    Lockstep.ite (fun _ => (ih.block body).bind_eq fun flow => ?_) fun _ => Lockstep.pure rfl
  cases flow with
  | ret v => exact Lockstep.pure rfl
  | normal => exact ih.loop test body

theorem range_succ (name : String) (i stop : Int) (body : List Stmt) :
    Blind (runFor (n + 1) name i stop body) := by
  simp only [runFor]
  refine Lockstep.ite (fun _ => ?_) fun _ => Lockstep.pure rfl
  refine (Lockstep.defineVar _ _).bind_eq fun _ => (ih.block body).bind_eq fun flow => ?_
  cases flow with
  | ret v => exact Lockstep.pure rfl
  | normal => exact ih.range name _ stop body

theorem succ : OrderBlind (n + 1) where
  expr := ih.expr_succ
  list := ih.list_succ
  entries := ih.entries_succ
  links := ih.links_succ
  call := ih.call_succ
  closure r c c' args := ih.closure_succ r c c' args
  block := ih.block_succ
  stmt := ih.stmt_succ
  branches := ih.branches_succ
  loop := ih.loop_succ
  range := ih.range_succ

end OrderBlind

theorem orderBlind_zero : OrderBlind 0 where
  expr _ := by simp only [evalExpr]; exact Lockstep.throw trivial
  list _ := by simp only [evalList]; exact Lockstep.throw trivial
  entries _ _ := by simp only [evalEntries]; exact Lockstep.throw trivial
  links _ _ := by simp only [evalLinks]; exact Lockstep.throw trivial
  call _ _ := by simp only [callValue]; exact Lockstep.throw trivial
  closure _ _ _ _ _ := by simp only [callClosure]; exact Lockstep.throw trivial
  block _ := by simp only [evalBlock]; exact Lockstep.throw trivial
  stmt _ := by simp only [evalStmt]; exact Lockstep.throw trivial
  branches _ := by simp only [evalBranches]; exact Lockstep.throw trivial
  loop _ _ := by simp only [runWhile]; exact Lockstep.throw trivial
  range _ _ _ _ := by simp only [runFor]; exact Lockstep.throw trivial

theorem orderBlind : ∀ n, OrderBlind n
  | 0 => orderBlind_zero
  | n + 1 => (orderBlind n).succ

/-- A whole program runs in lockstep on reordered machines; a `return` at top level shows the
same value to a tracer. -/
theorem runProgram_blind (n : Nat) (prog : List Stmt) : Blind (runProgram n prog) := by
  simp only [runProgram]
  refine ((orderBlind n).block prog).bind_eq fun flow => ?_
  cases flow with
  | ret v =>
    refine Lockstep.heap.bind fun h h' hh => ?_
    rw [Value.debug, Value.debug, Value.render_reordered hh]
    exact Lockstep.emit _
  | normal => exact Lockstep.pure rfl

end Arson.Eval
