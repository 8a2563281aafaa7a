import Arson.Proofs.Eval.Storable
import Arson.Proofs.Eval.Call
/-!
# No method escapes a chain

An attribute of a container is a method, and the evaluator calls it at once: with the arguments
of the next link when that link is a call, else with none. So a method is never the value of an
expression, never bound in an environment (the ones that closures keep included), never stored in
an array or a dict, never passed as an argument and never returned from a call; and a builtin
value always carries the name of a builtin. Inside a chain a bound method stands for one step
only, right before the link that calls it (`Value.fitsBefore`).

`NoMethodEscapes n` says that every evaluation function at fuel `n`, started on a machine whose
environment and heap hold storable values only, ends on such a machine, gives storable values,
and never stops by refusing an unknown builtin. It is proved for every fuel by one induction over
all the functions at once, one step lemma per function, like `FrameKept`.

Three branches of the machine are therefore never taken: the refusal of a builtin name that no
builtin has, the catch-all arm of the method tables (a method is only ever called under a name
its container answers to), and the cases of display and equality for methods (they are only
ever given storable values on a heap of storable values).
-/
namespace Arson.Eval

open Arson.Syntax

/-- A flow that returns a storable value, or none. -/
def Flow.storable : Flow → Bool
  | .ret v => v.storable
  | .normal => true

/-- A stop other than the refusal of an unknown builtin. -/
def Stop.Known (e : Stop) : Prop := ∀ f, e = .fault f → f.cause.Known

namespace Stop.Known

theorem fault {f : Fault} (h : f.cause.Known) : Stop.Known (.fault f) := by
  intro f' hf
  cases hf
  exact h

theorem ofCause {c : Cause} (h : c.Known) : Stop.Known (.fault (Fault.ofCause c)) := by
  refine fault ?_
  unfold Fault.ofCause
  split <;> exact h

theorem outOfFuel : Stop.Known .outOfFuel := by
  intro f hf
  cases hf

end Stop.Known

theorem Fault.within_cause (f : Fault) (stack : List String) :
    (f.within stack).cause = f.cause := by
  unfold Fault.within
  split <;> rfl

/-- What a call gives back is storable when the flow of its body is, and a fault keeps its cause
as it leaves the call. -/
theorem callResult_keeps {inner : List String} {res : Except Stop Flow}
    (hflow : ∀ fl, res = .ok fl → fl.storable) (hstop : ∀ e, res = .error e → e.Known) :
    (∀ v, callResult inner res = .ok v → v.storable) ∧
      ∀ e, callResult inner res = .error e → e.Known := by
  rcases res with e | fl
  · cases e with
    | fault f =>
      refine ⟨fun _ h => (by cases h), fun _ h => ?_⟩
      cases h
      refine .fault ?_
      rw [Fault.within_cause]
      exact hstop _ rfl f rfl
    | outOfFuel => exact ⟨fun _ h => (by cases h), fun _ h => (by cases h; exact .outOfFuel)⟩
  · cases fl with
    | ret w => exact ⟨fun _ h => (by cases h; exact hflow _ rfl), fun _ h => (by cases h)⟩
    | normal => exact ⟨fun _ h => (by cases h; rfl), fun _ h => (by cases h)⟩

/-- Started on a machine that holds storable values only, `x` ends on one, gives a value
satisfying `Q`, and does not stop by refusing an unknown builtin. -/
abbrev KeepsStorable {α : Type} (Q : α → Prop) (x : EvalM α) : Prop :=
  Guards Machine.Storable Q Stop.Known x

namespace Guards

variable {α : Type} {P : Machine → Prop} {Q : α → Prop}

theorem orRaise_settles {e : Except Cause α} (h : Settles Q Cause.Known e) :
    Guards P Q Stop.Known (Eval.orRaise e) :=
  .orRaise h.1 fun c hc => Stop.Known.ofCause (h.2 c hc)

theorem onHeap_settles {f : Heap → Except Cause (Heap × α)}
    (hf : ∀ h : Heap, h.Storable →
      Settles (fun p => p.1.Storable ∧ Q p.2) Cause.Known (f h)) :
    KeepsStorable Q (Eval.onHeap f) :=
  .onHeap (fun m hm _ _ hfa => have hp := (hf m.heap hm.2).1 _ hfa; ⟨⟨hm.1, hp.1⟩, hp.2⟩)
    fun m hm c hc => Stop.Known.ofCause ((hf m.heap hm.2).2 c hc)

theorem heap_storable : KeepsStorable (fun h : Heap => h.Storable) Eval.heap :=
  Guards.heap.mono (fun _ ⟨_, hm, he⟩ => he ▸ hm.2) fun _ h => h

theorem defineVar_storable {name : String} {v : Value} (hv : v.storable) :
    KeepsStorable (fun _ => True) (Eval.defineVar name v) :=
  .defineVar fun _ hm => ⟨hm.1.define hv, hm.2⟩

theorem alloc_storable {c : Cell} (hc : c.Storable) :
    KeepsStorable (fun _ => True) (Eval.alloc c) :=
  .alloc fun _ hm => ⟨hm.1, hm.2.alloc hc⟩

end Guards

/-- At fuel `n`, every evaluation function keeps the machine storable, gives storable values and
never refuses an unknown builtin. A chain may be handed a bound method before a call, a call may
be given anything the evaluator may call, and a user function is called with the environment it
was made in, which a storable heap keeps storable. -/
structure NoMethodEscapes (n : Nat) : Prop where
  expr : ∀ e, KeepsStorable (fun v : Value => v.storable) (evalExpr n e)
  list : ∀ es, KeepsStorable (fun vs : List Value => ∀ v ∈ vs, v.storable) (evalList n es)
  entries : ∀ es acc, BindingsStorable acc →
    KeepsStorable BindingsStorable (evalEntries n es acc)
  links : ∀ cur ls, cur.fitsBefore ls →
    KeepsStorable (fun v : Value => v.storable) (evalLinks n cur ls)
  call : ∀ f args, f.callee → (∀ v ∈ args, v.storable) →
    KeepsStorable (fun v : Value => v.storable) (callValue n f args)
  closure : ∀ r c args, c.env.Storable → (∀ v ∈ args, v.storable) →
    KeepsStorable (fun v : Value => v.storable) (callClosure n r c args)
  block : ∀ ss, KeepsStorable (fun fl : Flow => fl.storable) (evalBlock n ss)
  stmt : ∀ s, KeepsStorable (fun fl : Flow => fl.storable) (evalStmt n s)
  branches : ∀ bs, KeepsStorable (fun fl : Flow => fl.storable) (evalBranches n bs)
  loop : ∀ t b, KeepsStorable (fun fl : Flow => fl.storable) (runWhile n t b)
  range : ∀ x i j b, KeepsStorable (fun fl : Flow => fl.storable) (runFor n x i j b)

namespace NoMethodEscapes

variable {n : Nat} (ih : NoMethodEscapes n)
include ih

theorem expr_succ (e : Expr) :
    KeepsStorable (fun v : Value => v.storable) (evalExpr (n + 1) e) := by
  cases e with
  | ident name =>
    simp only [evalExpr]
    exact .lookup (fun _ hm _ hv => hm.1.get? hv) Value.storable_builtin
      fun _ hf => Stop.Known.fault (hf ▸ rfl)
  | number x => simp only [evalExpr]; exact .pure rfl
  | str s => simp only [evalExpr]; exact .pure rfl
  | bool b => simp only [evalExpr]; exact .pure rfl
  | negate inner =>
    simp only [evalExpr]
    refine (ih.expr inner).bind fun v _ => ?_
    split
    · exact .pure rfl
    · exact .raise (.ofCause rfl)
  | binOp lhs op rhs =>
    cases op
    case and =>
      simp only [evalExpr]
      exact (ih.expr lhs).bind fun _ ha => Guards.truthy.bind fun _ _ =>
        .ite (fun _ => ih.expr rhs) fun _ => .pure ha
    case or =>
      simp only [evalExpr]
      exact (ih.expr lhs).bind fun _ ha => Guards.truthy.bind fun _ _ =>
        .ite (fun _ => .pure ha) fun _ => ih.expr rhs
    case assign =>
      simp only [evalExpr]
      split
      · exact (ih.expr rhs).bind fun _ hv =>
          (Guards.defineVar_storable hv).bind fun _ _ => .pure hv
      · exact .raise (.ofCause rfl)
    all_goals
      simp only [evalExpr]
      exact (ih.expr lhs).bind fun _ _ => (ih.expr rhs).bind fun _ _ =>
        Guards.onHeap_settles fun _ hh => applyOp_settles hh
  | call callee args =>
    simp only [evalExpr]
    exact (ih.expr callee).bind fun _ hf => (ih.list args).bind fun _ hvs =>
      ih.call _ _ (Value.callee_of_storable hf) hvs
  | array items =>
    simp only [evalExpr]
    refine (ih.list items).bind fun vs hvs => ?_
    have hcell : (Cell.array vs.toArray).Storable :=
      Cell.storable_array.mpr fun v hv => hvs v (List.mem_toArray.mp hv)
    exact (Guards.alloc_storable hcell).bind fun _ _ => .pure rfl
  | dict entries =>
    simp only [evalExpr]
    refine (ih.entries entries [] BindingsStorable.nil).bind fun es hes => ?_
    exact (Guards.alloc_storable (Cell.storable_dict.mpr hes)).bind fun _ _ => .pure rfl
  | lambda params body =>
    simp only [evalExpr]
    -- the closure keeps the environment it was made in, which is storable
    refine Guards.get.bind fun m hm => ?_
    exact (Guards.alloc_storable (Cell.storable_function.mpr hm.1)).bind fun _ _ => .pure rfl
  | chain receiver links =>
    simp only [evalExpr]
    exact (ih.expr receiver).bind fun v hv => ih.links v links (Value.fitsBefore_of_storable hv _)

theorem list_succ (es : List Expr) :
    KeepsStorable (fun vs : List Value => ∀ v ∈ vs, v.storable) (evalList (n + 1) es) := by
  cases es with
  | nil => simp only [evalList]; exact .pure nofun
  | cons e rest =>
    simp only [evalList]
    refine (ih.expr e).bind fun v hv => (ih.list rest).bind fun vs hvs => .pure ?_
    intro w hw
    rcases List.mem_cons.mp hw with rfl | hw
    · exact hv
    · exact hvs w hw

theorem entries_succ (es : List (String × Expr)) (acc : Entries) (hacc : BindingsStorable acc) :
    KeepsStorable BindingsStorable (evalEntries (n + 1) es acc) := by
  cases es with
  | nil => simp only [evalEntries]; exact .pure hacc
  | cons entry rest =>
    simp only [evalEntries]
    exact (ih.expr entry.2).bind fun _ hv => ih.entries rest _ (hacc.insert hv)

/-- A chain's links: an attribute resolves to a bound method, which is called at once unless the
next link calls it, so whatever follows is handed a value that fits before it. -/
theorem links_succ (cur : Value) (ls : List Link) (hcur : cur.fitsBefore ls) :
    KeepsStorable (fun v : Value => v.storable) (evalLinks (n + 1) cur ls) := by
  match ls, hcur with
  | [], hcur => simp only [evalLinks]; exact .pure hcur
  | .call args :: rest, hcur =>
    simp only [evalLinks]
    exact (ih.list args).bind fun vs hvs => (ih.call cur vs hcur hvs).bind fun v hv =>
      ih.links v rest (Value.fitsBefore_of_storable hv _)
  | .index key :: rest, _ =>
    simp only [evalLinks]
    refine (ih.expr key).bind fun _ _ => Guards.heap_storable.bind fun _ hh => ?_
    exact (Guards.orRaise_settles (indexValue_settles hh)).bind fun v hv =>
      ih.links v rest (Value.fitsBefore_of_storable hv _)
  | .attr name :: rest, _ =>
    simp only [evalLinks, pure_bind]
    refine (Guards.orRaise_settles attribute_settles).bind fun resolved hbound => ?_
    have hcallee := Value.callee_of_boundMethod hbound
    refine .ite (fun _ => ?_) fun hlater => ih.links resolved rest ?_
    · exact (Guards.emit Machine.Storable.heeds _).bind fun _ _ =>
        (ih.call resolved [] hcallee nofun).bind fun v hv =>
          ih.links v rest (Value.fitsBefore_of_storable hv _)
    · -- a method is callable, so one not called at once is followed by a call
      have hcallable : resolved.isCallable := by
        cases resolved
        case method => rfl
        all_goals cases hbound
      cases rest with
      | nil => simp [hcallable] at hlater
      | cons l rest =>
        cases l with
        | call args => exact hcallee
        | index key => simp [hcallable] at hlater
        | attr name => simp [hcallable] at hlater

theorem call_succ (f : Value) (args : List Value) (hf : f.callee)
    (hargs : ∀ v ∈ args, v.storable) :
    KeepsStorable (fun v : Value => v.storable) (callValue (n + 1) f args) := by
  cases f with
  | function r =>
    simp only [callValue]
    exact Guards.heap_storable.bind fun _ hh => ih.closure r _ args (hh.closure r) hargs
  | builtin name =>
    simp only [callValue, callBuiltin]
    refine (Guards.emit Machine.Storable.heeds _).bind fun _ _ => ?_
    -- the name is a builtin's, so the dispatcher finds it
    have hname : name ∈ builtinNames := Value.callee_builtin.mp hf
    split
    next b _ =>
      exact (Guards.runBuiltin Machine.Storable.heeds (fun _ hc => .ofCause hc) b args).mono
        (fun _ hv => Value.storable_of_isScalar hv) fun _ h => h
    next hnone =>
      have := Builtin.ofName?_isSome hname
      simp [hnone] at this
  | method recv name =>
    simp only [callValue]
    have hname : name ∈ recv.methodNames := Value.callee_method.mp hf
    exact Guards.onHeap_settles fun _ hh =>
      (invokeMethod_settles hh hargs hname).mono (fun _ h => h) fun _ => Cause.known_of_ofMethod
  | number _ | str _ | bool _ | null | array _ | dict _ =>
    simp only [callValue]
    exact .raise (.ofCause rfl)

/-- The call of a user function: its body starts on the call's environment, built from the
function's own and from storable arguments, and on the heap as it was; the caller's environment
is put back afterwards. -/
theorem closure_succ (r : Ref) (c : Closure) (args : List Value) (hc : c.env.Storable)
    (hargs : ∀ v ∈ args, v.storable) :
    KeepsStorable (fun v : Value => v.storable) (callClosure (n + 1) r c args) := by
  intro m hm
  by_cases harity : args.length = c.params.length
  · by_cases hdepth : m.stack.length < maxDepth
    · rw [exec_callClosure n r c args m harity hdepth]
      have hstart : (callStart m r c args).Storable :=
        ⟨callEnv_storable hc hargs, (callStart_heap m r c args) ▸ hm.2⟩
      obtain ⟨hend, hflow, hstop⟩ := ih.block c.body _ hstart
      obtain ⟨hval, hknown⟩ := callResult_keeps hflow hstop
      exact ⟨⟨hm.1, hend.2⟩, hval, hknown⟩
    · rw [exec_callClosure_depth n r c args m harity (Nat.not_lt.mp hdepth)]
      exact ⟨hm, fun _ h => (by cases h), fun _ he => (by cases he; exact .ofCause rfl)⟩
  · rw [exec_callClosure_arity n r c args m harity]
    exact ⟨hm, fun _ h => (by cases h), fun _ he => (by cases he; exact .ofCause rfl)⟩

theorem block_succ (ss : List Stmt) :
    KeepsStorable (fun fl : Flow => fl.storable) (evalBlock (n + 1) ss) := by
  cases ss with
  | nil => simp only [evalBlock]; exact .pure rfl
  | cons s rest =>
    simp only [evalBlock]
    refine (ih.stmt s).bind fun flow hflow => ?_
    cases flow with
    | ret v => exact .pure hflow
    | normal => exact ih.block rest

theorem stmt_succ (s : Stmt) :
    KeepsStorable (fun fl : Flow => fl.storable) (evalStmt (n + 1) s) := by
  cases s with
  | var name e =>
    simp only [evalStmt]
    exact (ih.expr e).bind fun _ hv =>
      (Guards.defineVar_storable hv).bind fun _ _ => .pure rfl
  | func name params body =>
    simp only [evalStmt]
    refine Guards.get.bind fun m hm => ?_
    exact (Guards.alloc_storable (Cell.storable_function.mpr hm.1)).bind fun _ _ =>
      (Guards.defineVar_storable rfl).bind fun _ _ => .pure rfl
  | ret e =>
    simp only [evalStmt]
    exact (ih.expr e).bind fun _ hv => .pure hv
  | ifElse test body branches =>
    simp only [evalStmt]
    exact (ih.expr test).bind fun _ _ => Guards.truthy.bind fun _ _ =>
      .ite (fun _ => ih.block body) fun _ => ih.branches branches
  | whileLoop test body =>
    simp only [evalStmt]
    exact ih.loop test body
  | forRange name start stop body =>
    simp only [evalStmt]
    exact (ih.expr start).bind fun _ _ =>
      (Guards.orRaise_settles rangeBound_settles).bind fun _ _ =>
      (ih.expr stop).bind fun _ _ =>
      (Guards.orRaise_settles rangeBound_settles).bind fun _ _ =>
      ih.range name _ _ body
  | expr e =>
    simp only [evalStmt]
    exact (ih.expr e).bind fun _ _ => .pure rfl

theorem branches_succ (bs : List Branch) :
    KeepsStorable (fun fl : Flow => fl.storable) (evalBranches (n + 1) bs) := by
  match bs with
  | [] => simp only [evalBranches]; exact .pure rfl
  | .otherwise body :: _ => simp only [evalBranches]; exact ih.block body
  | .elif test body :: rest =>
    simp only [evalBranches]
    exact (ih.expr test).bind fun _ _ => Guards.truthy.bind fun _ _ =>
      .ite (fun _ => ih.block body) fun _ => ih.branches rest

theorem loop_succ (test : Expr) (body : List Stmt) :
    KeepsStorable (fun fl : Flow => fl.storable) (runWhile (n + 1) test body) := by
  simp only [runWhile]
  refine (ih.expr test).bind fun _ _ => Guards.truthy.bind fun _ _ =>
    .ite (fun _ => (ih.block body).bind fun flow hflow => ?_) fun _ => .pure rfl
  cases flow with
  | ret v => exact .pure hflow
  | normal => exact ih.loop test body

theorem range_succ (name : String) (i stop : Int) (body : List Stmt) :
    KeepsStorable (fun fl : Flow => fl.storable) (runFor (n + 1) name i stop body) := by
  simp only [runFor]
  refine .ite (fun _ => ?_) fun _ => .pure rfl
  refine (Guards.defineVar_storable rfl).bind fun _ _ =>
    (ih.block body).bind fun flow hflow => ?_
  cases flow with
  | ret v => exact .pure hflow
  | normal => exact ih.range name _ stop body

theorem succ : NoMethodEscapes (n + 1) where
  expr := ih.expr_succ
  list := ih.list_succ
  entries := ih.entries_succ
  links := ih.links_succ
  call := ih.call_succ
  closure := ih.closure_succ
  block := ih.block_succ
  stmt := ih.stmt_succ
  branches := ih.branches_succ
  loop := ih.loop_succ
  range := ih.range_succ

end NoMethodEscapes

theorem noMethodEscapes_zero : NoMethodEscapes 0 where
  expr _ := by simp only [evalExpr]; exact .throw .outOfFuel
  list _ := by simp only [evalList]; exact .throw .outOfFuel
  entries _ _ _ := by simp only [evalEntries]; exact .throw .outOfFuel
  links _ _ _ := by simp only [evalLinks]; exact .throw .outOfFuel
  call _ _ _ _ := by simp only [callValue]; exact .throw .outOfFuel
  closure _ _ _ _ _ := by simp only [callClosure]; exact .throw .outOfFuel
  block _ := by simp only [evalBlock]; exact .throw .outOfFuel
  stmt _ := by simp only [evalStmt]; exact .throw .outOfFuel
  branches _ := by simp only [evalBranches]; exact .throw .outOfFuel
  loop _ _ := by simp only [runWhile]; exact .throw .outOfFuel
  range _ _ _ _ := by simp only [runFor]; exact .throw .outOfFuel

theorem noMethodEscapes : ∀ n, NoMethodEscapes n
  | 0 => noMethodEscapes_zero
  | n + 1 => (noMethodEscapes n).succ

/-- A whole run keeps the machine storable and never refuses an unknown builtin; a value returned
at top level is shown through its debug form, on the heap as it is. -/
theorem runProgram_keepsStorable (n : Nat) (prog : List Stmt) :
    KeepsStorable (fun _ => True) (runProgram n prog) := by
  simp only [runProgram]
  refine ((noMethodEscapes n).block prog).bind fun flow _ => ?_
  cases flow with
  | ret v => exact Guards.heap.bind fun _ _ => .emit Machine.Storable.heeds _
  | normal => exact .pure trivial

/-- A bound method lives only inside the chain that makes it: evaluation never stores one, and
the catch-all arm of the method tables is reached only by names a container lacks. -/
theorem methods_never_escape :
    Machine.Storable {} ∧ (∀ n, NoMethodEscapes n) ∧
    (∀ n prog, KeepsStorable (fun _ => True) (runProgram n prog)) ∧
    (∀ (v : Value) name w, v.attribute name = .ok w → w.boundMethod) ∧
    (∀ h recv name args, h.Storable → (∀ v ∈ args, v.storable) →
      name ∈ recv.methodNames →
      Settles (fun p : Heap × Value => p.1.Storable ∧ p.2.storable) (fun c => c.ofMethod)
        (invokeMethod h recv name args)) ∧
    (∀ h recv name args, name ∉ recv.methodNames →
      invokeMethod h recv name args = .error (.noAttribute recv.type name)) :=
  ⟨Machine.storable_fresh, noMethodEscapes, runProgram_keepsStorable,
    fun _ _ _ h => attribute_settles.1 _ h,
    fun _ _ _ _ hh hargs hname => invokeMethod_settles hh hargs hname,
    fun _ _ _ _ hname => invokeMethod_of_not_mem hname⟩

/-- `a.push(2)` calls the method it names at once, and `a.length` is called without parentheses. -/
def pushThenLength : List Stmt :=
  [.var "a" (.array [.number 1]),
   .expr (.chain (.ident "a") [.attr "push", .call [.number 2]]),
   .expr (.call (.ident "fire") [.chain (.ident "a") [.attr "length"]])]

/-- Run from a fresh machine, the methods are called and the machine ends holding storable values
only. -/
theorem pushed_array_stays_storable :
    (exec (runProgram 32 pushThenLength) {}).2.output = "2\n" ∧
      Machine.Storable (exec (runProgram 32 pushThenLength) {}).2 :=
  ⟨by decide +kernel, (methods_never_escape.2.2.1 32 pushThenLength {} methods_never_escape.1).1⟩

end Arson.Eval
