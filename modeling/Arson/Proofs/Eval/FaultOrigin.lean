import Arson.Proofs.Eval.CallFrame
/-!
# A fault's help names where it was raised

A fault is raised with no help, except a call refused for its depth, which names the function that
was still recursing. The help is added on the way out, by the innermost call the fault leaves:
that call names the calls in progress, its own last, and every call further out leaves the help
alone. So the help a program ends with names exactly the calls in progress where the fault was
raised, and none at all for a fault raised at top level.

`Origin x m f T` says where a fault comes from: `x`, run from `m`, throws `f` as it was raised,
on a machine whose call stack is `T`, directly, in one part of a bind, or in the body of a call.
A fault leaves each evaluation function as `Raised` says (`TraceKept`, one induction on the fuel
over all of them, as `FrameKept` is), and from that the help of a program's fault is read off its
origin (`fault_help_names_raise_point`).
-/
namespace Arson.Eval

open Arson.Syntax

/-! ## Faults as raised -/

/-- A fault as it was raised: with the help its cause is raised with, none but for a refused
call. -/
def Fault.Fresh (f : Fault) : Prop := f.help = (Fault.ofCause f.cause).help

/-- A stop that is a fault is one as raised. -/
def Stop.Fresh (e : Stop) : Prop := ∀ f, e = .fault f → f.Fresh

theorem Fault.ofCause_cause (c : Cause) : (Fault.ofCause c).cause = c := by
  unfold Fault.ofCause
  split <;> rfl

theorem Fault.fresh_ofCause (c : Cause) : (Fault.ofCause c).Fresh := by
  unfold Fault.Fresh
  rw [Fault.ofCause_cause]

theorem Stop.fresh_ofCause (c : Cause) : Stop.Fresh (.fault (Fault.ofCause c)) := by
  rintro f ⟨⟩
  exact Fault.fresh_ofCause c

theorem Fault.within_help_isSome (f : Fault) (T : List String) : (f.within T).help.isSome := by
  unfold Fault.within
  split
  · rename_i h
    simp [h]
  · rfl

theorem Fault.within_of_isSome {f : Fault} (h : f.help.isSome) (T : List String) :
    f.within T = f := by
  unfold Fault.within
  split
  · rfl
  · rename_i hnone
    simp [hnone] at h

theorem Fault.within_within (f : Fault) (T T' : List String) :
    (f.within T).within T' = f.within T :=
  Fault.within_of_isSome (f.within_help_isSome T) T'

/-- The help a fault raised with cause `c` on the stack `T` has when it leaves a program: a
refused call names the function still recursing; any other fault names the calls in progress,
outermost first, and has no help when there were none. -/
def helpAt (c : Cause) (T : List String) : Option String :=
  match c with
  | .depthExceeded g => some ("'" ++ g ++ "' was still recursing")
  | _ => if T = [] then none else some ("raised inside " ++ " -> ".intercalate T)

/-- A fault as raised, seen from the top: unchanged when it was raised there, and with the help of
the calls in progress otherwise. -/
theorem Fault.Fresh.seen {f : Fault} (hf : f.Fresh) (T : List String) :
    (if T = [] then f else f.within T) = { f with help := helpAt f.cause T } := by
  obtain ⟨c, help, suggestion⟩ := f
  unfold Fault.Fresh at hf
  simp only at hf ⊢
  by_cases hd : ∃ g, c = .depthExceeded g
  · -- a refused call keeps the help it was raised with
    obtain ⟨g, rfl⟩ := hd
    simp only [Fault.ofCause] at hf
    subst hf
    split <;> rfl
  · have hnone : (Fault.ofCause c).help = none := by
      unfold Fault.ofCause
      split
      · exact absurd ⟨_, rfl⟩ hd
      · rfl
    have hat : helpAt c T = if T = [] then none else
        some ("raised inside " ++ " -> ".intercalate T) := by
      unfold helpAt
      split
      · exact absurd ⟨_, rfl⟩ hd
      · rfl
    rw [hnone] at hf
    subst hf
    rw [hat]
    by_cases hT : T = []
    · simp [hT]
    · simp [hT, Fault.within]

/-! ## Where a fault comes from -/

/-- `Origin x m f T`: run from `m`, `x` throws the fault `f` as it was raised, on a machine whose
call stack is `T`. A fault that no call has given help stops where it was raised, since after a
raise only a call puts the machine back; one that leaves a call comes from the call's body. -/
inductive Origin : {α : Type} → EvalM α → Machine → Fault → List String → Prop
  | stop {α : Type} {x : EvalM α} {m m' : Machine} {f : Fault} :
      exec x m = (.error (.fault f), m') → f.Fresh → Origin x m f m'.stack
  | bind_left {α β : Type} {x : EvalM α} {g : α → EvalM β} {m : Machine} {f : Fault}
      {T : List String} : Origin x m f T → Origin (x >>= g) m f T
  | bind_right {α β : Type} {x : EvalM α} {g : α → EvalM β} {m m₁ : Machine} {a : α} {f : Fault}
      {T : List String} : exec x m = (.ok a, m₁) → Origin (g a) m₁ f T → Origin (x >>= g) m f T
  | call {n : Nat} {r : Ref} {c : Closure} {args : List Value} {m : Machine} {f : Fault}
      {T : List String} : args.length = c.params.length → m.stack.length < maxDepth →
      Origin (evalBlock n c.body) (callStart m r c args) f T →
      Origin (callClosure (n + 1) r c args) m f T

theorem Origin.fresh {α : Type} {x : EvalM α} {m : Machine} {f : Fault} {T : List String}
    (h : Origin x m f T) : f.Fresh := by
  induction h with
  | stop _ hf => exact hf
  | bind_left _ ih => exact ih
  | bind_right _ _ ih => exact ih
  | call _ _ _ ih => exact ih

/-- What a fault leaving a computation started on the stack `S` is, for its origin `raw` on the
stack `T`: `T` extends `S`, and the fault is `raw` itself when it was raised on `S`, and `raw`
with the help of `T` when it was raised inside a call. -/
structure Raised (S : List String) (f raw : Fault) (T : List String) : Prop where
  below : S <+: T
  seen : f = if T = S then raw else raw.within T

theorem Raised.refl {S : List String} {f : Fault} : Raised S f f S :=
  ⟨List.prefix_refl S, by simp⟩

/-- Leaving the call of `g` made on the stack `S`: the fault was raised inside the call, and the
help it gets there, if it had none, names the stack it was raised on. -/
theorem Raised.call {S : List String} {g : String} {f raw : Fault} {T : List String}
    (h : Raised (S ++ [g]) f raw T) : Raised S (f.within (S ++ [g])) raw T where
  below := (List.prefix_append S [g]).trans h.below
  seen := by
    have hT : T ≠ S := fun hTS => by
      have hlen := h.below.length_le
      rw [hTS, List.length_append] at hlen
      simp only [List.length_singleton] at hlen
      omega
    rw [if_neg hT, h.seen]
    by_cases hT' : T = S ++ [g]
    · rw [if_pos hT', hT']
    · rw [if_neg hT', Fault.within_within]

/-! ## Computations whose faults are traced -/

section Traced

variable {α β : Type}

/-- `x` gives back the stack it started on, and every fault it stops with has an origin and is
what `Raised` says. -/
structure Traced (x : EvalM α) : Prop where
  keeps : ∀ m, (exec x m).2.stack = m.stack
  origin : ∀ m f m', exec x m = (.error (.fault f), m') →
    ∃ raw T, Origin x m raw T ∧ Raised m.stack f raw T

namespace Traced

/-- A computation that keeps the stack and stops only with faults as raised: each fault it stops
with was raised on the stack it started on. -/
theorem of_guards {x : EvalM α}
    (h : ∀ s, Guards (fun m => m.stack = s) (fun _ => True) Stop.Fresh x) : Traced x where
  keeps m := (h m.stack m rfl).1
  origin m f m' hx := by
    have hkeep := (h m.stack m rfl).1
    have hfresh := (h m.stack m rfl).2.2 (.fault f) (by rw [hx])
    rw [hx] at hkeep
    refine ⟨f, m'.stack, .stop hx (hfresh f rfl), ?_⟩
    simp only at hkeep
    rw [hkeep]
    exact Raised.refl

theorem bind {x : EvalM α} {g : α → EvalM β} (hx : Traced x) (hg : ∀ a, Traced (g a)) :
    Traced (x >>= g) where
  keeps m := by
    have hs := hx.keeps m
    rw [exec_bind]
    rcases hxm : exec x m with ⟨e | a, m₁⟩
    · rw [hxm] at hs
      exact hs
    · rw [hxm] at hs
      exact ((hg a).keeps m₁).trans hs
  origin m f m' h := by
    have hs := hx.keeps m
    rw [exec_bind] at h
    rcases hxm : exec x m with ⟨e | a, m₁⟩
    · -- the fault comes from the first part
      rw [hxm] at h
      simp only [Prod.mk.injEq, Except.error.injEq] at h
      obtain ⟨rfl, rfl⟩ := h
      obtain ⟨raw, T, ho, hr⟩ := hx.origin m f m₁ hxm
      exact ⟨raw, T, .bind_left ho, hr⟩
    · -- the first part gave a value on the same stack, and the fault comes from the second
      rw [hxm] at h hs
      obtain ⟨raw, T, ho, hr⟩ := (hg a).origin m₁ f m' h
      exact ⟨raw, T, .bind_right hxm ho, hs ▸ hr⟩

theorem ite {c : Prop} [Decidable c] {x y : EvalM α} (hx : c → Traced x) (hy : ¬c → Traced y) :
    Traced (if c then x else y) := by
  by_cases hc : c
  · rw [if_pos hc]
    exact hx hc
  · rw [if_neg hc]
    exact hy hc

/-! ### The primitives of the machine -/

theorem pure {a : α} : Traced (Pure.pure a : EvalM α) := of_guards fun _ => .pure trivial

theorem throw {e : Stop} (h : e.Fresh) : Traced (MonadExcept.throw e : EvalM α) :=
  of_guards fun _ => .throw h

theorem raise {c : Cause} : Traced (Eval.raise c : EvalM α) :=
  of_guards fun _ => .raise (Stop.fresh_ofCause c)

theorem outOfFuel : Traced (MonadExcept.throw .outOfFuel : EvalM α) :=
  throw fun _ h => by cases h

theorem orRaise {e : Except Cause α} : Traced (Eval.orRaise e) :=
  of_guards fun _ => .orRaise (fun _ _ => trivial) fun c _ => Stop.fresh_ofCause c

theorem onHeap {f : Heap → Except Cause (Heap × α)} : Traced (Eval.onHeap f) :=
  of_guards fun _ => .onHeap (fun _ hm _ _ _ => ⟨hm, trivial⟩) fun _ _ c _ => Stop.fresh_ofCause c

theorem get : Traced (MonadState.get : EvalM Machine) :=
  of_guards fun _ => Guards.get.mono (fun _ _ => trivial) fun _ h => h

theorem heap : Traced Eval.heap :=
  of_guards fun _ => Guards.heap.mono (fun _ _ => trivial) fun _ h => h

theorem truthy {v : Value} : Traced (Eval.truthy v) := of_guards fun _ => Guards.truthy

theorem emit (ev : Event) : Traced (Eval.emit ev) :=
  of_guards fun _ => Guards.emit (fun _ _ hm _ hs _ => hs.trans hm) ev

theorem defineVar {name : String} {v : Value} : Traced (Eval.defineVar name v) :=
  of_guards fun _ => Guards.defineVar fun _ hm => hm

theorem alloc {c : Cell} : Traced (Eval.alloc c) := of_guards fun _ => Guards.alloc fun _ hm => hm

theorem lookup {name : String} : Traced (Eval.lookup name) := by
  refine of_guards fun _ => ?_
  unfold Eval.lookup
  refine Guards.get.bind fun _ _ => ?_
  split
  · exact .pure trivial
  · split
    · exact .pure trivial
    · exact .throw fun f hf => by
        cases hf
        rfl

theorem callBuiltin {name : String} {args : List Value} : Traced (Eval.callBuiltin name args) := by
  unfold Eval.callBuiltin
  split
  · exact of_guards fun _ => (Guards.runBuiltin (fun _ _ hm _ hs _ => hs.trans hm)
      (fun c _ => Stop.fresh_ofCause c) _ args).mono (fun _ _ => trivial) fun _ h => h
  · exact raise

end Traced

end Traced

/-! ## Every evaluation function traces its faults -/

/-- Every evaluation function at fuel `n` traces the faults it stops with. -/
structure TraceKept (n : Nat) : Prop where
  expr : ∀ e, Traced (evalExpr n e)
  list : ∀ es, Traced (evalList n es)
  entries : ∀ es acc, Traced (evalEntries n es acc)
  links : ∀ v ls, Traced (evalLinks n v ls)
  call : ∀ f args, Traced (callValue n f args)
  closure : ∀ r c args, Traced (callClosure n r c args)
  block : ∀ ss, Traced (evalBlock n ss)
  stmt : ∀ s, Traced (evalStmt n s)
  branches : ∀ bs, Traced (evalBranches n bs)
  loop : ∀ t b, Traced (runWhile n t b)
  range : ∀ x i j b, Traced (runFor n x i j b)

theorem origin_of_stop {α : Type} {x : EvalM α} {m : Machine} {f : Fault}
    (hx : exec x m = (.error (.fault f), m)) (hf : f.Fresh) :
    ∃ raw T, Origin x m raw T ∧ Raised m.stack f raw T :=
  ⟨f, m.stack, .stop hx hf, .refl⟩

namespace TraceKept

variable {n : Nat} (ih : TraceKept n)
include ih

theorem expr_succ (e : Expr) : Traced (evalExpr (n + 1) e) := by
  cases e with
  | ident name => simp only [evalExpr]; exact .lookup
  | number x => simp only [evalExpr]; exact .pure
  | str s => simp only [evalExpr]; exact .pure
  | bool b => simp only [evalExpr]; exact .pure
  | negate inner =>
    simp only [evalExpr]
    refine (ih.expr inner).bind fun v => ?_
    split
    · exact .pure
    · exact .raise
  | binOp lhs op rhs =>
    cases op
    case and =>
      simp only [evalExpr]
      exact (ih.expr lhs).bind fun _ => Traced.truthy.bind fun _ =>
        .ite (fun _ => ih.expr rhs) fun _ => .pure
    case or =>
      simp only [evalExpr]
      exact (ih.expr lhs).bind fun _ => Traced.truthy.bind fun _ =>
        .ite (fun _ => .pure) fun _ => ih.expr rhs
    case assign =>
      simp only [evalExpr]
      split
      · exact (ih.expr rhs).bind fun _ => Traced.defineVar.bind fun _ => .pure
      · exact .raise
    all_goals
      simp only [evalExpr]
      exact (ih.expr lhs).bind fun _ => (ih.expr rhs).bind fun _ => .onHeap
  | call callee args =>
    simp only [evalExpr]
    exact (ih.expr callee).bind fun _ => (ih.list args).bind fun _ => ih.call _ _
  | array items =>
    simp only [evalExpr]
    exact (ih.list items).bind fun _ => Traced.alloc.bind fun _ => .pure
  | dict entries =>
    simp only [evalExpr]
    exact (ih.entries entries []).bind fun _ => Traced.alloc.bind fun _ => .pure
  | lambda params body =>
    simp only [evalExpr]
    exact Traced.get.bind fun _ => Traced.alloc.bind fun _ => .pure
  | chain receiver links =>
    simp only [evalExpr]
    exact (ih.expr receiver).bind fun _ => ih.links _ links

theorem list_succ (es : List Expr) : Traced (evalList (n + 1) es) := by
  cases es with
  | nil => simp only [evalList]; exact .pure
  | cons e rest =>
    simp only [evalList]
    exact (ih.expr e).bind fun _ => (ih.list rest).bind fun _ => .pure

theorem entries_succ (es : List (String × Expr)) (acc : Entries) :
    Traced (evalEntries (n + 1) es acc) := by
  cases es with
  | nil => simp only [evalEntries]; exact .pure
  | cons entry rest =>
    simp only [evalEntries]
    exact (ih.expr entry.2).bind fun _ => ih.entries rest _

theorem links_succ (cur : Value) (ls : List Link) : Traced (evalLinks (n + 1) cur ls) := by
  match ls with
  | [] => simp only [evalLinks]; exact .pure
  | .call args :: rest =>
    simp only [evalLinks]
    exact (ih.list args).bind fun _ => (ih.call cur _).bind fun _ => ih.links _ rest
  | .index key :: rest =>
    simp only [evalLinks]
    exact (ih.expr key).bind fun _ => Traced.heap.bind fun _ =>
      Traced.orRaise.bind fun _ => ih.links _ rest
  | .attr name :: rest =>
    simp only [evalLinks, pure_bind]
    refine Traced.orRaise.bind fun _ => ?_
    exact .ite (fun _ => (Traced.emit _).bind fun _ => (ih.call _ _).bind fun _ => ih.links _ rest)
      fun _ => ih.links _ rest

theorem call_succ (f : Value) (args : List Value) : Traced (callValue (n + 1) f args) := by
  cases f with
  | function r =>
    simp only [callValue]
    exact Traced.heap.bind fun _ => ih.closure _ _ _
  | builtin name =>
    simp only [callValue]
    exact (Traced.emit _).bind fun _ => .callBuiltin
  | method recv name =>
    simp only [callValue]
    exact .onHeap
  | number _ | str _ | bool _ | null | array _ | dict _ =>
    simp only [callValue]
    exact .raise

/-- The call itself: a fault from the body was raised inside the call, and leaves it with the
help of the stack it was raised on; a call refused for its arity or its depth stops at once. -/
theorem closure_succ (r : Ref) (c : Closure) (args : List Value) :
    Traced (callClosure (n + 1) r c args) where
  keeps m := ((frameKept (n + 1)).closure m r c args m ⟨rfl, rfl⟩).1.2
  origin m f m' h := by
    by_cases harity : args.length = c.params.length
    · by_cases hdepth : m.stack.length < maxDepth
      · rw [exec_callClosure n r c args m harity hdepth] at h
        have hframe :=
          ((frameKept n).block (callStart m r c args) c.body (callStart m r c args) (.refl _)).1.1
        rw [callStart_stack] at hframe
        generalize hb : exec (evalBlock n c.body) (callStart m r c args) = body at h hframe
        obtain ⟨res, mb⟩ := body
        simp only [Prod.mk.injEq] at h hframe
        obtain ⟨hres, -⟩ := h
        rw [hframe] at hres
        -- only a fault of the body leaves the call as a fault
        rcases res with (fb | _) | fl
        · simp only [callResult, Except.error.injEq, Stop.fault.injEq] at hres
          obtain ⟨raw, T, ho, hr⟩ := (ih.block c.body).origin _ fb mb hb
          rw [callStart_stack] at hr
          exact ⟨raw, T, .call harity hdepth ho, hres ▸ hr.call⟩
        · simp [callResult] at hres
        · cases fl <;> simp [callResult] at hres
      · have hx := exec_callClosure_depth n r c args m harity (Nat.not_lt.mp hdepth)
        rw [hx] at h
        simp only [Prod.mk.injEq, Except.error.injEq, Stop.fault.injEq] at h
        obtain ⟨rfl, -⟩ := h
        exact origin_of_stop hx (Fault.fresh_ofCause _)
    · have hx := exec_callClosure_arity n r c args m harity
      rw [hx] at h
      simp only [Prod.mk.injEq, Except.error.injEq, Stop.fault.injEq] at h
      obtain ⟨rfl, -⟩ := h
      exact origin_of_stop hx (Fault.fresh_ofCause _)

theorem block_succ (ss : List Stmt) : Traced (evalBlock (n + 1) ss) := by
  cases ss with
  | nil => simp only [evalBlock]; exact .pure
  | cons s rest =>
    simp only [evalBlock]
    refine (ih.stmt s).bind fun flow => ?_
    cases flow with
    | ret v => exact .pure
    | normal => exact ih.block rest

theorem stmt_succ (s : Stmt) : Traced (evalStmt (n + 1) s) := by
  cases s with
  | var name e =>
    simp only [evalStmt]
    exact (ih.expr e).bind fun _ => Traced.defineVar.bind fun _ => .pure
  | func name params body =>
    simp only [evalStmt]
    exact Traced.get.bind fun _ => Traced.alloc.bind fun _ => Traced.defineVar.bind fun _ => .pure
  | ret e =>
    simp only [evalStmt]
    exact (ih.expr e).bind fun _ => .pure
  | ifElse test body branches =>
    simp only [evalStmt]
    exact (ih.expr test).bind fun _ => Traced.truthy.bind fun _ =>
      .ite (fun _ => ih.block body) fun _ => ih.branches branches
  | whileLoop test body =>
    simp only [evalStmt]
    exact ih.loop test body
  | forRange name start stop body =>
    simp only [evalStmt]
    exact (ih.expr start).bind fun _ => Traced.orRaise.bind fun _ =>
      (ih.expr stop).bind fun _ => Traced.orRaise.bind fun _ => ih.range name _ _ body
  | expr e =>
    simp only [evalStmt]
    exact (ih.expr e).bind fun _ => .pure

theorem branches_succ (bs : List Branch) : Traced (evalBranches (n + 1) bs) := by
  match bs with
  | [] => simp only [evalBranches]; exact .pure
  | .otherwise body :: _ => simp only [evalBranches]; exact ih.block body
  | .elif test body :: rest =>
    simp only [evalBranches]
    exact (ih.expr test).bind fun _ => Traced.truthy.bind fun _ =>
      .ite (fun _ => ih.block body) fun _ => ih.branches rest

theorem loop_succ (test : Expr) (body : List Stmt) : Traced (runWhile (n + 1) test body) := by
  simp only [runWhile]
  refine (ih.expr test).bind fun _ => Traced.truthy.bind fun _ =>
    .ite (fun _ => (ih.block body).bind fun flow => ?_) fun _ => .pure
  cases flow with
  | ret v => exact .pure
  | normal => exact ih.loop test body

theorem range_succ (name : String) (i stop : Int) (body : List Stmt) :
    Traced (runFor (n + 1) name i stop body) := by
  simp only [runFor]
  refine .ite (fun _ => ?_) fun _ => .pure
  refine Traced.defineVar.bind fun _ => (ih.block body).bind fun flow => ?_
  cases flow with
  | ret v => exact .pure
  | normal => exact ih.range name _ stop body

theorem succ : TraceKept (n + 1) where
  expr := ih.expr_succ
  list := ih.list_succ
  entries := ih.entries_succ
  links := ih.links_succ
  call := ih.call_succ
  closure := ih.closure_succ
  block := ih.block_succ
  stmt := ih.stmt_succ
  branches := ih.branches_succ
  loop := ih.loop_succ
  range := ih.range_succ

end TraceKept

theorem traceKept_zero : TraceKept 0 where
  expr _ := by simp only [evalExpr]; exact .outOfFuel
  list _ := by simp only [evalList]; exact .outOfFuel
  entries _ _ := by simp only [evalEntries]; exact .outOfFuel
  links _ _ := by simp only [evalLinks]; exact .outOfFuel
  call _ _ := by simp only [callValue]; exact .outOfFuel
  closure _ _ _ := by simp only [callClosure]; exact .outOfFuel
  block _ := by simp only [evalBlock]; exact .outOfFuel
  stmt _ := by simp only [evalStmt]; exact .outOfFuel
  branches _ := by simp only [evalBranches]; exact .outOfFuel
  loop _ _ := by simp only [runWhile]; exact .outOfFuel
  range _ _ _ _ := by simp only [runFor]; exact .outOfFuel

theorem traceKept : ∀ n, TraceKept n
  | 0 => traceKept_zero
  | n + 1 => (traceKept n).succ

theorem runProgram_traced (n : Nat) (prog : List Stmt) : Traced (runProgram n prog) := by
  simp only [runProgram]
  refine ((traceKept n).block prog).bind fun flow => ?_
  cases flow with
  | ret v => exact Traced.heap.bind fun _ => .emit _
  | normal => exact .pure

/-! ## The help of a program's fault -/

/-- The help of a fault is fixed where it is raised: no call it leaves on its way out changes
it, and nothing else of the fault changes either. -/
theorem fault_help_names_raise_point (n : Nat) (prog : List Stmt) (m : Machine)
    (hs : m.stack = []) {f : Fault} {m' : Machine}
    (hrun : exec (runProgram n prog) m = (.error (.fault f), m')) :
    ∃ raw T, Origin (runProgram n prog) m raw T ∧ f = { raw with help := helpAt raw.cause T } := by
  obtain ⟨raw, T, ho, hr⟩ := (runProgram_traced n prog).origin m f m' hrun
  refine ⟨raw, T, ho, ?_⟩
  rw [hr.seen, hs]
  exact ho.fresh.seen T

/-- `outer` calls `inner`, which negates a string: the fault leaves the program naming both calls,
outermost first. -/
def nestedFault : List Stmt :=
  [.func "inner" [] [.expr (.negate (.str "a"))],
   .func "outer" [] [.expr (.call (.ident "inner") [])],
   .expr (.call (.ident "outer") [])]

theorem nested_fault_names_both_calls :
    ∃ raw T, Origin (runProgram 16 nestedFault) {} raw T ∧
      ({ cause := .cannotNegate .string, help := some "raised inside outer -> inner" } : Fault) =
        { raw with help := helpAt raw.cause T } :=
  -- the final machine is named outright: leaving it to unification evaluates the run twice
  @fault_help_names_raise_point 16 nestedFault {} rfl
    { cause := .cannotNegate .string, help := some "raised inside outer -> inner" }
    (exec (runProgram 16 nestedFault) {}).2 (Prod.ext rfl rfl)

end Arson.Eval
