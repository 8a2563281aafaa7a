import Arson.Proofs.Eval.CallFrame
/-!
# The call stack is the chain of calls in progress

The call stack grows in one place only: a call of a user function whose arguments are counted
right, made while fewer than `maxDepth` calls are in progress, pushes the function's label (its
name, or `<lambda>`) and runs the body on that stack. Every evaluation function gives the stack
back as it found it (`frameKept`), and so does the call once its body has stopped, however it
stopped. So at every point of a run the stack lists the calls in progress, outermost first; a fault
leaving a call is told exactly that list; and a run started with at most `maxDepth` calls in
progress never has more.

The arity is checked first: a wrong number of arguments is a `TypeError` whatever the depth. With
the arity right, a call is refused as a `RecursionError` exactly when `maxDepth` calls are in
progress already.
-/
namespace Arson.Eval

open Arson.Syntax

theorem evalBlock_stack (n : Nat) (ss : List Stmt) (m : Machine) :
    (exec (evalBlock n ss) m).2.stack = m.stack :=
  ((frameKept n).block m ss m (.refl m)).1.1

theorem runProgram_stack (n : Nat) (prog : List Stmt) (m : Machine) :
    (exec (runProgram n prog) m).2.stack = m.stack :=
  (runProgram_framed n prog m m (.refl m)).1.1

/-- A call that goes ahead runs its body one call deeper, on a stack of at most `maxDepth` names,
and the body gives that stack back: a fault leaving the call is told the calls in progress,
outermost first, and the caller gets its own stack back. -/
theorem exec_callClosure_within (n : Nat) (r : Ref) (c : Closure) (args : List Value)
    (m : Machine) (harity : args.length = c.params.length) (hdepth : m.stack.length < maxDepth) :
    let body := exec (evalBlock n c.body) (callStart m r c args)
    body.2.stack = m.stack ++ [c.label] ∧ (m.stack ++ [c.label]).length ≤ maxDepth ∧
      exec (callClosure (n + 1) r c args) m =
        (callResult (m.stack ++ [c.label]) body.1, { body.2 with env := m.env, stack := m.stack }) := by
  intro body
  have hbody : body.2.stack = m.stack ++ [c.label] := by
    simp only [body, evalBlock_stack, callStart_stack]
  refine ⟨hbody, ?_, ?_⟩
  · rw [List.length_append, List.length_singleton]
    omega
  · rw [exec_callClosure n r c args m harity hdepth]
    simp only [← hbody]
    rw [hbody, List.dropLast_concat]

/-- The call stack always lists the calls in progress, outermost first, and never holds more
than `maxDepth` of them: the arity check comes before the depth check, and every call gives its
caller's stack back. -/
theorem call_stack_discipline :
    (∀ c : Closure, c.label = c.name.getD "<lambda>") ∧
    (∀ n r c args m, args.length ≠ c.params.length →
      exec (callClosure (n + 1) r c args) m =
        (.error (.fault { cause := .functionArity c.label c.params.length args.length }), m) ∧
      (Cause.functionArity c.label c.params.length args.length).kind = .typeError) ∧
    (∀ n r c args m, args.length = c.params.length → m.stack.length ≤ maxDepth →
      (m.stack.length = maxDepth →
        exec (callClosure (n + 1) r c args) m =
          (.error (.fault
            { cause := .depthExceeded c.label,
              help := some ("'" ++ c.label ++ "' was still recursing") }), m) ∧
        (Cause.depthExceeded c.label).kind = .recursionError) ∧
      (m.stack.length ≠ maxDepth →
        let body := exec (evalBlock n c.body) (callStart m r c args)
        (callStart m r c args).stack = m.stack ++ [c.label] ∧
        body.2.stack = m.stack ++ [c.label] ∧ (m.stack ++ [c.label]).length ≤ maxDepth ∧
        exec (callClosure (n + 1) r c args) m =
          (callResult (m.stack ++ [c.label]) body.1,
            { body.2 with env := m.env, stack := m.stack }))) ∧
    (∀ n, FrameKept n) ∧
    (∀ n prog (m : Machine), (exec (runProgram n prog) m).2.stack = m.stack) := by
  refine ⟨fun _ => rfl, fun n r c args m harity => ⟨exec_callClosure_arity n r c args m harity, rfl⟩,
    fun n r c args m harity hle => ⟨fun hfull => ?_, fun hroom => ?_⟩, frameKept,
    runProgram_stack⟩
  · exact ⟨exec_callClosure_depth n r c args m harity (Nat.le_of_eq hfull.symm), rfl⟩
  · exact ⟨callStart_stack m r c args,
      exec_callClosure_within n r c args m harity (Nat.lt_of_le_of_ne hle hroom)⟩

/-- A function of one parameter refuses a call without arguments, and a call made with the stack
already full. -/
theorem call_refused_by_arity_and_depth :
    exec (callClosure 1 0 ⟨some "f", ["n"], [], Env.root⟩ []) {} =
        (.error (.fault { cause := .functionArity "f" 1 0 }), {}) ∧
      exec (callClosure 1 0 ⟨some "f", ["n"], [], Env.root⟩ [.number 1])
          { stack := List.replicate maxDepth "f" } =
        (.error (.fault { cause := .depthExceeded "f", help := some "'f' was still recursing" }),
          { stack := List.replicate maxDepth "f" }) :=
  ⟨(call_stack_discipline.2.1 0 0 _ [] {} (by decide)).1,
    ((call_stack_discipline.2.2.1 0 0 _ [.number 1] _ rfl (by simp)).1 (by simp)).1⟩

end Arson.Eval
