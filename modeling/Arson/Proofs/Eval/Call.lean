import Arson.Proofs.Eval.Exec
/-!
# What a call of a user function does

A call either fails at once, leaving the machine as it was (a wrong number of arguments, then a
stack already `maxDepth` deep), or runs the body on `callStart`: the function's name pushed on
the stack and the call's own environment in place. Whatever the body does, the caller's
environment is put back and the last name comes off the stack; `callResult` is what the caller
gets. Every fact about calls is drawn from these three equations.
-/
namespace Arson.Eval

open Arson.Syntax

/-- What a call gives back once its body has stopped: the value returned, null when the body ran
to its end, or the body's stop, a fault getting the stack `inner` as its help. -/
def callResult (inner : List String) : Except Stop Flow → Except Stop Value
  | .ok (.ret v) => .ok v
  | .ok .normal => .ok .null
  | .error (.fault f) => .error (.fault (f.within inner))
  | .error .outOfFuel => .error .outOfFuel

/-- The machine a call's body starts on: the function's name pushed on the stack, the call
shown to a tracer, and the call's own environment in place. -/
def callStart (m : Machine) (r : Ref) (c : Closure) (args : List Value) : Machine :=
  let pushed := { m with stack := m.stack ++ [c.label] }
  { (exec (emit (.functionCall c.label pushed.stack.length)) pushed).2 with env := callEnv r c args }

@[simp] theorem callStart_env (m : Machine) (r : Ref) (c : Closure) (args : List Value) :
    (callStart m r c args).env = callEnv r c args := rfl

@[simp] theorem callStart_stack (m : Machine) (r : Ref) (c : Closure) (args : List Value) :
    (callStart m r c args).stack = m.stack ++ [c.label] := by
  simp only [callStart, emit, exec_modify]
  split <;> rfl

@[simp] theorem callStart_heap (m : Machine) (r : Ref) (c : Closure) (args : List Value) :
    (callStart m r c args).heap = m.heap := by
  simp only [callStart, emit, exec_modify]
  split <;> rfl

variable (n : Nat) (r : Ref) (c : Closure) (args : List Value) (m : Machine)

theorem exec_callClosure_arity (harity : args.length ≠ c.params.length) :
    exec (callClosure (n + 1) r c args) m =
      (.error (.fault (Fault.ofCause (.functionArity c.label c.params.length args.length))), m) := by
  simp only [callClosure, harity, ne_eq, not_false_eq_true, if_true]
  rfl

theorem exec_callClosure_depth (harity : args.length = c.params.length)
    (hdepth : maxDepth ≤ m.stack.length) :
    exec (callClosure (n + 1) r c args) m =
      (.error (.fault (Fault.ofCause (.depthExceeded c.label))), m) := by
  simp only [callClosure, harity, ne_eq, not_true_eq_false, if_false, exec_bind, exec_get,
    if_pos hdepth]
  rfl

theorem exec_callClosure (harity : args.length = c.params.length)
    (hdepth : m.stack.length < maxDepth) :
    exec (callClosure (n + 1) r c args) m =
      let body := exec (evalBlock n c.body) (callStart m r c args)
      (callResult body.2.stack body.1, { body.2 with env := m.env, stack := body.2.stack.dropLast }) := by
  simp only [callClosure, harity, ne_eq, not_true_eq_false, if_false, exec_bind, exec_get,
    if_neg (Nat.not_le.mpr hdepth), exec_modify, emit]
  split
  rename_i res m' hb
  have hbody : exec (evalBlock n c.body) (callStart m r c args) = (res, m') := hb
  rw [hbody]
  -- the tracer's `if` stands in the environment put back; it is decided by the flag
  cases m.tracing <;> rcases res with (_ | _) | (_ | _) <;> rfl

end Arson.Eval
