import Arson.Eval.Machine
/-! # Evaluation

A big-step evaluator with fuel. Statements run in order in the current scope (blocks open none);
`return` ends the function in progress. A call of a user function evaluates its body in a fresh
scope on top of the environment the function was made in, with the function's own name and its
parameters bound there, and gives the caller back its own environment whatever the body did. At
most `maxDepth` user calls are in progress; a fault that leaves a call gets the stack of calls in
progress as its help. An attribute of a container is a method value, called at once with no
arguments unless the next link is a call.
-/
namespace Arson.Eval

open Arson.Syntax

/-- How a statement ends: normally, or by `return` with a value. -/
inductive Flow where
  | normal
  | ret (v : Value)
deriving Inhabited

def truthy (v : Value) : EvalM Bool := return v.truthy (← heap)

/-- The environment of a call: a fresh scope on the function's own, holding the function under its
name and the arguments under the parameters. -/
def callEnv (r : Ref) (c : Closure) (args : List Value) : Env :=
  let base := c.env.enclose
  let base := match c.name with
    | some n => base.define n (.function r)
    | none => base
  (c.params.zip args).foldl (fun e (p, v) => e.define p v) base

mutual

/-- Evaluates an expression. -/
def evalExpr (fuel : Nat) (e : Expr) : EvalM Value :=
  match fuel with
  | 0 => throw .outOfFuel
  | n + 1 =>
    match e with
    | .number x => pure (.number x)
    | .str s => pure (.str s)
    | .bool b => pure (.bool b)
    | .ident name => lookup name
    | .negate inner => do
      match ← evalExpr n inner with
      | .number x => pure (.number (-x))
      | v => raise (.cannotNegate v.type)
    | .binOp lhs .and rhs => do
      let a ← evalExpr n lhs
      if ← truthy a then evalExpr n rhs else pure a
    | .binOp lhs .or rhs => do
      let a ← evalExpr n lhs
      if ← truthy a then pure a else evalExpr n rhs
    | .binOp lhs .assign rhs =>
      match lhs with
      | .ident name => do
        let v ← evalExpr n rhs
        defineVar name v
        pure v
      | _ => raise .assignTarget
    | .binOp lhs op rhs => do
      let a ← evalExpr n lhs
      let b ← evalExpr n rhs
      onHeap fun h => applyOp h op a b
    | .call callee args => do
      let f ← evalExpr n callee
      let vs ← evalList n args
      callValue n f vs
    | .array items => do
      let vs ← evalList n items
      return .array (← alloc (.array vs.toArray))
    | .dict entries => do
      let es ← evalEntries n entries []
      return .dict (← alloc (.dict es))
    | .lambda params body => do
      let env := (← get).env
      return .function (← alloc (.function ⟨none, params, body, env⟩))
    | .chain receiver links => do
      let v ← evalExpr n receiver
      evalLinks n v links

/-- Evaluates expressions left to right. -/
def evalList (fuel : Nat) (es : List Expr) : EvalM (List Value) :=
  match fuel with
  | 0 => throw .outOfFuel
  | n + 1 =>
    match es with
    | [] => pure []
    | e :: rest => do
      let v ← evalExpr n e
      let vs ← evalList n rest
      pure (v :: vs)

/-- Evaluates the entries of a dict literal in order; a later key overwrites an earlier one. -/
def evalEntries (fuel : Nat) (es : List (String × Expr)) (acc : Entries) :
    EvalM Entries :=
  match fuel with
  | 0 => throw .outOfFuel
  | n + 1 =>
    match es with
    | [] => pure acc
    | (k, e) :: rest => do
      let v ← evalExpr n e
      evalEntries n rest (acc.insert k v)

/-- Applies the links of a chain to a value, left to right. -/
def evalLinks (fuel : Nat) (cur : Value) (links : List Link) : EvalM Value :=
  match fuel with
  | 0 => throw .outOfFuel
  | n + 1 =>
    match links with
    | [] => pure cur
    | .call args :: rest => do
      let vs ← evalList n args
      let v ← callValue n cur vs
      evalLinks n v rest
    | .index key :: rest => do
      let k ← evalExpr n key
      let v ← orRaise (indexValue (← heap) cur k)
      evalLinks n v rest
    | .attr name :: rest => do
      let resolved ← orRaise (cur.attribute name)
      -- a method is called at once, with no arguments, unless the next link calls it
      let explicitCall := match rest with
        | .call _ :: _ => true
        | _ => false
      let v ← if resolved.isCallable && !explicitCall then do
          emit (.autoInvoke name)
          callValue n resolved []
        else pure resolved
      evalLinks n v rest

/-- Calls a value with evaluated arguments. -/
def callValue (fuel : Nat) (f : Value) (args : List Value) : EvalM Value :=
  match fuel with
  | 0 => throw .outOfFuel
  | n + 1 =>
    match f with
    | .function r => do
      let c := (← heap).closure r
      callClosure n r c args
    | .builtin name => do
      emit (.builtinCall name args.length)
      callBuiltin name args
    | .method recv name => onHeap fun h => invokeMethod h recv name args
    | v => raise (.notCallable v.type)

/-- Calls a user function: the arity is checked, then the depth; the function's name goes on the
call stack, the body runs in the call's own environment, the caller's environment is put back, a
fault gets the stack as its help, and the name comes off the stack, whatever happened. -/
def callClosure (fuel : Nat) (r : Ref) (c : Closure) (args : List Value) : EvalM Value :=
  match fuel with
  | 0 => throw .outOfFuel
  | n + 1 => do
    if args.length ≠ c.params.length then
      raise (.functionArity c.label c.params.length args.length)
    else if maxDepth ≤ (← get).stack.length then raise (.depthExceeded c.label)
    else
      modify fun m => { m with stack := m.stack ++ [c.label] }
      emit (.functionCall c.label (← get).stack.length)
      let m ← get
      let (res, m') := (evalBlock n c.body).run.run { m with env := callEnv r c args }
      set { m' with env := m.env, stack := m'.stack.dropLast }
      match res with
      | .ok (.ret v) => pure v
      | .ok .normal => pure .null
      | .error (.fault f) => throw (.fault (f.within m'.stack))
      | .error .outOfFuel => throw .outOfFuel

/-- Runs statements in order, stopping at the first `return`. -/
def evalBlock (fuel : Nat) (ss : List Stmt) : EvalM Flow :=
  match fuel with
  | 0 => throw .outOfFuel
  | n + 1 =>
    match ss with
    | [] => pure .normal
    | s :: rest => do
      match ← evalStmt n s with
      | .ret v => pure (.ret v)
      | .normal => evalBlock n rest

/-- Runs one statement. -/
def evalStmt (fuel : Nat) (s : Stmt) : EvalM Flow :=
  match fuel with
  | 0 => throw .outOfFuel
  | n + 1 =>
    match s with
    | .var name e => do
      let v ← evalExpr n e
      defineVar name v
      pure .normal
    | .func name params body => do
      let env := (← get).env
      let r ← alloc (.function ⟨some name, params, body, env⟩)
      defineVar name (.function r)
      pure .normal
    | .ret e => return .ret (← evalExpr n e)
    | .ifElse test body branches => do
      if ← truthy (← evalExpr n test) then evalBlock n body
      else evalBranches n branches
    | .whileLoop test body => runWhile n test body
    | .forRange name start stop body => do
      let lo ← orRaise (rangeBound "start" (← evalExpr n start))
      let hi ← orRaise (rangeBound "end" (← evalExpr n stop))
      runFor n name lo hi body
    | .expr e => do
      let _ ← evalExpr n e
      pure .normal

/-- Runs the first branch whose test holds, or the `else` branch. -/
def evalBranches (fuel : Nat) (bs : List Branch) : EvalM Flow :=
  match fuel with
  | 0 => throw .outOfFuel
  | n + 1 =>
    match bs with
    | [] => pure .normal
    | .otherwise body :: _ => evalBlock n body
    | .elif test body :: rest => do
      if ← truthy (← evalExpr n test) then evalBlock n body
      else evalBranches n rest

/-- Runs a body while its test holds. -/
def runWhile (fuel : Nat) (test : Expr) (body : List Stmt) : EvalM Flow :=
  match fuel with
  | 0 => throw .outOfFuel
  | n + 1 => do
    if ← truthy (← evalExpr n test) then
      match ← evalBlock n body with
      | .ret v => pure (.ret v)
      | .normal => runWhile n test body
    else pure .normal

/-- Runs a body for each whole number from `i` up to `stop`, binding it to the name first. -/
def runFor (fuel : Nat) (name : String) (i stop : Int) (body : List Stmt) :
    EvalM Flow :=
  match fuel with
  | 0 => throw .outOfFuel
  | n + 1 =>
    if i < stop then do
      defineVar name (.number (Float.ofInt i))
      match ← evalBlock n body with
      | .ret v => pure (.ret v)
      | .normal => runFor n name (i + 1) stop body
    else pure .normal

end

/-- Runs a program at top level; a `return` there ends it quietly. -/
def runProgram (fuel : Nat) (prog : List Stmt) : EvalM Unit := do
  match ← evalBlock fuel prog with
  | .ret v => emit (.topReturn (v.debug (← heap)))
  | .normal => pure ()

end Arson.Eval
