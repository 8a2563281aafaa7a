import Arson.Value.Basic
import Arson.Report
import Arson.Syntax.Ast
import Arson.Number.Layout
/-! # Runtime faults

What can go wrong while a program runs, one constructor per cause. The kind and the message of a
fault are functions of its cause; a position past the end of an array is a panic of the runtime,
which ends the whole run; the help says where it happened (the user calls in progress) or,
for a call nested too deep, which function was still recursing; a missing name may come with the
nearest visible name.
-/
namespace Arson.Eval

open Arson.Syntax Arson

/-- The most user calls that may be in progress at once. -/
def maxDepth : Nat := 1000

/-- The causes of runtime faults. -/
inductive Cause where
  | undefinedName (name : String)
  | missingKey (key : String)
  | cannotNegate (t : ValueType)
  | unsupportedOperands (op : BinaryOp) (l r : ValueType)
  | assignTarget
  | notCallable (t : ValueType)
  | unknownNative (name : String)
  | functionArity (label : String) (expected given : Nat)
  | builtinArity (name : String) (expected given : Nat)
  | promptType (t : ValueType)
  | randomBoundType (which : String) (t : ValueType)
  | randomBoundRange (which : String) (x : Float)
  | randomInverted (lo hi : Int)
  | noAttribute (t : ValueType) (name : String)
  | notIndexable (t : ValueType)
  | indexType (t : ValueType)
  | keyType (context : String) (t : ValueType)
  | indexRange (raw : Float) (len : Nat)
  | popEmpty
  | divisionByZero
  | moduloByZero
  | intOfNumber (x : Float)
  | intOfText (s : String)
  | floatOfText (s : String)
  | convertType (target : String) (t : ValueType)
  | rangeBoundType (which : String) (t : ValueType)
  | rangeBoundRange (which : String) (x : Float)
  | depthExceeded (label : String)
  | outOfBounds (index len : Nat)
deriving Repr, Inhabited

namespace Cause

/-- The kind of a cause. -/
def kind : Cause → FaultKind
  | .undefinedName _ | .missingKey _ => .nameError
  | .indexRange _ _ | .popEmpty => .indexError
  | .randomBoundRange _ _ | .randomInverted _ _ | .divisionByZero | .moduloByZero
  | .intOfNumber _ | .intOfText _ | .floatOfText _ | .rangeBoundRange _ _ => .valueError
  | .depthExceeded _ => .recursionError
  | .outOfBounds _ _ => .panic
  | _ => .typeError

/-- `n argument` or `n arguments`. -/
def arguments (n : Nat) : String :=
  toString n ++ (if n = 1 then " argument" else " arguments")

/-- The message of a cause. -/
def message : Cause → String
  | .undefinedName n => "Variable '" ++ n ++ "' does not exist"
  | .missingKey k => "Key '" ++ k ++ "' not found in dict"
  | .cannotNegate t => "Cannot negate a " ++ t.name ++ " value"
  | .unsupportedOperands op l r =>
    "Unsupported operand types for " ++ op.symbol ++ ": '" ++ l.name ++ "' and '" ++ r.name ++ "'"
  | .assignTarget => "Left side of '=' must be a variable name"
  | .notCallable t => "'" ++ t.name ++ "' value is not callable"
  | .unknownNative n => "Unknown native function: " ++ n
  | .functionArity f n m =>
    "Function '" ++ f ++ "' expects " ++ arguments n ++ ", got " ++ toString m
  | .builtinArity f n m => f ++ "() takes " ++ arguments n ++ " but " ++ toString m ++ " were given"
  | .promptType t => "load() prompt must be a string, not " ++ t.name
  | .randomBoundType w t => "random() " ++ w ++ " must be a number, not " ++ t.name
  | .randomBoundRange w x => "random() " ++ w ++ " is out of integer range: " ++ Number.display x
  | .randomInverted lo hi =>
    "random() min (" ++ toString lo ++ ") is greater than max (" ++ toString hi ++ ")"
  | .noAttribute t n => "'" ++ t.name ++ "' has no attribute '" ++ n ++ "'"
  | .notIndexable t => "'" ++ t.name ++ "' value is not indexable"
  | .indexType t => "Array indices must be numbers, not " ++ t.name
  | .keyType c t => c ++ ": dict keys must be strings, not " ++ t.name
  | .indexRange x n =>
    "Array index " ++ Number.display x ++ " out of range for length " ++ toString n
  | .popEmpty => "pop from empty array"
  | .divisionByZero => "Division by zero"
  | .moduloByZero => "Modulo by zero"
  | .intOfNumber x => "Cannot convert " ++ Number.display x ++ " to int"
  | .intOfText s => "Cannot convert '" ++ s ++ "' to int"
  | .floatOfText s => "Cannot convert '" ++ s ++ "' to float"
  | .convertType target t => "Cannot convert " ++ t.name ++ " to " ++ target
  | .rangeBoundType w t => "Range " ++ w ++ " must be a number, not " ++ t.name
  | .rangeBoundRange w x => "Range " ++ w ++ " is out of integer range: " ++ Number.display x
  | .depthExceeded _ => "Maximum call depth of " ++ toString maxDepth ++ " exceeded"
  | .outOfBounds i n =>
    "index out of bounds: the len is " ++ toString n ++ " but the index is " ++ toString i

end Cause

/-- A runtime fault: its cause, the help attached on the way out, and a suggested name. -/
structure Fault where
  cause : Cause
  help : Option String := none
  suggestion : Option String := none
deriving Repr, Inhabited

/-- A fault with no help yet, except for a refused call, which names the function. -/
def Fault.ofCause (c : Cause) : Fault :=
  match c with
  | .depthExceeded f => { cause := c, help := some ("'" ++ f ++ "' was still recursing") }
  | _ => { cause := c }

/-- Adds the call stack as help, unless the fault has help already. -/
def Fault.within (f : Fault) (stack : List String) : Fault :=
  match f.help with
  | some _ => f
  | none => { f with help := some ("raised inside " ++ " -> ".intercalate stack) }

end Arson.Eval
