import Arson.Eval.Fault
import Arson.Value.Equality
import Arson.Number.Arith
/-! # Binary operators on values

`+` adds numbers, joins strings and joins arrays into a new array; `-`, `*`, `/` and `%` take
numbers only, and a zero divisor is refused; the comparisons take two numbers (false when either
is NaN) or two strings (by code point, which is the byte order of their encoding); `==` is the
structural equality of values.
-/
namespace Arson.Eval

open Arson.Syntax

def unsupported (op : BinaryOp) (a b : Value) : Cause := .unsupportedOperands op a.type b.type

/-- The arithmetic of two numbers, refusing a zero divisor. -/
def arithmetic (op : BinaryOp) (x y : Float) : Except Cause Float :=
  match op with
  | .sub => .ok (x - y)
  | .mul => .ok (x * y)
  | .div => if y == 0 then .error .divisionByZero else .ok (x / y)
  | .mod => if y == 0 then .error .moduloByZero else .ok (Number.remainder x y)
  | _ => .ok (x + y)

/-- The order test of an operator on numbers; false whenever an operand is NaN. -/
def compareNumbers (op : BinaryOp) (x y : Float) : Bool :=
  match op with
  | .less => x < y
  | .lessEq => x ≤ y
  | .greater => y < x
  | _ => y ≤ x

/-- The order test of an operator on strings. -/
def compareStrings (op : BinaryOp) (s t : String) : Bool :=
  match op with
  | .less => s < t
  | .lessEq => s ≤ t
  | .greater => t < s
  | _ => t ≤ s

/-- Applies a binary operator to two evaluated operands; joining arrays adds a cell to the heap.
The operators `=`, `and` and `or` are evaluated before their operands are and never come here. -/
def applyOp (h : Heap) (op : BinaryOp) (a b : Value) : Except Cause (Heap × Value) :=
  match op with
  | .add =>
    match a, b with
    | .number x, .number y => .ok (h, .number (x + y))
    | .str s, .str t => .ok (h, .str (s ++ t))
    | .array r, .array s =>
      let (h', r') := h.alloc (.array (h.items r ++ h.items s))
      .ok (h', .array r')
    | _, _ => .error (unsupported op a b)
  | .sub | .mul | .div | .mod =>
    match a, b with
    | .number x, .number y => (arithmetic op x y).map fun z => (h, .number z)
    | _, _ => .error (unsupported op a b)
  | .less | .lessEq | .greater | .greaterEq =>
    match a, b with
    | .number x, .number y => .ok (h, .bool (compareNumbers op x y))
    | .str s, .str t => .ok (h, .bool (compareStrings op s t))
    | _, _ => .error (unsupported op a b)
  | .equal => .ok (h, .bool (a.equal h b))
  | .assign | .and | .or => .error (unsupported op a b)

end Arson.Eval
