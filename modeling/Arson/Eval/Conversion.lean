import Arson.Eval.Fault
import Arson.Value.Display
import Arson.Number.Reading
import Arson.Number.Arith
import Arson.Text.Blank
/-! # Conversions between values

`int` truncates a finite number toward zero, reads a string of an optional sign and ASCII digits
(blanks around it allowed), and maps booleans to 0 and 1. `float` reads the float grammar. `str`
gives the display form and `bool` the truthiness. The bounds of `random` and of `for` ranges are
numbers whose truncation lies in `[-2^63, 2^63)`.
-/
namespace Arson.Eval


/-- Reads an integer after trimming blanks: an optional sign and one or more ASCII digits. -/
def parseInt? (s : String) : Option Float := Number.readInteger? (Text.trim s)

/-- Reads a float after trimming blanks. -/
def parseFloat? (s : String) : Option Float := Number.readFloat? (Text.trim s)

/-- Whether a float is neither NaN nor infinite. -/
def isFinite (x : Float) : Bool :=
  match Number.decode x with
  | .finite _ _ => true
  | _ => false

/-- The builtin `int`. -/
def toInt : Value → Except Cause Value
  | .number x => if isFinite x then .ok (.number (Number.truncate x)) else .error (.intOfNumber x)
  | .str s =>
    match parseInt? s with
    | some x => .ok (.number x)
    | none => .error (.intOfText s)
  | .bool b => .ok (.number (if b then 1 else 0))
  | v => .error (.convertType "int" v.type)

/-- The builtin `float`. -/
def toFloat : Value → Except Cause Value
  | .number x => .ok (.number x)
  | .str s =>
    match parseFloat? s with
    | some x => .ok (.number x)
    | none => .error (.floatOfText s)
  | .bool b => .ok (.number (if b then 1 else 0))
  | v => .error (.convertType "float" v.type)

/-- A bound of `random`: a number whose truncation fits in 64 bits. -/
def randomBound (which : String) : Value → Except Cause Int
  | .number x =>
    match Number.toInt64? x with
    | some i => .ok i
    | none => .error (.randomBoundRange which x)
  | v => .error (.randomBoundType which v.type)

/-- A bound of a `for` range: a number whose truncation fits in 64 bits. -/
def rangeBound (which : String) : Value → Except Cause Int
  | .number x =>
    match Number.toInt64? x with
    | some i => .ok i
    | none => .error (.rangeBoundRange which x)
  | v => .error (.rangeBoundType which v.type)

end Arson.Eval
