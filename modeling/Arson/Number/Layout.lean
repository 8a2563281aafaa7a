import Arson.Number.Shortest
/-! # Writing a decimal

A selected decimal `digits * 10^exp` is written either positionally or in scientific notation. Two
notations are used: the display of a number, which is always positional and drops a zero
fraction, and the number format of the token dump, which keeps `.0` on integral values and
switches to `e` notation outside a window of point positions.
-/
namespace Arson.Number

/-- How a decimal is laid out. The point position of `d` is `len d.digits + d.exp`. -/
structure Notation where
  /-- Point positions `p` with `lo < p ≤ hi` are written positionally; `none` means all are. -/
  window : Option (Int × Int)
  /-- Integral values written positionally end in `.0`. -/
  pointZero : Bool
  /-- A non-negative exponent is written with `+`. -/
  expPlus : Bool
  /-- How a tie between two shortest decimals is broken. -/
  tie : Tie

/-- The display of numbers: positional always, no fraction on integral values, a tie to the upper
decimal. -/
def Notation.display : Notation where
  window := none
  pointZero := false
  expPlus := false
  tie := .up

/-- The token dump's number format: positional for point positions from -4 to 16, `1e+20` and
`1e-6` outside, a tie to the even decimal. -/
def Notation.dump : Notation where
  window := some (-5, 16)
  pointZero := true
  expPlus := true
  tie := .even

def zeros (n : Nat) : String := String.ofList (List.replicate n '0')

def digitString (n : Nat) : String := String.ofList (Nat.toDigits 10 n)

/-- Lays out a decimal with a non-zero digit string. -/
def Notation.layout (t : Notation) (d : Decimal) : String :=
  let ds := Nat.toDigits 10 d.digits
  let len := ds.length
  let p : Int := len + d.exp
  let positional := match t.window with
    | none => true
    | some (lo, hi) => lo < p && p ≤ hi
  if positional then
    if p ≤ 0 then "0." ++ zeros (-p).toNat ++ String.ofList ds
    else if p < len then
      String.ofList (ds.take p.toNat) ++ "." ++ String.ofList (ds.drop p.toNat)
    else String.ofList ds ++ zeros (p - len).toNat ++ (if t.pointZero then ".0" else "")
  else
    let mant := match ds with
      | [c] => String.singleton c
      | c :: rest => String.singleton c ++ "." ++ String.ofList rest
      | [] => ""
    let e := p - 1
    let sign := if e < 0 then "-" else if t.expPlus then "+" else ""
    mant ++ "e" ++ sign ++ digitString e.natAbs

/-- The display of a number: shortest digits laid out positionally, `-0` for negative zero, `inf`,
`-inf` and `NaN` for the special values. -/
def display (x : Float) : String :=
  match decode x with
  | .nan => "NaN"
  | .infinite neg => if neg then "-inf" else "inf"
  | .finite neg b =>
    let sign := if neg then "-" else ""
    if b.m = 0 then sign ++ "0" else sign ++ Notation.display.layout (b.shortest Notation.display.tie)

/-- The token dump's text of a number: `0.0` for zero and `null` for what has no finite value. -/
def dumpText (x : Float) : String :=
  match decode x with
  | .nan => "null"
  | .infinite _ => "null"
  | .finite neg b =>
    let sign := if neg then "-" else ""
    if b.m = 0 then sign ++ "0.0" else sign ++ Notation.dump.layout (b.shortest Notation.dump.tie)

end Arson.Number
