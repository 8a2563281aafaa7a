import Arson.Number.Binary
/-! # Reading numbers from text

The float grammar: an optional sign, then `inf`, `infinity` or `nan` in any case, or decimal
digits with an optional point and an optional exponent, with at least one digit before or after
the point. The decimal is rounded once, to nearest with ties to even.
-/
namespace Arson.Number

def infinity : Float := Float.ofBits 0x7FF0000000000000

def notANumber : Float := Float.ofBits 0x7FF8000000000000

def digitsValue (ds : List Char) : Nat :=
  ds.foldl (fun acc c => 10 * acc + (c.toNat - '0'.toNat)) 0

def spanDigits (cs : List Char) : List Char × List Char :=
  (cs.takeWhile Char.isDigit, cs.dropWhile Char.isDigit)

/-- The float nearest to `mant * 10^e`; magnitudes far outside the float range go to zero or
infinity without computing their powers of ten. -/
def ofDecimal (mant : Nat) (e : Int) : Float :=
  if mant = 0 then 0.0 else
  let width : Int := (Nat.toDigits 10 mant).length
  if 311 < e + width then infinity
  else if e + width < -400 then 0.0
  else Float.ofScientific mant (e < 0) e.natAbs

/-- The exponent part after the mark: an optional sign and at least one digit, then nothing. -/
def readExponent? (cs : List Char) : Option Int :=
  let (neg, body) := match cs with
    | '+' :: r => (false, r)
    | '-' :: r => (true, r)
    | r => (false, r)
  let (ds, rest) := spanDigits body
  if ds.isEmpty || !rest.isEmpty then none
  else
    let v : Int := digitsValue ds
    some (if neg then -v else v)

/-- An unsigned decimal: digits, an optional point with digits, an optional exponent. -/
def readUnsigned? (cs : List Char) : Option Float :=
  let (whole, rest) := spanDigits cs
  let (frac, rest) := match rest with
    | '.' :: r => spanDigits r
    | r => ([], r)
  if whole.isEmpty && frac.isEmpty then none else
  let exp? : Option Int := match rest with
    | [] => some 0
    | c :: r => if c == 'e' || c == 'E' then readExponent? r else none
  exp?.map fun e => ofDecimal (digitsValue (whole ++ frac)) (e - frac.length)

/-- Reads a float by the grammar above; a leading `-` negates, also zero and infinity. -/
def readFloat? (s : String) : Option Float :=
  let cs := s.toList
  let (neg, body) := match cs with
    | '+' :: r => (false, r)
    | '-' :: r => (true, r)
    | r => (false, r)
  let word := String.ofList (body.map Char.toLower)
  let value? :=
    if body.isEmpty then none
    else if word == "inf" || word == "infinity" then some infinity
    else if word == "nan" then some notANumber
    else readUnsigned? body
  value?.map fun x => if neg then -x else x

/-- Reads an integer: an optional sign and one or more ASCII digits, of any length, rounded to a
float like any other decimal. -/
def readInteger? (s : String) : Option Float :=
  let body := match s.toList with
    | '+' :: r => r
    | '-' :: r => r
    | r => r
  if !body.isEmpty && body.all Char.isDigit then readFloat? s else none

end Arson.Number
