/-! # Binary64 values as exact naturals

A finite 64-bit float is `± m * 2^q` with a natural `m` and an integer `q`. This module reads the
bits of a `Float` into that form and writes such a form back, so that printing, remainder and
truncation are computed by exact arithmetic on naturals instead of by float operations.
-/
namespace Arson.Number

/-- A finite non-negative binary64 magnitude `m * 2^q`. -/
structure Binary where
  m : Nat
  q : Int
  /-- The gap to the value below is half the gap to the value above. -/
  narrowBelow : Bool
deriving Repr, DecidableEq

/-- What the bits of a float stand for. -/
inductive Decoded where
  | nan
  | infinite (negative : Bool)
  | finite (negative : Bool) (b : Binary)
deriving Repr, DecidableEq

/-- The sign bit, the biased exponent field and the fraction field of a bit pattern. -/
def fields (b : UInt64) : Bool × Nat × Nat :=
  (b >>> 63 == 1, ((b >>> 52) &&& 0x7FF).toNat, (b &&& 0xFFFFFFFFFFFFF).toNat)

/-- The magnitude that an exponent field below `0x7FF` and a fraction field stand for. -/
def Binary.ofFields (e f : Nat) : Binary :=
  if e == 0 then ⟨f, -1074, false⟩ else ⟨Nat.pow 2 52 + f, (e : Int) - 1075, f == 0 && e > 1⟩

/-- Reads a float: the all-ones exponent field is NaN or an infinity, the rest are finite. -/
def decode (x : Float) : Decoded :=
  let (neg, e, f) := fields x.toBits
  if e == 0x7FF then (if f == 0 then .infinite neg else .nan)
  else .finite neg (Binary.ofFields e f)

/-- The bit pattern of `m * 2^q` with `2^52 ≤ m < 2^53` after normalising; a value too large for a
finite float becomes infinity, and low bits that do not fit are dropped (callers pass values that
have an exact binary64 form). -/
def encodeMagnitude (m : Nat) (q : Int) : Nat :=
  if m = 0 then 0 else
  let shift : Int := (Nat.log2 m : Int) - 52
  let mm := if 0 ≤ shift then m >>> shift.toNat else m <<< (-shift).toNat
  let e := q + shift + 1075
  if 2047 ≤ e then 0x7FF0000000000000
  else if 1 ≤ e then e.toNat * Nat.pow 2 52 + (mm - Nat.pow 2 52)
  else mm >>> (1 - e).toNat

/-- The float `± m * 2^q`, exact whenever that value has a binary64 form. -/
def encode (negative : Bool) (m : Nat) (q : Int) : Float :=
  Float.ofBits (UInt64.ofNat ((if negative then Nat.pow 2 63 else 0) + encodeMagnitude m q))

/-- The value of a magnitude truncated toward zero, as a natural. -/
def Binary.trunc (b : Binary) : Nat :=
  if 0 ≤ b.q then b.m <<< b.q.toNat else b.m >>> (-b.q).toNat

def Binary.isZero (b : Binary) : Bool := b.m == 0

end Arson.Number
