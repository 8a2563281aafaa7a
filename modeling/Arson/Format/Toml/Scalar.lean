import Arson.Format.Toml.Lexical
import Arson.Number.Reading
/-! # Numbers and dates in TOML

Integers are decimal, with an optional sign and no leading zero, or hexadecimal, octal or binary
after `0x`, `0o` or `0b`; digits may be parted by single underscores, and the value must fit in 64
signed bits. A float is a decimal integer part followed by a fraction, an exponent or both, or
`inf` or `nan` with an optional sign; a decimal too large for a float is refused, but only when
positive. Dates and times follow RFC 3339: a full date, optionally followed by `T`, `t` or a space
and a time with an optional offset, or a time alone; months, days, hours, minutes and seconds are
checked against their ranges, days against the length of their month.
-/
namespace Arson.Format.Toml

/-- The cause of a number that does not fit in 64 signed bits, by its sign. -/
def tooLarge : String := "number too large to fit in target type"

/-- The cause of a negative number that does not fit in 64 signed bits. -/
def tooSmall : String := "number too small to fit in target type"

/-- The cause of a date or time field outside its range. -/
def outOfRange : String := "value is out of range"

/-- Whether the character at a position is of a class. -/
def isAt (cs : Array Char) (p : Char → Bool) (i : Nat) : Bool :=
  match cs[i]? with
  | some c => p c
  | none => false

/-- Further digits of a class from `i`, single underscores allowed between digits. -/
def digitTail (cs : Array Char) (ok : Char → Bool) (i : Nat) : Read Unit :=
  if h : i < cs.size then
    if ok cs[i] then digitTail cs ok (i + 1)
    else if cs[i] == '_' then
      if isAt cs ok (i + 1) then digitTail cs ok (i + 2)
      else .error (stop (i + 1) [.expected "digit"])
    else .ok ((), i)
  else .ok ((), i)
termination_by cs.size - i

/-- Digits of a class from `i`, the first one required. -/
def digitRun (cs : Array Char) (ok : Char → Bool) (i : Nat) : Read Unit :=
  if isAt cs ok i then digitTail cs ok (i + 1) else .error (miss i)

/-- The position after an optional sign at `i`, and whether it is a minus. -/
def signAt (cs : Array Char) (i : Nat) : Bool × Nat :=
  if cs[i]? == some '-' then (true, i + 1)
  else if cs[i]? == some '+' then (false, i + 1)
  else (false, i)

/-- A decimal integer: an optional sign, then `0` or digits not starting with `0`. -/
def decimalInt (cs : Array Char) (i : Nat) : Read Unit :=
  let j := (signAt cs i).2
  let r : Read Unit := match cs[j]? with
    | some c =>
      if '1' ≤ c && c ≤ '9' then digitTail cs Char.isDigit (j + 1)
      else if c == '0' then .ok ((), j + 1)
      else .error (miss j)
    | none => .error (miss j)
  r.addNotes [.label "integer"]

/-- The value of digits in a base, underscores passed over. -/
def digitsIn (base : Nat) (ds : List Char) : Nat :=
  (ds.filter (· ≠ '_')).foldl (fun acc c => base * acc + hexValue [c]) 0

/-- Integers in the range of 64 signed bits are below this bound in magnitude, or equal to it when
negative. -/
def wordBound : Nat := Nat.pow 2 63

/-- An integer in base 16, 8 or 2 after its two-character prefix at `i`. -/
def radixInt (cs : Array Char) (i base : Nat) (ok : Char → Bool) (label : String) : Read Int :=
  match digitRun cs ok (i + 2) with
  | .error f => .error (f.addNotes [.label label]).cut
  | .ok (_, e) =>
    let v := digitsIn base (cs.extract (i + 2) e).toList
    if v ≥ wordBound then .error (stopWith i tooLarge) else .ok (v, e)

/-- An integer at `i`. -/
def integer (cs : Array Char) (i : Nat) : Read Int :=
  match cs[i]?, cs[i + 1]? with
  | some '0', some 'x' => radixInt cs i 16 isHexDigit "hexadecimal integer"
  | some '0', some 'o' => radixInt cs i 8 (fun c => '0' ≤ c && c ≤ '7') "octal integer"
  | some '0', some 'b' => radixInt cs i 2 (fun c => c == '0' || c == '1') "binary integer"
  | _, _ =>
    match decimalInt cs i with
    | .error f => .error f
    | .ok (_, e) =>
      let (neg, j) := signAt cs i
      let v := digitsIn 10 (cs.extract j e).toList
      if neg then
        if v > wordBound then .error (stopWith i tooSmall) else .ok (-(v : Int), e)
      else if v ≥ wordBound then .error (stopWith i tooLarge) else .ok (v, e)

/-- Digits at `i`, the first required, underscores allowed between them. -/
def plainDigits (cs : Array Char) (i : Nat) : Read Unit := digitRun cs Char.isDigit i

/-- An exponent at `p`: `e` or `E`, an optional sign, digits. -/
def exponent (cs : Array Char) (p : Nat) : Read Unit :=
  if cs[p]? == some 'e' || cs[p]? == some 'E' then (plainDigits cs (signAt cs (p + 1)).2).cut
  else .error (miss p)

/-- A fraction at `p`: a point and digits. -/
def fraction (cs : Array Char) (p : Nat) : Read Unit :=
  if cs[p]? == some '.' then ((plainDigits cs (p + 1)).addNotes [.expected "digit"]).cut
  else .error (miss p)

/-- The text of a decimal float at `i`: an integer part, then an exponent, or a fraction with an
optional exponent. -/
def floatText (cs : Array Char) (i : Nat) : Read Unit :=
  match decimalInt cs i with
  | .error f => .error f
  | .ok (_, e) =>
    (exponent cs e).orElse fun _ =>
      match fraction cs e with
      | .error f => .error f
      | .ok (_, q) => (exponent cs q).orElse fun _ => .ok ((), q)

/-- `inf` or `nan` with an optional sign at `i`. -/
def specialFloat (cs : Array Char) (i : Nat) : Read Float :=
  let (neg, j) := signAt cs i
  let word := textOf cs j (j + 3)
  let sign (x : Float) : Float := if neg then -x else x
  if word == "inf" then .ok (sign Number.infinity, j + 3)
  else if word == "nan" then .ok (sign Number.notANumber, j + 3)
  else .error (miss j)

/-- A float at `i`. -/
def float (cs : Array Char) (i : Nat) : Read Float :=
  let decimal : Read Float := match floatText cs i with
    | .error f => .error f
    | .ok (_, e) =>
      let text := String.ofList ((cs.extract i e).toList.filter (· ≠ '_'))
      match Number.readFloat? text with
      | some x => if x == Number.infinity then .error (stop i []) else .ok (x, e)
      | none => .error (stop i [])
  (decimal.orElse fun _ => specialFloat cs i).addNotes [.label "floating-point number"]

/-- The value of exactly `n` digits at `i`. -/
def digitsExactly (cs : Array Char) (i n : Nat) : Option Nat :=
  let ds := (cs.extract i (i + n)).toList
  if ds.length == n && ds.all Char.isDigit then some (digitsIn 10 ds) else none

/-- A two-digit field at `i` within a range; outside it, the fault ends the reading. -/
def rangedField (cs : Array Char) (i lo hi : Nat) : Read Nat :=
  match digitsExactly cs i 2 with
  | none => .error (stop i [])
  | some v => if lo ≤ v && v ≤ hi then .ok (v, i + 2) else .error (stopWith i outOfRange)

/-- The days of a month of a year. -/
def daysIn (year month : Nat) : Nat :=
  let leap := year % 4 == 0 && (year % 100 != 0 || year % 400 == 0)
  if month == 2 then (if leap then 29 else 28)
  else if month == 4 || month == 6 || month == 9 || month == 11 then 30
  else 31

/-- A mark at a position, whose absence ends the reading. -/
def markAt (cs : Array Char) (c : Char) (i : Nat) : Read Unit :=
  if cs[i]? == some c then .ok ((), i + 1) else .error (stop i [])

/-- A full date at `i`: year, month and day. -/
def fullDate (cs : Array Char) (i : Nat) : Read Unit :=
  match digitsExactly cs i 4 with
  | none => .error (miss i)
  | some year =>
    if cs[i + 4]? != some '-' then .error (miss (i + 4))
    else show Except Failure (Unit × Nat) from do
      let (month, p) ← rangedField cs (i + 5) 1 12
      let (_, d) ← markAt cs '-' p
      let (day, e) ← rangedField cs d 1 31
      if day > daysIn year month then .error (stopWith d outOfRange) else pure ((), e)

/-- A time at `i`: hour, minute, second and an optional fraction of a second. An hour out of range
lets an alternative be tried. -/
def partialTime (cs : Array Char) (i : Nat) : Read Unit :=
  match digitsExactly cs i 2 with
  | none => .error (miss i)
  | some hour =>
    if hour > 23 then .error (miss i)
    else if cs[i + 2]? != some ':' then .error (miss (i + 2))
    else show Except Failure (Unit × Nat) from do
      let (_, p) ← rangedField cs (i + 3) 0 59
      let (_, q) ← markAt cs ':' p
      let (_, s) ← rangedField cs q 0 60
      if cs[s]? == some '.' && isAt cs Char.isDigit (s + 1) then
        pure ((), scan cs Char.isDigit (s + 1))
      else pure ((), s)

/-- A time offset at `p`: `Z`, `z`, or a sign, hours and minutes. -/
def timeOffset (cs : Array Char) (p : Nat) : Read Unit :=
  let r : Read Unit :=
    if cs[p]? == some 'Z' || cs[p]? == some 'z' then .ok ((), p + 1)
    else if cs[p]? == some '+' || cs[p]? == some '-' then show Except Failure (Unit × Nat) from do
      let (_, h) ← rangedField cs (p + 1) 0 23
      let (_, m) ← markAt cs ':' h
      let (_, e) ← rangedField cs m 0 59
      pure ((), e)
    else .error (miss p)
  r.addNotes [.label "time offset"]

/-- A date, a date and time, or a time, at `i`. -/
def dateTime (cs : Array Char) (i : Nat) : Read Unit :=
  let dated : Read Unit := match fullDate cs i with
    | .error f => .error f
    | .ok (_, d) =>
      if cs[d]? == some 'T' || cs[d]? == some 't' || cs[d]? == some ' ' then
        match partialTime cs (d + 1) with
        | .error f => if f.final then .error f else .ok ((), d)
        | .ok (_, t) => (timeOffset cs t).orElse fun _ => .ok ((), t)
      else .ok ((), d)
  (dated.addNotes [.label "date-time"]).orElse fun _ =>
    (partialTime cs i).addNotes [.label "time"]

end Arson.Format.Toml
