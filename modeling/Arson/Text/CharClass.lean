/-! # Character classes as range tables

A class of characters is an ascending list of disjoint closed ranges of code points. Membership
is a binary search over the ranges.
-/
namespace Arson.Text

/-- A set of code points given by ascending, disjoint, closed ranges. -/
structure CharClass where
  ranges : Array (Nat × Nat)

/-- Whether a code point lies in one of the ranges between positions `lo` and `hi`. -/
def CharClass.searchCode (t : CharClass) (c lo hi : Nat) : Bool :=
  if _h : lo < hi then
    let mid := (lo + hi) / 2
    let (a, b) := t.ranges.getD mid (0, 0)
    if c < a then t.searchCode c lo mid
    else if b < c then t.searchCode c (mid + 1) hi
    else true
  else false
termination_by hi - lo

def CharClass.contains (t : CharClass) (c : Char) : Bool :=
  t.searchCode c.toNat 0 t.ranges.size

/-- Membership by a plain scan of all ranges: the meaning of the class. -/
def CharClass.mem (t : CharClass) (c : Char) : Bool :=
  t.ranges.any fun (a, b) => a ≤ c.toNat && c.toNat ≤ b

end Arson.Text
