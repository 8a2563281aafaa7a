/-! # Edit distance and the nearest name

The edit distance of two texts is the least number of single-character insertions, deletions and
substitutions that turn one into the other, computed row by row. The nearest name to a target is
the first candidate, in order, at the least distance, provided that distance is at most three.
-/
namespace Arson.Text

/-- The next row of the distance table: `prev` holds the distances from the prefix before `c` to
every prefix of `b`, and `left` the distance from the prefix through `c` to the empty text. -/
def nextRow (c : Char) : List Char → List Nat → Nat → List Nat
  | d :: bs, diag :: up :: ps, left =>
    let here := min (min (up + 1) (left + 1)) (diag + if c = d then 0 else 1)
    left :: nextRow c bs (up :: ps) here
  | _, _, left => [left]

/-- The edit distance of two lists of characters. -/
def editDistance (a b : List Char) : Nat :=
  let first := List.range (b.length + 1)
  let (last, _) := a.foldl (fun (row, i) c => (nextRow c b row (i + 1), i + 1)) (first, 0)
  last.getLastD 0

/-- The edit distance of two texts, over characters. -/
def distance (a b : String) : Nat := editDistance a.toList b.toList

/-- The first candidate at the least distance from the target, if that distance is at most 3. -/
def nearest (target : String) (candidates : List String) : Option String :=
  let step (best : Option (String × Nat)) (cand : String) : Option (String × Nat) :=
    let d := distance target cand
    match best with
    | some (_, bd) => if d ≤ 3 && d < bd then some (cand, d) else best
    | none => if d ≤ 3 then some (cand, d) else none
  (candidates.foldl step none).map Prod.fst

/-- The candidate at the least distance from the target when it is the only name at that
distance, and that distance is at most 3. -/
def uniqueNearest (target : String) (candidates : List String) : Option String :=
  match nearest target candidates with
  | none => none
  | some best =>
    let d := distance target best
    let tied := (candidates.filter fun c => distance target c == d).eraseDups
    if tied.length == 1 then some best else none

end Arson.Text
