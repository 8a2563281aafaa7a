import Arson.Value.Basic
/-! # Equality of values

Equality is structural and sees through cycles: two containers are equal when they are the same
cell, or when they are being compared already further up (the pair is open), or when their items
(for dicts: their keys and values) are equal one by one. Numbers compare as floats, so NaN differs
from itself unless it sits in the same container; functions are equal only as the same cell,
builtins by their name, and methods by their name and their container.
-/
namespace Arson

/-- Equality with the container pairs in `opened` being compared already. -/
def Value.equalUnder (h : Heap) (opened : List (Ref × Ref)) (a b : Value) : Bool :=
  match a, b with
  | .number x, .number y => x == y
  | .str x, .str y => x == y
  | .bool x, .bool y => x == y
  | .null, .null => true
  | .builtin x, .builtin y => x == y
  | .function r, .function s => r == s
  | .method p m, .method q n => m == n && p == q
  | .array r, .array s =>
    if r = s ∨ (r, s) ∈ opened then true
    else if _hp : opened.length < h.size * h.size then
      let xs := (h.items r).toList
      let ys := (h.items s).toList
      xs.length == ys.length &&
        (xs.zip ys).all fun (x, y) => Value.equalUnder h ((r, s) :: opened) x y
    else true
  | .dict r, .dict s =>
    if r = s ∨ (r, s) ∈ opened then true
    else if _hp : opened.length < h.size * h.size then
      let xs := h.entries r
      let ys := h.entries s
      xs.length == ys.length &&
        (xs.zip ys).all fun ((k, x), (k', y)) =>
          k == k' && Value.equalUnder h ((r, s) :: opened) x y
    else true
  | _, _ => false
termination_by h.size * h.size - opened.length

def Value.equal (h : Heap) (a b : Value) : Bool := Value.equalUnder h [] a b

end Arson
