import Arson.Text.Distance
import Mathlib.Data.List.Infix
/-!
# The edit distance is the fewest edits

`Text.distance` fills the table of distances between the prefixes of two texts row by row.
`lev` gives the same numbers by the recursion on the first characters: drop the first character of
one text, of the other, or of both. The table holds `lev` of the reversed prefixes
(`editDistance_eq_lev`), since the recursion on the last characters is the recursion on the
first characters of the reversed texts.

An `Edit` inserts, deletes or replaces one character anywhere in a text, and `Edits n a b` says
that `n` edits turn `a` into `b`. Scripts of `lev a b` edits are built along the recursion
(`edits_lev`), and no script is shorter, since one edit changes the distance to any third text by
at most one (`Edit.lev_le`). The metric laws of `distance` then follow from the scripts: they can
be run backwards and one after another (`distance_fewest_edits`).
-/
namespace Arson.Text

/-! ## The distance by the first characters -/

/-- The edit distance by the first characters: the cheapest of dropping the first character of
the first text, of the second, or of both (free when they are equal). -/
def lev : List Char → List Char → Nat
  | [], ys => ys.length
  | x :: xs, [] => xs.length + 1
  | x :: xs, y :: ys =>
    min (min (lev xs (y :: ys) + 1) (lev (x :: xs) ys + 1)) (lev xs ys + if x = y then 0 else 1)

@[simp] theorem lev_nil_left (ys : List Char) : lev [] ys = ys.length := by
  rw [lev]

@[simp] theorem lev_nil_right (xs : List Char) : lev xs [] = xs.length := by
  cases xs with
  | nil => rw [lev]
  | cons x xs => rw [lev, List.length_cons]

theorem lev_cons_cons (x y : Char) (xs ys : List Char) :
    lev (x :: xs) (y :: ys) =
      min (min (lev xs (y :: ys) + 1) (lev (x :: xs) ys + 1))
        (lev xs ys + if x = y then 0 else 1) := by
  rw [lev]

theorem lev_cons_left_le (x y : Char) (xs ys : List Char) :
    lev (x :: xs) (y :: ys) ≤ lev xs (y :: ys) + 1 := by
  rw [lev_cons_cons]
  omega

theorem lev_cons_right_le (x y : Char) (xs ys : List Char) :
    lev (x :: xs) (y :: ys) ≤ lev (x :: xs) ys + 1 := by
  rw [lev_cons_cons]
  omega

theorem lev_cons_cons_le (x y : Char) (xs ys : List Char) :
    lev (x :: xs) (y :: ys) ≤ lev xs ys + if x = y then 0 else 1 := by
  rw [lev_cons_cons]
  omega

theorem lev_le_cons_right (xs : List Char) (y : Char) (ys : List Char) :
    lev xs (y :: ys) ≤ lev xs ys + 1 := by
  cases xs with
  | nil => simp
  | cons x xs => exact lev_cons_right_le x y xs ys

theorem lev_self (xs : List Char) : lev xs xs = 0 := by
  induction xs with
  | nil => simp
  | cons x xs ih =>
    have := lev_cons_cons_le x x xs xs
    simp only [ih, if_true] at this
    omega

theorem lev_le_max (xs ys : List Char) : lev xs ys ≤ max xs.length ys.length := by
  induction xs generalizing ys with
  | nil => simp
  | cons x xs ih =>
    cases ys with
    | nil => simp
    | cons y ys =>
      have hdiag := lev_cons_cons_le x y xs ys
      have hih := ih ys
      simp only [List.length_cons]
      split at hdiag <;> omega

/-! ## The table computes the distance of the reversed texts -/

/-- The entry of the table for two prefixes: the distance of the reversed texts. -/
def prefixDistance (p q : List Char) : Nat := lev p.reverse q.reverse

theorem prefixDistance_nil_left (q : List Char) : prefixDistance [] q = q.length := by
  simp [prefixDistance]

theorem prefixDistance_nil_right (p : List Char) : prefixDistance p [] = p.length := by
  simp [prefixDistance]

theorem prefixDistance_snoc (p q : List Char) (c d : Char) :
    prefixDistance (p ++ [c]) (q ++ [d]) =
      min (min (prefixDistance p (q ++ [d]) + 1) (prefixDistance (p ++ [c]) q + 1))
        (prefixDistance p q + if c = d then 0 else 1) := by
  simp only [prefixDistance, List.reverse_append, List.reverse_cons, List.reverse_nil,
    List.nil_append, List.singleton_append]
  rw [lev_cons_cons]

/-- One row of the table from the one before: the row of `p` over the prefixes of `bs` written
after `pre` gives the row of `p ++ [c]`, from its first entry on. -/
theorem nextRow_prefixes (c : Char) (p : List Char) :
    ∀ (bs pre : List Char),
      nextRow c bs (bs.inits.map fun q => prefixDistance p (pre ++ q))
          (prefixDistance (p ++ [c]) pre) =
        bs.inits.map fun q => prefixDistance (p ++ [c]) (pre ++ q)
  | [], pre => by simp [nextRow]
  | d :: bs, pre => by
    -- the row starts with the entries for `pre` and `pre ++ [d]`, the diagonal and the one above
    obtain ⟨rest, hrest⟩ : ∃ rest, bs.inits = [] :: rest := by
      cases bs <;> exact ⟨_, rfl⟩
    have ih := nextRow_prefixes c p bs (pre ++ [d])
    simp only [hrest, List.map_cons, List.append_assoc, List.singleton_append] at ih
    simp only [List.inits_cons, hrest, List.map_cons, List.map_map, Function.comp_def,
      List.append_nil]
    rw [nextRow, ← prefixDistance_snoc, ih]

/-- The row of the empty prefix counts the characters of each prefix. -/
theorem inits_map_length (b : List Char) :
    b.inits.map List.length = List.range (b.length + 1) := by
  induction b with
  | nil => rfl
  | cons d b ih =>
    rw [List.inits_cons, List.map_cons, List.map_map, List.length_cons, List.range_succ_eq_map,
      ← ih, List.map_map]
    rfl

theorem getLastD_inits_map {β : Type} (f : List Char → β) (b : List Char) (dflt : β) :
    (b.inits.map f).getLastD dflt = f b := by
  induction b generalizing f dflt with
  | nil => rfl
  | cons d b ih =>
    rw [List.inits_cons, List.map_cons, List.getLastD_cons, List.map_map]
    exact ih _ _

/-- The rows the table goes through: after the prefix `p` of the first text, the row of `p`. -/
theorem foldl_rows (b : List Char) :
    ∀ (a p : List Char),
      a.foldl (fun (row, i) c => (nextRow c b row (i + 1), i + 1))
          (b.inits.map (prefixDistance p), p.length) =
        (b.inits.map (prefixDistance (p ++ a)), (p ++ a).length)
  | [], p => by simp
  | c :: a, p => by
    rw [List.foldl_cons]
    have hrow := nextRow_prefixes c p b []
    simp only [List.nil_append, prefixDistance_nil_right, List.length_append,
      List.length_singleton] at hrow
    simp only [hrow]
    have := foldl_rows b a (p ++ [c])
    simp only [List.append_assoc, List.singleton_append, List.length_append,
      List.length_singleton] at this
    simpa only [List.length_append, List.length_singleton, Nat.add_assoc] using this

/-- The table ends with the distance of the reversed texts. -/
theorem editDistance_eq_lev (a b : List Char) : editDistance a b = lev a.reverse b.reverse := by
  have hfirst : List.range (b.length + 1) = b.inits.map (prefixDistance []) := by
    rw [← inits_map_length]
    exact List.map_congr_left fun q _ => (prefixDistance_nil_left q).symm
  have hrun := foldl_rows b a []
  simp only [List.nil_append, List.length_nil] at hrun
  simp only [editDistance, hfirst, hrun]
  exact getLastD_inits_map _ b 0

/-! ## Edits -/

/-- One edit: a character inserted, deleted or replaced by another, anywhere in the text. -/
inductive Edit : List Char → List Char → Prop
  | insert (l r : List Char) (c : Char) : Edit (l ++ r) (l ++ c :: r)
  | delete (l r : List Char) (c : Char) : Edit (l ++ c :: r) (l ++ r)
  | replace (l r : List Char) (c d : Char) : Edit (l ++ c :: r) (l ++ d :: r)

/-- `Edits n a b`: `n` edits, one after another, turn `a` into `b`. -/
inductive Edits : Nat → List Char → List Char → Prop
  | refl (a : List Char) : Edits 0 a a
  | step {n : Nat} {a b c : List Char} : Edit a b → Edits n b c → Edits (n + 1) a c

namespace Edit

variable {a b : List Char}

theorem symm (h : Edit a b) : Edit b a := by
  cases h with
  | insert l r c => exact .delete l r c
  | delete l r c => exact .insert l r c
  | replace l r c d => exact .replace l r d c

theorem cons (h : Edit a b) (x : Char) : Edit (x :: a) (x :: b) := by
  cases h with
  | insert l r c => exact .insert (x :: l) r c
  | delete l r c => exact .delete (x :: l) r c
  | replace l r c d => exact .replace (x :: l) r c d

theorem reverse (h : Edit a b) : Edit a.reverse b.reverse := by
  cases h with
  | insert l r c =>
    simpa using Edit.insert r.reverse l.reverse c
  | delete l r c =>
    simpa using Edit.delete r.reverse l.reverse c
  | replace l r c d =>
    simpa using Edit.replace r.reverse l.reverse c d

theorem length_le (h : Edit a b) : b.length ≤ a.length + 1 ∧ a.length ≤ b.length + 1 := by
  cases h <;> simp <;> omega

end Edit

namespace Edits

variable {m n : Nat} {a b c : List Char}

theorem single (h : Edit a b) : Edits 1 a b := .step h (.refl b)

theorem trans (h₁ : Edits m a b) (h₂ : Edits n b c) : Edits (m + n) a c := by
  induction h₁ with
  | refl => simpa using h₂
  | step he _ ih => simpa [Nat.add_right_comm] using Edits.step he (ih h₂)

theorem symm (h : Edits n a b) : Edits n b a := by
  induction h with
  | refl => exact .refl _
  | step he _ ih => exact ih.trans (single he.symm)

theorem cons (h : Edits n a b) (x : Char) : Edits n (x :: a) (x :: b) := by
  induction h with
  | refl => exact .refl _
  | step he _ ih => exact .step (he.cons x) ih

theorem reverse (h : Edits n a b) : Edits n a.reverse b.reverse := by
  induction h with
  | refl => exact .refl _
  | step he _ ih => exact .step he.reverse ih

theorem reverse_iff : Edits n a.reverse b.reverse ↔ Edits n a b :=
  ⟨fun h => by simpa using h.reverse, reverse⟩

theorem ofInserts (ys : List Char) : Edits ys.length [] ys := by
  induction ys with
  | nil => exact .refl _
  | cons y ys ih => exact ih.trans (single (by simpa using Edit.insert [] ys y))

theorem eq_of_zero (h : Edits 0 a b) : a = b := by
  cases h
  rfl

theorem length_le (h : Edits n a b) : b.length ≤ a.length + n ∧ a.length ≤ b.length + n := by
  induction h with
  | refl => omega
  | step he _ ih =>
    have := he.length_le
    omega

end Edits

private theorem min_min_cases (a b c : Nat) :
    min (min a b) c = a ∨ min (min a b) c = b ∨ min (min a b) c = c := by
  omega

/-- Scripts of `lev xs ys` edits, built along the recursion: the first character deleted, the
first character of the target inserted, or the first characters matched and replaced when they
differ. -/
theorem edits_lev : ∀ xs ys : List Char, Edits (lev xs ys) xs ys
  | [], ys => by simpa using Edits.ofInserts ys
  | x :: xs, [] => by simpa using (Edits.ofInserts (x :: xs)).symm
  | x :: xs, y :: ys => by
    have hdel : Edits (lev xs (y :: ys) + 1) (x :: xs) (y :: ys) :=
      .step (by simpa using Edit.delete [] xs x) (edits_lev xs (y :: ys))
    have hins : Edits (lev (x :: xs) ys + 1) (x :: xs) (y :: ys) :=
      (edits_lev (x :: xs) ys).trans (.single (by simpa using Edit.insert [] ys y))
    have hsub : Edits (lev xs ys + if x = y then 0 else 1) (x :: xs) (y :: ys) := by
      by_cases hxy : x = y
      · subst hxy
        simpa using (edits_lev xs ys).cons x
      · simpa [hxy] using ((edits_lev xs ys).cons x).trans
          (.single (by simpa using Edit.replace [] ys x y))
    -- the distance is one of the three costs, and each has its script
    rw [lev_cons_cons]
    rcases min_min_cases (lev xs (y :: ys) + 1) (lev (x :: xs) ys + 1)
      (lev xs ys + if x = y then 0 else 1) with h | h | h <;> rw [h]
    · exact hdel
    · exact hins
    · exact hsub
termination_by xs ys => xs.length + ys.length

/-! ## One edit moves the distance by one at most -/

/-- A bound of one between the distances from `xs` and from `ys` to every text survives one
character put before both. -/
theorem lev_cons_le {xs ys : List Char} (h : ∀ zs, lev xs zs ≤ lev ys zs + 1) (x : Char) :
    ∀ zs, lev (x :: xs) zs ≤ lev (x :: ys) zs + 1
  | [] => by simpa using h []
  | z :: zs => by
    have hdel := lev_cons_left_le x z xs zs
    have hins := lev_cons_right_le x z xs zs
    have hsub := lev_cons_cons_le x z xs zs
    have h₁ := h (z :: zs)
    have h₂ := lev_cons_le h x zs
    have h₃ := h zs
    rw [lev_cons_cons x z ys zs]
    omega

theorem lev_append_le {xs ys : List Char} (h : ∀ zs, lev xs zs ≤ lev ys zs + 1) :
    ∀ (l zs : List Char), lev (l ++ xs) zs ≤ lev (l ++ ys) zs + 1
  | [] => h
  | x :: l => lev_cons_le (lev_append_le h l) x

theorem lev_cons_le_lev (c : Char) (r : List Char) : ∀ zs, lev (c :: r) zs ≤ lev r zs + 1
  | [] => by simp
  | z :: zs => lev_cons_left_le c z r zs

theorem lev_le_lev_cons (c : Char) (r : List Char) : ∀ zs, lev r zs ≤ lev (c :: r) zs + 1
  | [] => by simp only [lev_nil_right, List.length_cons]; omega
  | z :: zs => by
    have hz := lev_le_cons_right r z zs
    have ih := lev_le_lev_cons c r zs
    rw [lev_cons_cons]
    omega

theorem lev_replace_le (c d : Char) (r : List Char) :
    ∀ zs, lev (c :: r) zs ≤ lev (d :: r) zs + 1
  | [] => by simp
  | z :: zs => by
    have hdel := lev_cons_left_le c z r zs
    have hins := lev_cons_right_le c z r zs
    have hsub := lev_cons_cons_le c z r zs
    have ih := lev_replace_le c d r zs
    have hcost : (if c = z then 0 else 1) ≤ (if d = z then 0 else 1) + 1 := by
      split <;> split <;> omega
    rw [lev_cons_cons d z r zs]
    omega

theorem Edit.lev_le {a b : List Char} (h : Edit a b) (zs : List Char) :
    lev a zs ≤ lev b zs + 1 := by
  cases h with
  | insert l r c => exact lev_append_le (lev_le_lev_cons c r) l zs
  | delete l r c => exact lev_append_le (lev_cons_le_lev c r) l zs
  | replace l r c d => exact lev_append_le (lev_replace_le c d r) l zs

/-- No script is shorter than the distance. -/
theorem lev_le_of_edits {n : Nat} {a b : List Char} (h : Edits n a b) : lev a b ≤ n := by
  induction h with
  | refl a => simp [lev_self]
  | @step n a b c he _ ih =>
    have := he.lev_le c
    omega

/-! ## The distance of two texts -/

theorem distance_eq_lev (a b : String) : distance a b = lev a.toList.reverse b.toList.reverse :=
  editDistance_eq_lev _ _

theorem edits_distance (a b : String) : Edits (distance a b) a.toList b.toList := by
  rw [distance_eq_lev, ← Edits.reverse_iff]
  exact edits_lev _ _

theorem distance_le_of_edits {n : Nat} {a b : String} (h : Edits n a.toList b.toList) :
    distance a b ≤ n := by
  rw [distance_eq_lev]
  exact lev_le_of_edits h.reverse

/-- The edit distance used for suggestions is the Levenshtein metric. -/
theorem distance_fewest_edits (a b c : String) :
    (Edits (distance a b) a.toList b.toList ∧
      ∀ n, Edits n a.toList b.toList → distance a b ≤ n) ∧
    distance a b = distance b a ∧
    (distance a b = 0 ↔ a = b) ∧
    (a.length - b.length ≤ distance a b ∧ b.length - a.length ≤ distance a b ∧
      distance a b ≤ max a.length b.length) ∧
    distance a c ≤ distance a b + distance b c := by
  have hab := edits_distance a b
  refine ⟨⟨hab, fun n h => distance_le_of_edits h⟩, ?_, ?_, ?_, ?_⟩
  · -- each script runs backwards
    exact Nat.le_antisymm (distance_le_of_edits (edits_distance b a).symm)
      (distance_le_of_edits hab.symm)
  · constructor
    · intro h0
      rw [h0] at hab
      exact String.toList_inj.mp hab.eq_of_zero
    · rintro rfl
      exact Nat.le_zero.mp (distance_le_of_edits (.refl _))
  · have hlen := hab.length_le
    simp only [String.length_toList] at hlen
    refine ⟨by omega, by omega, ?_⟩
    rw [distance_eq_lev]
    simpa [String.length_toList] using lev_le_max a.toList.reverse b.toList.reverse
  · -- a script from `a` to `b` followed by one from `b` to `c`
    exact distance_le_of_edits (hab.trans (edits_distance b c))

example : distance "kitten" "sitting" = 3 := by decide

end Arson.Text
