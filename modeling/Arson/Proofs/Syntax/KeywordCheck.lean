import Arson.Proofs.Syntax.Respell
/-!
# The check of a keyword table

A table is checked keyword by keyword, in the order of `Keyword.all`: each spelling must be a
name (a letter, then letters, numerals or `_`) and must not be a spelling met before. The check
reports the first keyword that fails: its spelling is not a name, or it is the spelling of exactly
one earlier keyword, which the report names. So it passes exactly when every spelling is a name and
no two are the same, and a table that passes reads each of its spellings as its own keyword and no
other word as one.

The proof follows the check along the keywords: after a prefix that passed, the spellings seen are
those of the prefix (`seenAfter`), and what the rest of the check reports is read off the first
keyword of the rest that fails (`checkFrom_seenAfter`).
-/
namespace Arson.Syntax

namespace KeywordTable

variable {t : KeywordTable}

/-- A spelling a table accepts: a letter, then letters, numerals or `_`. -/
def WellSpelled (s : String) : Prop :=
  ∃ c cs, s.toList = c :: cs ∧ Text.isLetter c ∧ ∀ d ∈ cs, Text.isLetterOrNumeral d ∨ d = '_'

theorem isName_eq_true {s : String} : isName s = true ↔ WellSpelled s := by
  rw [isName_iff]
  simp [WellSpelled, isNameChar]

/-- The keywords `pre` pass the check: each is spelled by a name, and no two alike. -/
def Passes (t : KeywordTable) (pre : List Keyword) : Prop :=
  (∀ j ∈ pre, WellSpelled (t.spelling j)) ∧ (pre.map t.spelling).Nodup

/-- After the keywords `pre`, the keyword `k` fails the check with the fault `f`: its spelling is
not a name, or it is the spelling of one keyword `j` of `pre`; the fault's message says which. -/
def FailsAfter (t : KeywordTable) (pre : List Keyword) (k : Keyword) (f : Fault) : Prop :=
  (¬ WellSpelled (t.spelling k) ∧ f = .badSpelling k (t.spelling k) ∧
      f.message = "Keyword " ++ k.name ++ " has invalid spelling '" ++ t.spelling k ++ "'") ∨
    (WellSpelled (t.spelling k) ∧ ∃ j ∈ pre, t.spelling j = t.spelling k ∧
      (∀ j' ∈ pre, t.spelling j' = t.spelling k → j' = j) ∧
      f = .sharedSpelling (t.spelling k) j k ∧
      f.message = "Spelling '" ++ t.spelling k ++ "' is used by both " ++ j.name ++ " and " ++
        k.name)

/-- The spellings seen after checking `pre`, the latest first. -/
def seenAfter (t : KeywordTable) (pre : List Keyword) : List (String × Keyword) :=
  (pre.map fun j => (t.spelling j, j)).reverse

theorem seenAfter_concat (pre : List Keyword) (k : Keyword) :
    seenAfter t (pre ++ [k]) = (t.spelling k, k) :: seenAfter t pre := by
  simp [seenAfter]

theorem find?_seenAfter_eq_none {pre : List Keyword} {w : String} :
    (seenAfter t pre).find? (·.1 == w) = none ↔ w ∉ pre.map t.spelling := by
  simp [seenAfter, List.find?_eq_none]

theorem find?_seenAfter_eq_some {pre : List Keyword} {w x : String} {j : Keyword}
    (h : (seenAfter t pre).find? (·.1 == w) = some (x, j)) : j ∈ pre ∧ t.spelling j = w := by
  have hmem := List.mem_of_find?_eq_some h
  have hw := List.find?_some h
  simp only [seenAfter, List.mem_reverse, List.mem_map, Prod.mk.injEq] at hmem
  obtain ⟨j', hj', rfl, rfl⟩ := hmem
  exact ⟨hj', by simpa using hw⟩

namespace Passes

variable {pre : List Keyword}

theorem nil : Passes t [] := ⟨nofun, .nil⟩

/-- One more keyword passes when its spelling is a name that was not seen. -/
theorem concat (h : Passes t pre) {k : Keyword} (hk : WellSpelled (t.spelling k))
    (hnew : t.spelling k ∉ pre.map t.spelling) : Passes t (pre ++ [k]) := by
  refine ⟨fun j hj => ?_, ?_⟩
  · rcases List.mem_append.mp hj with hj | hj
    · exact h.1 j hj
    · rw [List.mem_singleton.mp hj]
      exact hk
  · rw [List.map_append, List.nodup_append]
    refine ⟨h.2, List.nodup_singleton _, fun a ha b hb hab => hnew ?_⟩
    rw [List.map_singleton, List.mem_singleton] at hb
    rwa [← hb, ← hab]

theorem unique (h : Passes t pre) {j j' : Keyword} (hj : j ∈ pre) (hj' : j' ∈ pre)
    (hs : t.spelling j' = t.spelling j) : j' = j :=
  List.inj_on_of_nodup_map h.2 hj' hj hs

theorem after {k : Keyword} {post : List Keyword} (h : Passes t (pre ++ k :: post)) :
    WellSpelled (t.spelling k) ∧ t.spelling k ∉ pre.map t.spelling := by
  refine ⟨h.1 k (by simp), fun hmem => ?_⟩
  have hnd := h.2
  rw [List.map_append, List.nodup_append] at hnd
  exact hnd.2.2 _ hmem _ (List.mem_map_of_mem List.mem_cons_self) rfl

theorem of_append {post : List Keyword} (h : Passes t (pre ++ post)) : Passes t pre :=
  ⟨fun j hj => h.1 j (List.mem_append_left _ hj),
    (List.map_append ▸ h.2 : (pre.map t.spelling ++ post.map t.spelling).Nodup).of_append_left⟩

end Passes

theorem failsAfter_of_passes {pre post : List Keyword} {k : Keyword} {f : Fault}
    (h : Passes t (pre ++ k :: post)) : ¬ FailsAfter t pre k f := by
  obtain ⟨hk, hnew⟩ := h.after
  rintro (⟨hbad, -⟩ | ⟨-, j, hj, hjk, -⟩)
  · exact hbad hk
  · exact hnew (hjk ▸ List.mem_map_of_mem hj)

/-- The first keyword of `k :: ks` to fail after `pre₀` is `k` itself, or, once `k` has passed,
the first of `ks` to fail. -/
theorem firstFail_cons {pre₀ ks : List Keyword} {k : Keyword} {f : Fault} :
    (∃ pre k' post, k :: ks = pre ++ k' :: post ∧ Passes t (pre₀ ++ pre) ∧
        FailsAfter t (pre₀ ++ pre) k' f) ↔
      (Passes t pre₀ ∧ FailsAfter t pre₀ k f) ∨
        (Passes t (pre₀ ++ [k]) ∧ ∃ pre k' post, ks = pre ++ k' :: post ∧
          Passes t (pre₀ ++ [k] ++ pre) ∧ FailsAfter t (pre₀ ++ [k] ++ pre) k' f) := by
  constructor
  · rintro ⟨pre, k', post, hks, hpass, hfail⟩
    cases pre with
    | nil =>
      obtain ⟨rfl, rfl⟩ := List.cons.inj hks
      exact .inl ⟨by simpa using hpass, by simpa using hfail⟩
    | cons k'' pre' =>
      obtain ⟨rfl, rfl⟩ := List.cons.inj hks
      have hpass' : Passes t (pre₀ ++ [k] ++ pre') := by simpa using hpass
      exact .inr ⟨hpass'.of_append, pre', k', post, rfl, hpass', by simpa using hfail⟩
  · rintro (⟨hpass, hfail⟩ | ⟨-, pre, k', post, rfl, hpass, hfail⟩)
    · exact ⟨[], k, ks, rfl, by simpa using hpass, by simpa using hfail⟩
    · exact ⟨k :: pre, k', post, rfl, by simpa using hpass, by simpa using hfail⟩

/-- The check goes on from the keywords `pre₀` that passed: what it reports is the first keyword of
the rest that fails, after the keywords before it passed. -/
theorem checkFrom_seenAfter : ∀ (ks pre₀ : List Keyword), Passes t pre₀ → ∀ f : Fault,
    t.checkFrom (seenAfter t pre₀) ks = some f ↔
      ∃ pre k post, ks = pre ++ k :: post ∧ Passes t (pre₀ ++ pre) ∧
        FailsAfter t (pre₀ ++ pre) k f
  | [], _, _, f => by simp [checkFrom]
  | k :: ks, pre₀, h₀, f => by
    rw [firstFail_cons]
    simp only [checkFrom]
    by_cases hk : WellSpelled (t.spelling k)
    · rw [(isName_eq_true.mpr hk : isName (t.spelling k) = true)]
      simp only [Bool.not_true, Bool.false_eq_true, if_false]
      cases hfind : (seenAfter t pre₀).find? (·.1 == t.spelling k) with
      | some p =>
        -- the spelling was seen: `k` fails, naming the one earlier keyword with it
        obtain ⟨x, j⟩ := p
        obtain ⟨hj, hjk⟩ := find?_seenAfter_eq_some hfind
        have hseen : t.spelling k ∈ pre₀.map t.spelling := hjk ▸ List.mem_map_of_mem hj
        rw [or_iff_left fun h => h.1.after.2 hseen, Option.some.injEq]
        constructor
        · rintro rfl
          exact ⟨h₀, .inr ⟨hk, j, hj, hjk,
            fun j' hj' hs => h₀.unique hj hj' (hs.trans hjk.symm), rfl, rfl⟩⟩
        · rintro ⟨-, ⟨hbad, -⟩ | ⟨-, j', hj', hjk', -, rfl, -⟩⟩
          · exact absurd hk hbad
          · rw [h₀.unique hj hj' (hjk'.trans hjk.symm)]
      | none =>
        -- a new name: `k` passes and the check goes on with it among the keywords that passed
        have hpass := h₀.concat hk (find?_seenAfter_eq_none.mp hfind)
        rw [or_iff_right fun h => failsAfter_of_passes hpass h.2, and_iff_right hpass,
          ← seenAfter_concat]
        exact checkFrom_seenAfter ks (pre₀ ++ [k]) hpass f
    · -- not a name: `k` fails for its spelling
      rw [(Bool.not_eq_true _).mp (mt isName_eq_true.mp hk)]
      simp only [Bool.not_false, if_true, Option.some.injEq]
      rw [or_iff_left fun h => hk h.1.after.1]
      constructor
      · rintro rfl
        exact ⟨h₀, .inl ⟨hk, rfl, rfl⟩⟩
      · rintro ⟨-, ⟨-, rfl, -⟩ | ⟨hgood, -⟩⟩
        · rfl
        · exact absurd hgood hk

/-- The table check reports the first bad keyword in table order, and a table that passes reads
exactly its spellings as keywords. -/
theorem keyword_check_first_fault (t : KeywordTable) :
    (t.fault? = none ↔ (∀ k, WellSpelled (t.spelling k)) ∧ Function.Injective t.spelling) ∧
    (∀ f, t.fault? = some f ↔
      ∃ pre k post, Keyword.all = pre ++ k :: post ∧ Passes t pre ∧ FailsAfter t pre k f) ∧
    (t.fault? = none → ∀ w k, t.keywordOf? w = some k ↔ t.spelling k = w) := by
  have hsome : ∀ f, t.fault? = some f ↔
      ∃ pre k post, Keyword.all = pre ++ k :: post ∧ Passes t pre ∧ FailsAfter t pre k f := by
    intro f
    simpa only [fault?, seenAfter, List.map_nil, List.reverse_nil, List.nil_append] using
      checkFrom_seenAfter Keyword.all [] Passes.nil f
  refine ⟨⟨fun h => ⟨?_, spelling_injective h⟩, fun ⟨hall, hinj⟩ => ?_⟩, hsome,
    fun h _ _ => keywordOf?_eq_some_iff h⟩
  · exact fun k => isName_eq_true.mp (isName_spelling h k)
  · -- every keyword passes, so none is the first to fail
    have hpass : Passes t Keyword.all :=
      ⟨fun k _ => hall k, Keyword.all_nodup.map hinj⟩
    cases hf : t.fault? with
    | none => rfl
    | some f =>
      obtain ⟨pre, k, post, hall', -, hfail⟩ := (hsome f).mp hf
      exact absurd hfail (failsAfter_of_passes (hall' ▸ hpass))

/-- The standard table passes, so it reads each spelling as its keyword. -/
theorem standard_reads_its_spellings :
    standard.fault? = none ∧ ∀ w k, standard.keywordOf? w = some k ↔ standard.spelling k = w :=
  have h : standard.fault? = none := by decide
  ⟨h, (keyword_check_first_fault standard).2.2 h⟩

/-- Spelling `var` as `for` is reported at `for`, the later of the two. -/
example : (standard.set .varKw "for").fault? = some (.sharedSpelling "for" .varKw .forKw) := by
  decide

end KeywordTable

end Arson.Syntax
