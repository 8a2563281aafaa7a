import Arson.Proofs.Eval.Exec
/-!
# The nearest name, whatever the order of the candidates

`Text.nearest` goes through the candidates once, keeping the first one met at the least distance
so far, within three. So it finds a name exactly when some candidate is within three, and the name
it finds is within three and no farther than any other candidate (`nearest_spec`). Which of
several names at the least distance it finds depends on the order the candidates come in; when
one name alone is nearest (`SoleNearest`), every order finds it (`nearest_perm`). In a given
order it finds the first of the nearest names (`first_nearest_name`), and that is the name a
missing name suggests, among the visible names and then the builtins.
-/
namespace Arson.Text

/-- One step of the search for the nearest name: a candidate replaces the best so far when it
is within three and strictly nearer. -/
def nearestStep (target : String) (best : Option (String × Nat)) (cand : String) :
    Option (String × Nat) :=
  let d := distance target cand
  match best with
  | some (_, bd) => if d ≤ 3 && d < bd then some (cand, d) else best
  | none => if d ≤ 3 then some (cand, d) else none

theorem nearest_eq_foldl (target : String) (candidates : List String) :
    nearest target candidates = (candidates.foldl (nearestStep target) none).map Prod.fst := rfl

/-- What the search holds after the candidates `seen`: nothing when none of them is within three,
or one of them within three, with its distance, at least as near as each of them. -/
def Found (target : String) (seen : List String) : Option (String × Nat) → Prop
  | none => ∀ c ∈ seen, 3 < distance target c
  | some (c, d) => d = distance target c ∧ c ∈ seen ∧ d ≤ 3 ∧
      ∀ x ∈ seen, distance target x ≤ 3 → d ≤ distance target x

section Search

variable {target : String}

theorem found_nil (target : String) : Found target [] none := fun _ h => nomatch h

/-- One step keeps what the search holds. -/
theorem Found.step {seen : List String} {best : Option (String × Nat)} (h : Found target seen best)
    (cand : String) : Found target (seen ++ [cand]) (nearestStep target best cand) := by
  cases best with
  | none =>
    dsimp only [nearestStep]
    by_cases hc : distance target cand ≤ 3
    · rw [if_pos hc]
      refine ⟨rfl, by simp, hc, fun x hx _ => ?_⟩
      rcases List.mem_append.mp hx with hx | hx
      · exact absurd (h x hx) (by omega)
      · obtain rfl := List.mem_singleton.mp hx
        exact Nat.le_refl _
    · rw [if_neg hc]
      intro x hx
      rcases List.mem_append.mp hx with hx | hx
      · exact h x hx
      · obtain rfl := List.mem_singleton.mp hx
        omega
  | some best =>
    obtain ⟨c, d⟩ := best
    obtain ⟨hd, hc, hd3, hmin⟩ := h
    dsimp only [nearestStep]
    by_cases hnear : distance target cand ≤ 3 ∧ distance target cand < d
    · rw [if_pos (by simpa using hnear)]
      refine ⟨rfl, by simp, hnear.1, fun x hx hx3 => ?_⟩
      rcases List.mem_append.mp hx with hx | hx
      · exact Nat.le_of_lt (Nat.lt_of_lt_of_le hnear.2 (hmin x hx hx3))
      · obtain rfl := List.mem_singleton.mp hx
        exact Nat.le_refl _
    · rw [if_neg (by simpa using hnear)]
      refine ⟨hd, List.mem_append_left _ hc, hd3, fun x hx hx3 => ?_⟩
      rcases List.mem_append.mp hx with hx | hx
      · exact hmin x hx hx3
      · obtain rfl := List.mem_singleton.mp hx
        omega

/-- The whole search keeps what the search holds. -/
theorem Found.foldl {seen : List String} {best : Option (String × Nat)}
    (h : Found target seen best) (cs : List String) :
    Found target (seen ++ cs) (cs.foldl (nearestStep target) best) := by
  induction cs generalizing seen best with
  | nil => simpa using h
  | cons c rest ih =>
    have hstep := ih (h.step c)
    rwa [List.append_assoc, List.singleton_append] at hstep

/-- The nearest name: none when no candidate is within three, else a candidate within three,
at least as near as every candidate within three. -/
theorem nearest_spec (target : String) (cs : List String) :
    (nearest target cs = none ↔ ∀ c ∈ cs, 3 < distance target c) ∧
    ∀ c, nearest target cs = some c →
      c ∈ cs ∧ distance target c ≤ 3 ∧ ∀ x ∈ cs, distance target x ≤ 3 →
        distance target c ≤ distance target x := by
  have hfound := (found_nil target).foldl cs
  rw [List.nil_append] at hfound
  rw [nearest_eq_foldl]
  revert hfound
  cases cs.foldl (nearestStep target) none with
  | none => exact fun hfound => ⟨⟨fun _ => hfound, fun _ => rfl⟩, fun _ h => nomatch h⟩
  | some best =>
    obtain ⟨b, d⟩ := best
    rintro ⟨rfl, hb, hd3, hmin⟩
    refine ⟨⟨(fun h => nomatch h), fun hall => absurd (hall b hb) (by omega)⟩, ?_⟩
    rintro c ⟨⟩
    exact ⟨hb, hd3, hmin⟩

end Search

/-- `c` is the one candidate nearest to the target, and within three of it: every candidate as
near is `c` itself. -/
def SoleNearest (target : String) (cs : List String) (c : String) : Prop :=
  c ∈ cs ∧ distance target c ≤ 3 ∧
    ∀ x ∈ cs, distance target x ≤ distance target c → x = c

theorem nearest_of_sole {target c : String} {cs : List String} (h : SoleNearest target cs c) :
    nearest target cs = some c := by
  obtain ⟨hnone, hsome⟩ := nearest_spec target cs
  cases hn : nearest target cs with
  | none => exact absurd (hnone.mp hn c h.1) (by have := h.2.1; omega)
  | some b =>
    obtain ⟨hb, -, hmin⟩ := hsome b hn
    rw [h.2.2 b hb (hmin c h.1 h.2.1)]

theorem SoleNearest.perm {target c : String} {cs cs' : List String} (h : SoleNearest target cs c)
    (hp : cs.Perm cs') : SoleNearest target cs' c :=
  ⟨hp.subset h.1, h.2.1, fun x hx => h.2.2 x (hp.symm.subset hx)⟩

/-- The nearest name does not depend on the order of the candidates when one name alone is
nearest, nor when none is within three. -/
theorem nearest_perm {target : String} {cs cs' : List String} (hp : cs.Perm cs')
    (h : (∃ c, SoleNearest target cs c) ∨ ∀ c ∈ cs, 3 < distance target c) :
    nearest target cs = nearest target cs' := by
  rcases h with ⟨c, hc⟩ | hfar
  · rw [nearest_of_sole hc, nearest_of_sole (hc.perm hp)]
  · rw [(nearest_spec target cs).1.mpr hfar,
      (nearest_spec target cs').1.mpr fun c hc => hfar c (hp.symm.subset hc)]

/-- With two names equally near, the order of the candidates decides. -/
example : nearest "ab" ["aa", "bb"] = some "aa" ∧ nearest "ab" ["bb", "aa"] = some "bb" := by
  decide

/-! ### The first of the nearest names -/

section First

variable {target : String}

/-- Where the name found so far stands among the candidates seen: every candidate before it is
farther. -/
def FirstFound (target : String) (seen : List String) : Option (String × Nat) → Prop
  | none => True
  | some (c, d) => ∃ pre post, seen = pre ++ c :: post ∧ ∀ x ∈ pre, d < distance target x

/-- One step keeps the name found the first of the nearest: a candidate replaces it only when
strictly nearer than every candidate before. -/
theorem FirstFound.step {seen : List String} {best : Option (String × Nat)}
    (hf : Found target seen best) (h : FirstFound target seen best) (cand : String) :
    FirstFound target (seen ++ [cand]) (nearestStep target best cand) := by
  cases best with
  | none =>
    dsimp only [nearestStep]
    by_cases hc : distance target cand ≤ 3
    · rw [if_pos hc]
      exact ⟨seen, [], rfl, fun x hx => Nat.lt_of_le_of_lt hc (hf x hx)⟩
    · rw [if_neg hc]
      trivial
  | some best =>
    obtain ⟨c, d⟩ := best
    obtain ⟨-, -, -, hmin⟩ := hf
    obtain ⟨pre, post, hseen, hpre⟩ := h
    dsimp only [nearestStep]
    by_cases hnear : distance target cand ≤ 3 ∧ distance target cand < d
    · rw [if_pos (by simpa using hnear)]
      refine ⟨seen, [], rfl, fun x hx => ?_⟩
      by_cases hx3 : distance target x ≤ 3
      · exact Nat.lt_of_lt_of_le hnear.2 (hmin x hx hx3)
      · omega
    · rw [if_neg (by simpa using hnear)]
      exact ⟨pre, post ++ [cand], by rw [hseen, List.append_assoc, List.cons_append], hpre⟩

theorem FirstFound.foldl {seen : List String} {best : Option (String × Nat)}
    (hf : Found target seen best) (h : FirstFound target seen best) (cs : List String) :
    FirstFound target (seen ++ cs) (cs.foldl (nearestStep target) best) := by
  induction cs generalizing seen best with
  | nil => simpa using h
  | cons c rest ih =>
    have hstep := ih (hf.step c) (h.step hf c)
    rwa [List.append_assoc, List.singleton_append] at hstep

/-- The nearest name is the first candidate, in order, at the least distance of all candidates,
when that distance is at most three; with no candidate within three there is none. -/
theorem nearest_first (target : String) (cs : List String) :
    (nearest target cs = none ↔ ∀ c ∈ cs, 3 < distance target c) ∧
    ∀ c, nearest target cs = some c → ∃ pre post, cs = pre ++ c :: post ∧
      distance target c ≤ 3 ∧ (∀ x ∈ cs, distance target c ≤ distance target x) ∧
      ∀ x ∈ pre, distance target c < distance target x := by
  obtain ⟨hnone, hsome⟩ := nearest_spec target cs
  refine ⟨hnone, fun c hc => ?_⟩
  obtain ⟨-, hc3, hmin⟩ := hsome c hc
  have hfound := (found_nil target).foldl cs
  have hfirst := FirstFound.foldl (found_nil target) trivial cs
  rw [nearest_eq_foldl] at hc
  obtain ⟨⟨c', d⟩, hfold, rfl⟩ := Option.map_eq_some_iff.mp hc
  rw [List.nil_append, hfold] at hfound hfirst
  obtain ⟨pre, post, hcs, hpre⟩ := hfirst
  refine ⟨pre, post, hcs, hc3, fun x hx => ?_, fun x hx => hfound.1 ▸ hpre x hx⟩
  -- a candidate farther than three is farther than the name found
  by_cases hx3 : distance target x ≤ 3
  · exact hmin x hx hx3
  · omega

end First

/-- A missing name is suggested the first of the nearest names among the visible names, then
the builtins, within three; and none when no such name is within three. -/
theorem first_nearest_name (name : String) (cs : List String) :
    (nearest name cs = none ↔ ∀ c ∈ cs, 3 < distance name c) ∧
    (∀ c, nearest name cs = some c → ∃ pre post, cs = pre ++ c :: post ∧
      distance name c ≤ 3 ∧ (∀ x ∈ cs, distance name c ≤ distance name x) ∧
      ∀ x ∈ pre, distance name c < distance name x) ∧
    ∀ m : Eval.Machine, m.env.get? name = none → Builtin.ofName? name = none →
      Eval.exec (Eval.lookup name) m =
        (.error (.fault
          { cause := .undefinedName name,
            suggestion := nearest name (m.env.names ++ Builtin.all.map Builtin.name) }), m) := by
  refine ⟨(nearest_first name cs).1, (nearest_first name cs).2, fun m hv hb => ?_⟩
  simp only [Eval.lookup, Eval.exec_bind]
  rw [Eval.exec_get]
  simp only [hv, hb]
  rfl

/-- A missing name one letter short of a builtin's is suggested that builtin. -/
theorem missing_fir_suggests_fire :
    ({} : Eval.Machine).env.get? "fir" = none ∧ Builtin.ofName? "fir" = none ∧
      Eval.exec (Eval.lookup "fir") {} =
        (.error (.fault
          { cause := .undefinedName "fir",
            suggestion := nearest "fir" (({} : Eval.Machine).env.names ++
              Builtin.all.map Builtin.name) }), {}) :=
  ⟨rfl, by decide, (first_nearest_name "fir" []).2.2 {} rfl (by decide)⟩

example : nearest "fir" (Builtin.all.map Builtin.name) = some "fire" := by decide

end Arson.Text
