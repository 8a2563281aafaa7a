import Arson.Eval.Operators
import Mathlib
/-!
# Equality of values is bisimilarity

`==` compares two values on a heap whose containers may be shared and may hold themselves. Its
answer is bisimilarity: the greatest relation `≈` such that `x ≈ y` makes `x` and `y` numbers
equal as floats, equal strings, booleans or builtins, both null, one function cell, one method of
one container, or two containers that are one cell or whose items are `≈` one by one (for dicts:
the same keys, and `≈` values key by key).

The comparison keeps the pairs of containers it has open and takes a pair met again as equal.
That this computes exactly the greatest relation is proved in two halves, each following the
recursion of the comparison: a bisimilar pair is found equal whatever pairs are open
(`equalUnder_of_bisim`), and a pair found equal is bisimilar up to the pairs that were open
(`bisimUpTo_of_equalUnder`). Symmetry and transitivity of `==` then come from those of `≈`.

Dicts are compared entry by entry in the order of their keys, so the characterization asks of the
heap what a dict stands for: its keys in ascending order, each once.
-/
namespace Arson

open Arson.Eval

def Heap.keys (h : Heap) (r : Ref) : List String := (h.entries r).map Prod.fst

/-- Every dict of the heap holds its keys in ascending order, each once. -/
def Heap.KeysAscending (h : Heap) : Prop := ∀ r, (h.keys r).Pairwise (· < ·)

/-! ## Floats and entry lists -/

namespace Number

theorem beq_symm (x y : Float) : (x == y) = (y == x) := by
  rw [Bool.eq_iff_iff, Float.beq_iff_ne_nan_and_eq, Float.beq_iff_ne_nan_and_eq]
  grind

theorem beq_trans {x y z : Float} (hxy : (x == y) = true) (hyz : (y == z) = true) :
    (x == z) = true := by
  rw [Float.beq_iff_ne_nan_and_eq] at hxy hyz ⊢
  grind

theorem beq_self (x : Float) : (x == x) = !x.isNaN := by
  rw [Float.isNaN_eq_decide_eq_nan]
  cases hx : x == x <;> simp_all

end Number

namespace Entries

variable {l₁ l₂ : Entries}

theorem lookup_cons_of_ne {k k₁ : String} {x₁ : Value} {t : Entries} (hne : k ≠ k₁) :
    (((k₁, x₁) :: t) : Entries).lookup k = t.lookup k := by
  have hb : (k == k₁) = false := by simpa using hne
  simp only [List.lookup_cons, hb]

/-- Two entry lists with the same keys in the same order pair the values of a key. -/
theorem lookup_mem_zip (hk : l₁.map Prod.fst = l₂.map Prod.fst) {k : String} {x y : Value}
    (hx : l₁.lookup k = some x) (hy : l₂.lookup k = some y) : ((k, x), (k, y)) ∈ l₁.zip l₂ := by
  induction l₁ generalizing l₂ with
  | nil => cases hx
  | cons e₁ t₁ ih =>
    obtain ⟨k₁, x₁⟩ := e₁
    obtain ⟨⟨k₂, y₂⟩, t₂, rfl⟩ : ∃ e₂ t₂, l₂ = e₂ :: t₂ := by
      cases l₂ with
      | nil => cases hk
      | cons e₂ t₂ => exact ⟨e₂, t₂, rfl⟩
    obtain ⟨rfl, hrest⟩ : k₁ = k₂ ∧ t₁.map Prod.fst = t₂.map Prod.fst := by simpa using hk
    by_cases hke : k = k₁
    · subst hke
      simp only [List.lookup_cons, beq_self_eq_true, Option.some.injEq] at hx hy
      subst hx hy
      exact List.mem_cons_self
    · rw [lookup_cons_of_ne hke] at hx hy
      exact List.mem_cons_of_mem _ (ih hrest hx hy)

/-- With the same keys, each once, the entries paired by position carry one key, and each is
what a lookup of its key finds. -/
theorem zip_lookup (hnd : (l₁.map Prod.fst).Nodup) (hk : l₁.map Prod.fst = l₂.map Prod.fst)
    {p : (String × Value) × (String × Value)} (hp : p ∈ l₁.zip l₂) :
    p.1.1 = p.2.1 ∧ l₁.lookup p.1.1 = some p.1.2 ∧ l₂.lookup p.2.1 = some p.2.2 := by
  induction l₁ generalizing l₂ with
  | nil => cases hp
  | cons e₁ t₁ ih =>
    obtain ⟨k₁, x₁⟩ := e₁
    obtain ⟨⟨k₂, y₂⟩, t₂, rfl⟩ : ∃ e₂ t₂, l₂ = e₂ :: t₂ := by
      cases l₂ with
      | nil => cases hk
      | cons e₂ t₂ => exact ⟨e₂, t₂, rfl⟩
    obtain ⟨rfl, hrest⟩ : k₁ = k₂ ∧ t₁.map Prod.fst = t₂.map Prod.fst := by simpa using hk
    rw [List.map_cons, List.nodup_cons] at hnd
    rcases List.mem_cons.mp hp with rfl | hp
    · simp
    · obtain ⟨hpk, hl₁, hl₂⟩ := ih hnd.2 hrest hp
      -- the key of a later pair is not the first key, which is there once
      have hmem : p.1.1 ∈ t₁.map Prod.fst := List.mem_map_of_mem (List.of_mem_zip hp).1
      have hne : p.1.1 ≠ k₁ := fun he => hnd.1 (he ▸ hmem)
      rw [lookup_cons_of_ne hne, lookup_cons_of_ne (hpk ▸ hne)]
      exact ⟨hpk, hl₁, hl₂⟩

theorem lookup_of_mem_keys {k : String} (hk : k ∈ l₁.map Prod.fst) :
    ∃ x, l₁.lookup k = some x := by
  obtain ⟨p, hp, rfl⟩ := List.mem_map.mp hk
  exact Option.isSome_iff_exists.mp (List.lookup_isSome_iff.mpr ⟨p, hp, by simp⟩)

theorem map_fst_eq_of_forall₂ : ∀ {es es' : Entries},
    List.Forall₂ (fun a b => a.1 = b.1) es es' → es.map Prod.fst = es'.map Prod.fst
  | _, _, .nil => rfl
  | _, _, .cons hab hrest => by rw [List.map_cons, List.map_cons, hab, map_fst_eq_of_forall₂ hrest]

theorem mem_keys_of_lookup {k : String} {x : Value} (hx : l₁.lookup k = some x) :
    k ∈ l₁.map Prod.fst := by
  obtain ⟨p, hp, hk⟩ := List.lookup_isSome_iff.mp (Option.isSome_iff_exists.mpr ⟨x, hx⟩)
  exact List.mem_map.mpr ⟨p, hp, (beq_iff_eq.mp hk).symm⟩

end Entries

theorem forall₂_comp {α β γ : Type} {R : α → β → Prop} {S : β → γ → Prop} :
    ∀ {l₁ : List α} {l₂ : List β} {l₃ : List γ}, List.Forall₂ R l₁ l₂ → List.Forall₂ S l₂ l₃ →
      List.Forall₂ (fun a c => ∃ b, R a b ∧ S b c) l₁ l₃
  | [], [], [], .nil, .nil => .nil
  | _ :: _, _ :: _, _ :: _, .cons h₁ t₁, .cons h₂ t₂ => .cons ⟨_, h₁, h₂⟩ (forall₂_comp t₁ t₂)

theorem keys_eq_of_ascending {ks ks' : List String} (h₁ : ks.Pairwise (· < ·))
    (h₂ : ks'.Pairwise (· < ·)) (hk : ∀ k, k ∈ ks ↔ k ∈ ks') : ks = ks' :=
  List.Perm.eq_of_pairwise (fun _ _ _ _ hab hba => absurd hba (lt_asymm hab)) h₁ h₂
    ((List.perm_ext_iff_of_nodup h₁.nodup h₂.nodup).mpr hk)

/-! ## Cells -/

namespace Heap

variable (h : Heap) (r : Ref)

/-- A reference with items is an array cell of the heap, so it has no entries. -/
theorem items_ne_nil (hr : (h.items r).toList ≠ []) : r < h.size ∧ h.entries r = [] := by
  unfold items at hr
  unfold entries size
  cases hc : h.get? r with
  | none => simp [hc] at hr
  | some c =>
    have hlt : r < h.cells.size := by
      simp only [get?] at hc
      exact (Array.getElem?_eq_some_iff.mp hc).1
    cases c with
    | array xs => exact ⟨hlt, rfl⟩
    | dict es | function f => simp [hc] at hr

/-- A reference with entries is a dict cell of the heap, so it has no items. -/
theorem entries_ne_nil (hr : h.entries r ≠ []) : r < h.size ∧ (h.items r).toList = [] := by
  unfold entries at hr
  unfold items size
  cases hc : h.get? r with
  | none => simp [hc] at hr
  | some c =>
    have hlt : r < h.cells.size := by
      simp only [get?] at hc
      exact (Array.getElem?_eq_some_iff.mp hc).1
    cases c with
    | dict es => exact ⟨hlt, rfl⟩
    | array xs | function f => simp [hc] at hr

theorem empty_of_size_zero (h0 : h.size = 0) : (h.items r).toList = [] ∧ h.entries r = [] := by
  constructor
  · by_contra hr
    exact absurd (h0 ▸ (h.items_ne_nil r hr).1) (Nat.not_lt_zero r)
  · by_contra hr
    exact absurd (h0 ▸ (h.entries_ne_nil r hr).1) (Nat.not_lt_zero r)

end Heap

/-! ## Bisimilarity -/

namespace Value

/-- What `x ≈ y` asks of `x` and `y` when `R` stands for `≈` on their items. -/
def Matches (h : Heap) (R : Value → Value → Prop) : Value → Value → Prop
  | .number x, .number y => (x == y) = true
  | .str x, .str y => x = y
  | .bool x, .bool y => x = y
  | .null, .null => True
  | .builtin x, .builtin y => x = y
  | .function r, .function s => r = s
  | .method p m, .method q n => m = n ∧ p = q
  | .array r, .array s => r = s ∨ List.Forall₂ R (h.items r).toList (h.items s).toList
  | .dict r, .dict s => r = s ∨ ((∀ k, k ∈ h.keys r ↔ k ∈ h.keys s) ∧
      ∀ k x y, (h.entries r).lookup k = some x → (h.entries s).lookup k = some y → R x y)
  | _, _ => False

/-- Bisimilarity: the greatest relation that `Matches` keeps. -/
def Bisim (h : Heap) (a b : Value) : Prop :=
  ∃ R : Value → Value → Prop, (∀ x y, R x y → Matches h R x y) ∧ R a b

variable {h : Heap}

theorem Matches.mono {R S : Value → Value → Prop} (hRS : ∀ x y, R x y → S x y) {a b : Value}
    (hm : Matches h R a b) : Matches h S a b := by
  cases a <;> cases b <;> simp only [Matches] at hm ⊢
  all_goals first | exact hm | skip
  · exact hm.imp_right (·.imp hRS)
  · exact hm.imp_right fun hkv => ⟨hkv.1, fun k x y hx hy => hRS x y (hkv.2 k x y hx hy)⟩

theorem Matches.swap {R : Value → Value → Prop} {a b : Value} (hm : Matches h R a b) :
    Matches h (fun u v => R v u) b a := by
  cases a <;> cases b <;> simp only [Matches] at hm ⊢
  case number.number => rwa [Number.beq_symm]
  case method.method => exact ⟨hm.1.symm, hm.2.symm⟩
  case array.array =>
    exact hm.imp Eq.symm (List.Forall₂.flip (R := fun u v => R v u))
  case dict.dict =>
    exact hm.imp Eq.symm fun hkv =>
      ⟨fun k => (hkv.1 k).symm, fun k x y hx hy => hkv.2 k y x hy hx⟩
  all_goals exact hm.symm

/-- Two steps of matching compose: the items of the ends are related by the first relation, the
second, or the two in turn. -/
theorem Matches.trans {R S : Value → Value → Prop} {a b c : Value} (hab : Matches h R a b)
    (hbc : Matches h S b c) :
    Matches h (fun u w => R u w ∨ S u w ∨ ∃ v, R u v ∧ S v w) a c := by
  cases a <;> cases b <;> simp only [Matches] at hab <;> cases c <;> simp only [Matches] at hbc ⊢
  case number.number.number => exact Number.beq_trans hab hbc
  case method.method.method => exact ⟨hab.1.trans hbc.1, hab.2.trans hbc.2⟩
  case array.array.array r s t =>
    rcases hab with rfl | hab <;> rcases hbc with rfl | hbc
    · exact .inl rfl
    · exact .inr (hbc.imp fun _ _ h => .inr (.inl h))
    · exact .inr (hab.imp fun _ _ h => .inl h)
    · exact .inr ((forall₂_comp hab hbc).imp fun _ _ h => .inr (.inr h))
  case dict.dict.dict r s t =>
    rcases hab with rfl | ⟨hk₁, hv₁⟩ <;> rcases hbc with rfl | ⟨hk₂, hv₂⟩
    · exact .inl rfl
    · exact .inr ⟨hk₂, fun k x y hx hy => .inr (.inl (hv₂ k x y hx hy))⟩
    · exact .inr ⟨hk₁, fun k x y hx hy => .inl (hv₁ k x y hx hy)⟩
    · refine .inr ⟨fun k => (hk₁ k).trans (hk₂ k), fun k x z hx hz => ?_⟩
      obtain ⟨y, hy⟩ := Entries.lookup_of_mem_keys ((hk₁ k).mp (Entries.mem_keys_of_lookup hx))
      exact .inr (.inr ⟨y, hv₁ k x y hx hy, hv₂ k y z hy hz⟩)
  all_goals exact hab.trans hbc

/-! ## The pairs a comparison has open -/

/-- `u` and `v` are the cells `r` and `s` read as two arrays or as two dicts. -/
def Views (r s : Ref) (u v : Value) : Prop :=
  u = .array r ∧ v = .array s ∨ u = .dict r ∧ v = .dict s

/-- The pairs a comparison has open. It keeps the two references only, so a pair stands for both
of its readings. -/
def Opened (O : List (Ref × Ref)) (u v : Value) : Prop := ∃ p ∈ O, Views p.1 p.2 u v

theorem Opened.cons {O : List (Ref × Ref)} {r s : Ref} {u v : Value}
    (ho : Opened ((r, s) :: O) u v) : Views r s u v ∨ Opened O u v := by
  obtain ⟨p, hp, huv⟩ := ho
  rcases List.mem_cons.mp hp with rfl | hp
  · exact .inl huv
  · exact .inr ⟨p, hp, huv⟩

/-- The open pairs of a comparison: no pair twice, each of two different cells of the heap. -/
structure OpenList (h : Heap) (O : List (Ref × Ref)) : Prop where
  nodup : O.Nodup
  apart : ∀ p ∈ O, p.1 ≠ p.2
  bound : ∀ p ∈ O, p.1 < h.size ∧ p.2 < h.size

theorem OpenList.nil : OpenList h [] := ⟨.nil, nofun, nofun⟩

theorem OpenList.cons {O : List (Ref × Ref)} {r s : Ref} (ho : OpenList h O) (hrs : r ≠ s)
    (hnew : (r, s) ∉ O) (hr : r < h.size) (hs : s < h.size) : OpenList h ((r, s) :: O) where
  nodup := List.nodup_cons.mpr ⟨hnew, ho.nodup⟩
  apart p hp := by
    rcases List.mem_cons.mp hp with rfl | hp
    · exact hrs
    · exact ho.apart p hp
  bound p hp := by
    rcases List.mem_cons.mp hp with rfl | hp
    · exact ⟨hr, hs⟩
    · exact ho.bound p hp

/-- The open pairs are pairs of different cells, so there are fewer of them than pairs of cells:
the comparison's bound on them is never reached on a heap with a cell. -/
theorem OpenList.length_lt {O : List (Ref × Ref)} (ho : OpenList h O) (hpos : 0 < h.size) :
    O.length < h.size * h.size := by
  classical
  have hsub : O.toFinset ⊆ (Finset.range h.size).offDiag := by
    intro p hp
    have hp := List.mem_toFinset.mp hp
    simpa using ⟨(ho.bound p hp).1, (ho.bound p hp).2, ho.apart p hp⟩
  have hcard := Finset.card_le_card hsub
  rw [List.toFinset_card_of_nodup ho.nodup, Finset.offDiag_card, Finset.card_range] at hcard
  have hsq : h.size ≤ h.size * h.size := Nat.le_mul_self _
  generalize h.size * h.size = n at hcard hsq ⊢
  omega

/-- Bisimilarity up to the open pairs: a relation that `Matches` keeps once the open pairs are
added to it. -/
def BisimUpTo (h : Heap) (O : List (Ref × Ref)) (a b : Value) : Prop :=
  ∃ R : Value → Value → Prop,
    (∀ x y, R x y → Matches h (fun u v => R u v ∨ Opened O u v) x y) ∧ R a b

theorem BisimUpTo.bisim {a b : Value} (hab : BisimUpTo h [] a b) : Bisim h a b := by
  obtain ⟨R, hR, hr⟩ := hab
  refine ⟨R, fun x y hxy => (hR x y hxy).mono fun u v huv => ?_, hr⟩
  rcases huv with huv | ⟨p, hp, _⟩
  · exact huv
  · cases hp

theorem BisimUpTo.single {O : List (Ref × Ref)} {a b : Value}
    (hm : Matches h (fun u v => (u = a ∧ v = b) ∨ Opened O u v) a b) : BisimUpTo h O a b :=
  ⟨fun u v => u = a ∧ v = b, fun _ _ ⟨hx, hy⟩ => by subst hx hy; exact hm, rfl, rfl⟩

/-- The comparison's step at the cells `r` and `s`: when both readings of the pair match, with
items that are the pair again, bisimilar up to the pair opened, or open before, both readings are
bisimilar up to the pairs open before. -/
theorem BisimUpTo.close {O : List (Ref × Ref)} {r s : Ref}
    (hm : ∀ u v, Views r s u v → Matches h (fun x y =>
      Views r s x y ∨ BisimUpTo h ((r, s) :: O) x y ∨ Opened O x y) u v)
    {u v : Value} (huv : Views r s u v) : BisimUpTo h O u v := by
  refine ⟨fun x y => Views r s x y ∨ BisimUpTo h ((r, s) :: O) x y, fun x y hxy => ?_, .inl huv⟩
  rcases hxy with hxy | ⟨R, hR, hr⟩
  · exact (hm x y hxy).mono fun _ _ hab => or_assoc.mpr hab
  · refine (hR x y hr).mono fun a b hab => ?_
    rcases hab with hab | hab
    · exact .inl (.inr ⟨R, hR, hab⟩)
    · exact hab.cons.imp_left .inl

/-! ## The comparison, one pair of containers at a time -/

section Steps

variable {O : List (Ref × Ref)} {r s : Ref}

theorem equalUnder_array_of_open (hopen : r = s ∨ (r, s) ∈ O) :
    equalUnder h O (.array r) (.array s) = true := by
  rw [equalUnder, if_pos hopen]

theorem equalUnder_array_of_full (hopen : ¬ (r = s ∨ (r, s) ∈ O))
    (hlen : ¬ O.length < h.size * h.size) : equalUnder h O (.array r) (.array s) = true := by
  rw [equalUnder, if_neg hopen, dif_neg hlen]

theorem equalUnder_array (hopen : ¬ (r = s ∨ (r, s) ∈ O)) (hlen : O.length < h.size * h.size) :
    equalUnder h O (.array r) (.array s) = true ↔
      (h.items r).toList.length = (h.items s).toList.length ∧
        ∀ x y, (x, y) ∈ (h.items r).toList.zip (h.items s).toList →
          equalUnder h ((r, s) :: O) x y = true := by
  rw [equalUnder, if_neg hopen, dif_pos hlen]
  simp

theorem equalUnder_dict_of_open (hopen : r = s ∨ (r, s) ∈ O) :
    equalUnder h O (.dict r) (.dict s) = true := by
  rw [equalUnder, if_pos hopen]

theorem equalUnder_dict_of_full (hopen : ¬ (r = s ∨ (r, s) ∈ O))
    (hlen : ¬ O.length < h.size * h.size) : equalUnder h O (.dict r) (.dict s) = true := by
  rw [equalUnder, if_neg hopen, dif_neg hlen]

theorem equalUnder_dict (hopen : ¬ (r = s ∨ (r, s) ∈ O)) (hlen : O.length < h.size * h.size) :
    equalUnder h O (.dict r) (.dict s) = true ↔
      (h.entries r).length = (h.entries s).length ∧
        ∀ k x k' y, ((k, x), (k', y)) ∈ (h.entries r).zip (h.entries s) →
          k = k' ∧ equalUnder h ((r, s) :: O) x y = true := by
  rw [equalUnder, if_neg hopen, dif_pos hlen]
  simp

/-! ### Bisimilar pairs are found equal -/

/-- Two arrays that match, with bisimilar items found equal once the pair is open. -/
theorem equalUnder_arrays {R : Value → Value → Prop}
    (hm : Matches h R (.array r) (.array s))
    (ih : O.length < h.size * h.size → ∀ x y, R x y → equalUnder h ((r, s) :: O) x y = true) :
    equalUnder h O (.array r) (.array s) = true := by
  by_cases hopen : r = s ∨ (r, s) ∈ O
  · exact equalUnder_array_of_open hopen
  by_cases hlen : O.length < h.size * h.size
  · have hF := hm.resolve_left fun hrs => hopen (.inl hrs)
    exact (equalUnder_array hopen hlen).mpr
      ⟨hF.length_eq, fun x y hxy => ih hlen x y (List.forall₂_zip hF hxy)⟩
  · exact equalUnder_array_of_full hopen hlen

/-- Two dicts that match, with bisimilar values found equal once the pair is open. -/
theorem equalUnder_dicts (hs : h.KeysAscending) {R : Value → Value → Prop}
    (hm : Matches h R (.dict r) (.dict s))
    (ih : O.length < h.size * h.size → ∀ x y, R x y → equalUnder h ((r, s) :: O) x y = true) :
    equalUnder h O (.dict r) (.dict s) = true := by
  by_cases hopen : r = s ∨ (r, s) ∈ O
  · exact equalUnder_dict_of_open hopen
  by_cases hlen : O.length < h.size * h.size
  · obtain ⟨hk, hv⟩ := hm.resolve_left fun hrs => hopen (.inl hrs)
    -- both dicts hold their keys in ascending order, so the same keys come in the same order
    have hkeys : h.keys r = h.keys s := keys_eq_of_ascending (hs r) (hs s) hk
    refine (equalUnder_dict hopen hlen).mpr ⟨?_, fun k x k' y hp => ?_⟩
    · simpa [Heap.keys] using congrArg List.length hkeys
    · obtain ⟨hkk, hx, hy⟩ := Entries.zip_lookup (hs r).nodup hkeys hp
      dsimp only at hkk hx hy
      subst hkk
      exact ⟨rfl, ih hlen x y (hv k x y hx hy)⟩
  · exact equalUnder_dict_of_full hopen hlen

/-- A bisimilar pair is found equal, whatever pairs are open: the comparison follows the pair's
items, which are bisimilar again and are compared with one more pair open. -/
theorem equalUnder_of_bisim (hs : h.KeysAscending) (O : List (Ref × Ref)) (a b : Value)
    (hab : Bisim h a b) : equalUnder h O a b = true := by
  obtain ⟨R, hR, hr⟩ := hab
  have ih : O.length < h.size * h.size → ∀ r s x y, R x y →
      equalUnder h ((r, s) :: O) x y = true :=
    fun _ r s x y hxy => equalUnder_of_bisim hs ((r, s) :: O) x y ⟨R, hR, hxy⟩
  have hm := hR a b hr
  cases a <;> cases b
  case array.array r s => exact equalUnder_arrays hm fun hlen => ih hlen r s
  case dict.dict r s => exact equalUnder_dicts hs hm fun hlen => ih hlen r s
  all_goals
    rw [equalUnder] <;> simp only [Matches] at hm <;> simpa using hm
termination_by h.size * h.size - O.length
decreasing_by
  all_goals
    simp_wf
    generalize h.size * h.size = n at *
    omega

/-! ### Pairs found equal are bisimilar -/

/-- Two arrays found equal are bisimilar up to the pairs open, given that their items, found
equal with the pair open, are. -/
theorem BisimUpTo.arrays (ho : OpenList h O) (hab : equalUnder h O (.array r) (.array s) = true)
    (ih : O.length < h.size * h.size → OpenList h ((r, s) :: O) → ∀ x y,
      equalUnder h ((r, s) :: O) x y = true →
        Opened ((r, s) :: O) x y ∨ BisimUpTo h ((r, s) :: O) x y) :
    Opened O (.array r) (.array s) ∨ BisimUpTo h O (.array r) (.array s) := by
  by_cases hopen : r = s ∨ (r, s) ∈ O
  · rcases hopen with rfl | hmem
    · exact .inr (.single (by simp [Matches]))
    · exact .inl ⟨(r, s), hmem, .inl ⟨rfl, rfl⟩⟩
  refine .inr ?_
  by_cases hlen : O.length < h.size * h.size
  · obtain ⟨hlength, hall⟩ := (equalUnder_array hopen hlen).mp hab
    by_cases hnil : (h.items r).toList = []
    · have hnil' : (h.items s).toList = [] := List.eq_nil_of_length_eq_zero (by simp_all)
      exact .single (.inr (by rw [hnil, hnil']; exact .nil))
    -- two array cells with items: their pair is opened, and as dicts they are empty
    have hnil' : (h.items s).toList ≠ [] := fun he => hnil (List.eq_nil_of_length_eq_zero (by simp_all))
    obtain ⟨hr, hre⟩ := h.items_ne_nil r hnil
    obtain ⟨hs, hse⟩ := h.items_ne_nil s hnil'
    have ho' := ho.cons (fun hrs => hopen (.inl hrs)) (fun hm => hopen (.inr hm)) hr hs
    refine .close (fun u v huv => ?_) (.inl ⟨rfl, rfl⟩)
    rcases huv with ⟨rfl, rfl⟩ | ⟨rfl, rfl⟩
    · refine .inr (List.forall₂_iff_zip.mpr ⟨hlength, fun hxy => ?_⟩)
      rcases ih hlen ho' _ _ (hall _ _ hxy) with hop | hb
      · exact hop.cons.imp_right .inr
      · exact .inr (.inl hb)
    · exact .inr ⟨by simp [Heap.keys, hre, hse], by simp [hre]⟩
  · -- only an empty heap leaves no room for another open pair
    have h0 : h.size = 0 := by
      by_contra hne
      exact hlen (ho.length_lt (Nat.pos_of_ne_zero hne))
    refine .single (.inr ?_)
    rw [(h.empty_of_size_zero r h0).1, (h.empty_of_size_zero s h0).1]
    exact .nil

/-- Two dicts found equal are bisimilar up to the pairs open, given that their values, found
equal with the pair open, are. -/
theorem BisimUpTo.dicts (ho : OpenList h O) (hab : equalUnder h O (.dict r) (.dict s) = true)
    (ih : O.length < h.size * h.size → OpenList h ((r, s) :: O) → ∀ x y,
      equalUnder h ((r, s) :: O) x y = true →
        Opened ((r, s) :: O) x y ∨ BisimUpTo h ((r, s) :: O) x y) :
    Opened O (.dict r) (.dict s) ∨ BisimUpTo h O (.dict r) (.dict s) := by
  by_cases hopen : r = s ∨ (r, s) ∈ O
  · rcases hopen with rfl | hmem
    · exact .inr (.single (by simp [Matches]))
    · exact .inl ⟨(r, s), hmem, .inr ⟨rfl, rfl⟩⟩
  refine .inr ?_
  by_cases hlen : O.length < h.size * h.size
  · obtain ⟨hlength, hall⟩ := (equalUnder_dict hopen hlen).mp hab
    -- the pairs of entries carry one key each, so the two dicts have the same keys in order
    have hkeys : h.keys r = h.keys s := Entries.map_fst_eq_of_forall₂
      (List.forall₂_iff_zip.mpr ⟨hlength, fun {a b} hab => (hall a.1 a.2 b.1 b.2 hab).1⟩)
    by_cases hnil : h.entries r = []
    · have hnil' : h.entries s = [] := List.eq_nil_of_length_eq_zero (by simp_all)
      exact .single (.inr ⟨by simp [Heap.keys, hnil, hnil'], by simp [hnil]⟩)
    -- two dict cells with entries: their pair is opened, and as arrays they are empty
    have hnil' : h.entries s ≠ [] := fun he => hnil (List.eq_nil_of_length_eq_zero (by simp_all))
    obtain ⟨hr, hre⟩ := h.entries_ne_nil r hnil
    obtain ⟨hs, hse⟩ := h.entries_ne_nil s hnil'
    have ho' := ho.cons (fun hrs => hopen (.inl hrs)) (fun hm => hopen (.inr hm)) hr hs
    refine .close (fun u v huv => ?_) (.inr ⟨rfl, rfl⟩)
    rcases huv with ⟨rfl, rfl⟩ | ⟨rfl, rfl⟩
    · exact .inr (by rw [hre, hse]; exact .nil)
    · refine .inr ⟨fun k => by rw [hkeys], fun k x y hx hy => ?_⟩
      have hp := Entries.lookup_mem_zip hkeys hx hy
      rcases ih hlen ho' _ _ (hall k x k y hp).2 with hop | hb
      · exact hop.cons.imp_right .inr
      · exact .inr (.inl hb)
  · have h0 : h.size = 0 := by
      by_contra hne
      exact hlen (ho.length_lt (Nat.pos_of_ne_zero hne))
    refine .single (.inr ⟨?_, ?_⟩)
    · simp [Heap.keys, (h.empty_of_size_zero r h0).2, (h.empty_of_size_zero s h0).2]
    · simp [(h.empty_of_size_zero r h0).2]

/-- A pair found equal is open, or bisimilar up to the pairs open when it was compared. -/
theorem bisimUpTo_of_equalUnder (O : List (Ref × Ref)) (ho : OpenList h O) (a b : Value)
    (hab : equalUnder h O a b = true) : Opened O a b ∨ BisimUpTo h O a b := by
  cases a <;> cases b
  case array.array r s =>
    exact BisimUpTo.arrays ho hab fun hlen ho' x y => bisimUpTo_of_equalUnder _ ho' x y
  case dict.dict r s =>
    exact BisimUpTo.dicts ho hab fun hlen ho' x y => bisimUpTo_of_equalUnder _ ho' x y
  all_goals
    unfold equalUnder at hab
    first
      | exact absurd hab Bool.false_ne_true
      | exact .inr (.single trivial)
      | exact .inr (.single (by simpa [Matches] using hab))
termination_by h.size * h.size - O.length
decreasing_by
  all_goals
    simp_wf
    generalize h.size * h.size = n at *
    omega

end Steps

/-! ## `==` -/

/-- The comparison from no open pair is bisimilarity. -/
theorem equal_iff_bisim (hs : h.KeysAscending) (a b : Value) :
    a.equal h b = true ↔ Bisim h a b := by
  refine ⟨fun hab => ?_, equalUnder_of_bisim hs [] a b⟩
  rcases bisimUpTo_of_equalUnder [] .nil a b hab with ⟨_, hp, _⟩ | hb
  · cases hp
  · exact hb.bisim

theorem Bisim.matches {a b : Value} (hab : Bisim h a b) : Matches h (Bisim h) a b := by
  obtain ⟨R, hR, hr⟩ := hab
  exact (hR a b hr).mono fun x y hxy => ⟨R, hR, hxy⟩

theorem Bisim.symm {a b : Value} (hab : Bisim h a b) : Bisim h b a :=
  ⟨fun u v => Bisim h v u, fun _ _ hxy => hxy.matches.swap, hab⟩

/-- Bisimilar to bisimilar is bisimilar: the pairs joined through a middle value, with the
bisimilar pairs, make a relation that `Matches` keeps. -/
theorem Bisim.trans {a b c : Value} (hab : Bisim h a b) (hbc : Bisim h b c) : Bisim h a c := by
  refine ⟨fun u w => Bisim h u w ∨ ∃ v, Bisim h u v ∧ Bisim h v w, fun x z hxz => ?_,
    .inr ⟨b, hab, hbc⟩⟩
  rcases hxz with hxz | ⟨y, hxy, hyz⟩
  · exact hxz.matches.mono fun _ _ => .inl
  · exact (hxy.matches.trans hyz.matches).mono fun _ _ huw => huw.elim .inl (·.elim .inl .inr)

theorem equal_self (a : Value) : a.equal h a = true ↔ ∀ x, a = .number x → x.isNaN = false := by
  cases a with
  | number x => simp [equal, equalUnder, Number.beq_self]
  | array r => simp [equal, equalUnder_array_of_open (.inl rfl)]
  | dict r => simp [equal, equalUnder_dict_of_open (.inl rfl)]
  | _ => simp [equal, equalUnder]

/-- `==` compares values up to sharing and cycles: it is bisimilarity on a heap whose dicts keep
their keys in order. -/
theorem equality_is_bisimilarity (h : Heap) (hs : h.KeysAscending) (a b c : Value) :
    (∃ β, applyOp h .equal a b = .ok (h, .bool β) ∧ (β = true ↔ Bisim h a b)) ∧
    a.equal h b = b.equal h a ∧
    (a.equal h b = true → b.equal h c = true → a.equal h c = true) ∧
    (a.equal h a = true ↔ ∀ x, a = .number x → x.isNaN = false) := by
  refine ⟨⟨a.equal h b, rfl, equal_iff_bisim hs a b⟩, ?_, fun hab hbc => ?_, equal_self a⟩
  · rw [Bool.eq_iff_iff, equal_iff_bisim hs, equal_iff_bisim hs]
    exact ⟨Bisim.symm, Bisim.symm⟩
  · rw [equal_iff_bisim hs] at hab hbc ⊢
    exact hab.trans hbc

end Value

/-- Two arrays, each holding `1` and itself. -/
def Heap.twoCycles : Heap := ⟨#[.array #[.number 1, .array 0], .array #[.number 1, .array 1]]⟩

/-- On two arrays that each hold `1` and themselves, `==` answers bisimilarity. -/
theorem Value.equality_is_bisimilarity_two_cycles :
    Heap.twoCycles.KeysAscending ∧
      ((∃ β, applyOp Heap.twoCycles .equal (.array 0) (.array 1) = .ok (Heap.twoCycles, .bool β) ∧
          (β = true ↔ Value.Bisim Heap.twoCycles (.array 0) (.array 1))) ∧
        (Value.array 0).equal Heap.twoCycles (.array 1) =
          (Value.array 1).equal Heap.twoCycles (.array 0) ∧
        ((Value.array 0).equal Heap.twoCycles (.array 1) = true →
          (Value.array 1).equal Heap.twoCycles (.array 0) = true →
            (Value.array 0).equal Heap.twoCycles (.array 0) = true) ∧
        ((Value.array 0).equal Heap.twoCycles (.array 0) = true ↔
          ∀ x, Value.array 0 = .number x → x.isNaN = false)) := by
  have hs : Heap.twoCycles.KeysAscending := by
    intro r
    rcases r with _ | _ | r <;> simp [Heap.keys, Heap.entries, Heap.get?, Heap.twoCycles]
  exact ⟨hs, Value.equality_is_bisimilarity _ hs (.array 0) (.array 1) (.array 0)⟩

end Arson
