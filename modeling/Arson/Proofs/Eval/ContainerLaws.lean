import Arson.Proofs.Number.Exact
import Arson.Proofs.Value.Unfolding
import Arson.Proofs.Eval.Storable
/-!
# Containers behave as lists and finite maps

An array is a list of items and a dict a finite map from strings, kept as its entries in ascending
order of their keys. Indexing, the attributes and the methods of containers are the list and map
operations (`ArrayLaws`, `DictLaws`): an index picks the item at its whole part toward zero when
that lies in `[0, length)`, `update` of a dict inserts or overwrites and keeps the keys ascending,
`keys` lists them in byte order, and a wrong argument count is reported before anything else. A
method that fails leaves the machine as it was (`exec_method_error`).

The one index outside that rule is NaN: it fails both range comparisons, and the conversion that
follows turns it into position 0, so a NaN index reads and `update` writes the first item
(`index_nan_reads_first_item`). An empty array has no first item: there, and only there, reading
or updating is a panic of the runtime (`array_access_panics_iff`).
-/
namespace Arson

open Arson.Eval Arson.Number

/-! ## Cells of the heap -/

namespace Heap

variable {h : Heap} {r : Ref}

theorem items_of_get {xs : Array Value} (hr : h.get? r = some (.array xs)) : h.items r = xs := by
  simp [items, hr]

theorem entries_of_get {es : Entries} (hr : h.get? r = some (.dict es)) : h.entries r = es := by
  simp [entries, hr]

theorem get?_put_self {c c' : Cell} (hr : h.get? r = some c) : (h.put r c').get? r = some c' := by
  have hlt : r < h.cells.size := by
    by_contra hge
    simp [get?, Array.getElem?_eq_none (Nat.le_of_not_lt hge)] at hr
  simp [put, get?, hlt]

theorem get?_put_ne {r' : Ref} {c : Cell} (hne : r' ≠ r) : (h.put r c).get? r' = h.get? r' := by
  simp [put, get?, Ne.symm hne]

theorem get?_alloc (c : Cell) : (h.alloc c).1.get? h.size = some c := by
  simp [alloc, get?, size]

theorem get?_alloc_lt {r' : Ref} (c : Cell) (hr : r' < h.size) :
    (h.alloc c).1.get? r' = h.get? r' := by
  simp [alloc, get?, Array.getElem?_push, Nat.ne_of_lt (show r' < h.cells.size from hr)]

/-- `h'` is `h` with the cell at `r` replaced by `c`, every other cell as it was. -/
structure Replaces (h : Heap) (r : Ref) (c : Cell) (h' : Heap) : Prop where
  self : h'.get? r = some c
  other : ∀ r', r' ≠ r → h'.get? r' = h.get? r'

/-- `h'` is `h` with the cell `c` added under the reference `h.size`, every other cell as it
was. -/
structure Extends (h : Heap) (c : Cell) (h' : Heap) : Prop where
  fresh : h'.get? h.size = some c
  other : ∀ r', r' < h.size → h'.get? r' = h.get? r'

theorem replaces_put {c₀ : Cell} (hr : h.get? r = some c₀) (c : Cell) : h.Replaces r c (h.put r c) :=
  ⟨get?_put_self hr, fun _ hne => get?_put_ne hne⟩

theorem extends_alloc (c : Cell) : h.Extends c (h.alloc c).1 :=
  ⟨get?_alloc c, fun _ hr => get?_alloc_lt c hr⟩

end Heap

/-! ## Dicts as finite maps -/

namespace Entries

theorem lookup_cons_self (k : String) (x : Value) (t : Entries) :
    (((k, x) :: t) : Entries).lookup k = some x := by
  simp

/-- Setting a key of a dict: the key now gives the new value, every other key what it gave. -/
theorem lookup_insert (es : Entries) (k k' : String) (v : Value) :
    (es.insert k v).lookup k' = if k' = k then some v else es.lookup k' := by
  induction es with
  | nil =>
    unfold Entries.insert
    by_cases hk : k' = k
    · subst hk
      rw [lookup_cons_self, if_pos rfl]
    · rw [lookup_cons_of_ne hk, if_neg hk]
  | cons e rest ih =>
    obtain ⟨k₁, x₁⟩ := e
    unfold Entries.insert
    -- the three places the key can go: over the head, before it, or further on
    by_cases hk : k = k₁
    · subst hk
      rw [if_pos rfl]
      by_cases hk' : k' = k
      · subst hk'
        rw [lookup_cons_self, if_pos rfl]
      · rw [lookup_cons_of_ne hk', lookup_cons_of_ne hk', if_neg hk']
    · by_cases hlt : k < k₁
      · rw [if_neg hk, if_pos hlt]
        by_cases hk' : k' = k
        · subst hk'
          rw [lookup_cons_self, if_pos rfl]
        · rw [lookup_cons_of_ne hk', if_neg hk']
      · rw [if_neg hk, if_neg hlt]
        by_cases hk₁ : k' = k₁
        · subst hk₁
          rw [lookup_cons_self, lookup_cons_self, if_neg (Ne.symm hk)]
        · rw [lookup_cons_of_ne hk₁, lookup_cons_of_ne hk₁, ih]

theorem mem_keys_insert (es : Entries) (k k' : String) (v : Value) :
    k' ∈ (es.insert k v).map Prod.fst ↔ k' = k ∨ k' ∈ es.map Prod.fst := by
  induction es with
  | nil => simp [Entries.insert]
  | cons e rest ih =>
    obtain ⟨k₁, x₁⟩ := e
    unfold Entries.insert
    by_cases hk : k = k₁
    · subst hk
      simp
    · by_cases hlt : k < k₁
      · simp [hk, hlt]
      · simp only [hk, hlt, if_false, List.map_cons, List.mem_cons, ih]
        tauto

/-- Setting a key keeps the keys of a dict ascending: the new key goes before the first larger
one. -/
theorem insert_ascending {es : Entries} (hes : (es.map Prod.fst).Pairwise (· < ·)) (k : String)
    (v : Value) : ((es.insert k v).map Prod.fst).Pairwise (· < ·) := by
  induction es with
  | nil => simp [Entries.insert]
  | cons e rest ih =>
    obtain ⟨k₁, x₁⟩ := e
    rw [List.map_cons, List.pairwise_cons] at hes
    obtain ⟨hhead, hrest⟩ := hes
    unfold Entries.insert
    by_cases hk : k = k₁
    · subst hk
      rw [if_pos rfl, List.map_cons, List.pairwise_cons]
      exact ⟨hhead, hrest⟩
    · by_cases hlt : k < k₁
      · simp only [hk, hlt, if_false, if_true, List.map_cons, List.pairwise_cons, List.mem_cons]
        refine ⟨?_, hhead, hrest⟩
        rintro a (rfl | ha)
        · exact hlt
        · exact lt_trans hlt (hhead a ha)
      · -- the key goes after the head, which is below both it and the rest
        have hgt : k₁ < k := lt_of_le_of_ne (not_lt.1 hlt) (Ne.symm hk)
        simp only [hk, hlt, if_false, List.map_cons, List.pairwise_cons]
        refine ⟨fun a ha => ?_, ih hrest⟩
        rcases (mem_keys_insert rest k a v).1 ha with rfl | ha
        · exact hgt
        · exact hhead a ha

theorem length_eq_card {es : Entries} (hes : (es.map Prod.fst).Pairwise (· < ·)) :
    es.length = (es.map Prod.fst).toFinset.card := by
  rw [List.toFinset_card_of_nodup hes.nodup, List.length_map]

theorem lookup_isSome_iff (es : Entries) (k : String) :
    (es.lookup k).isSome ↔ k ∈ es.map Prod.fst := by
  constructor
  · intro hk
    obtain ⟨x, hx⟩ := Option.isSome_iff_exists.1 hk
    exact mem_keys_of_lookup hx
  · intro hk
    obtain ⟨x, hx⟩ := lookup_of_mem_keys hk
    simp [hx]

end Entries

/-! ## Positions in an array -/

/-- The positions a number picks in an array of `len` items: its whole part toward zero when that
lies in `[0, len)`, and the first one for NaN. -/
def Picks (len : Nat) (x : Float) (i : Nat) : Prop :=
  i < len ∧ (decode x = .nan ∧ i = 0 ∨ truncInt? x = some (i : ℤ))

namespace Eval

theorem extended_zero : extended 0 = some (((0 : ℚ) : WithTop ℚ) : WithBot (WithTop ℚ)) := by
  have := @extended_ofNat 0 (by decide)
  rw [Nat.cast_zero] at this
  exact this

/-- NaN fails both range comparisons and converts to position 0, whatever the length. -/
theorem position_nan {x : Float} (hd : decode x = .nan) (len : Nat) :
    position (.number x) len = .ok 0 := by
  have htr : truncate x = x := by simp [truncate, hd]
  have hext : extended x = none := by simp [extended, hd, Decoded.value]
  have hlt : ¬ x < 0 := by simp [lt_iff_extended, hext]
  have hle : ¬ Float.ofNat len ≤ x := by simp [le_iff_extended, hext]
  have hint : toInt64? x = none := by simp [toInt64?, hd]
  simp [position, htr, hlt, hle, hint]

/-- A number picks a position in an array of fewer than `2^53` items exactly when it is finite
and its whole part lies in `[0, len)`, which is then the position; NaN picks position 0. -/
theorem position_number (x : Float) {len : Nat} (hlen : len < 2 ^ 53) (i : Nat) :
    position (.number x) len = .ok i ↔
      (decode x = .nan ∧ i = 0) ∨
        (∃ t, truncInt? x = some t ∧ 0 ≤ t ∧ t < len ∧ i = t.toNat) := by
  have hzero := extended_zero
  have hlenv := extended_ofNat hlen
  cases hd : decode x with
  | nan =>
    have htrunc : truncInt? x = none := by simp [truncInt?, toRat?, hd]
    rw [position_nan hd]
    simp [htrunc, eq_comm]
  | infinite neg =>
    have htr : truncate x = x := by simp [truncate, hd]
    have hext : extended x = some (if neg then ⊥ else ⊤) := by simp [extended, hd, Decoded.value]
    have htrunc : truncInt? x = none := by simp [truncInt?, toRat?, hd]
    have hout : x < 0 ∨ Float.ofNat len ≤ x := by
      cases neg
      · exact .inr ((le_iff_extended _ _).2 ⟨_, _, hlenv, hext, le_top⟩)
      · exact .inl ((lt_iff_extended _ _).2 ⟨_, _, hext, hzero, WithBot.bot_lt_coe _⟩)
    simp [position, htr, hout, htrunc]
  | finite neg b =>
    obtain ⟨t, htrunc, hext, hint⟩ := truncate_finite hd
    have hlt : truncate x < 0 ↔ t < 0 := by
      rw [lt_iff_extended]
      simp [hext, hzero]
    have hle : Float.ofNat len ≤ truncate x ↔ (len : ℤ) ≤ t := by
      rw [le_iff_extended]
      simp [hext, hlenv]
      norm_cast
    unfold position
    simp only [decide_eq_true_iff, hlt, hle, Bool.or_eq_true, hint, htrunc]
    -- a whole part out of `[0, len)` is refused; one inside fits in 64 bits and is the position
    by_cases hout : t < 0 ∨ (len : ℤ) ≤ t
    · rw [if_pos hout]
      simp only [reduceCtorEq, false_and, Option.some.injEq, exists_eq_left', false_or, false_iff]
      omega
    · have hpow : Int.pow 2 63 = 2 ^ 63 := rfl
      have hin : -Int.pow 2 63 ≤ t ∧ t < Int.pow 2 63 := by
        rw [hpow]
        omega
      rw [if_neg hout, if_pos hin]
      simp only [Option.map_some, Option.getD_some, Except.ok.injEq, reduceCtorEq, false_and,
        Option.some.injEq, exists_eq_left', false_or]
      omega

/-- Where the array is not empty or the number is not NaN, the positions a number picks are the
ones `Picks` names. -/
theorem position_iff_picks (x : Float) {len : Nat} (hlen : len < 2 ^ 53)
    (hnan : decode x = .nan → 0 < len) (i : Nat) :
    position (.number x) len = .ok i ↔ Picks len x i := by
  rw [position_number x hlen i, Picks]
  constructor
  · rintro (⟨hd, rfl⟩ | ⟨t, ht, h0, hl, rfl⟩)
    · exact ⟨hnan hd, .inl ⟨hd, rfl⟩⟩
    · refine ⟨by omega, .inr ?_⟩
      rw [ht, Int.toNat_of_nonneg h0]
  · rintro ⟨hi, ⟨hd, rfl⟩ | ht⟩
    · exact .inl ⟨hd, rfl⟩
    · exact .inr ⟨i, ht, by omega, by exact_mod_cast hi, by simp⟩

theorem position_of_picks {x : Float} {len i : Nat} (hlen : len < 2 ^ 53) (hp : Picks len x i) :
    position (.number x) len = .ok i :=
  (position_iff_picks x hlen (fun _ => Nat.lt_of_le_of_lt (Nat.zero_le i) hp.1) i).2 hp

/-- A number that picks no position is reported with its whole part and the length. -/
theorem position_error {x : Float} {len : Nat} {c : Cause}
    (h : position (.number x) len = .error c) : c = .indexRange (truncate x) len := by
  unfold position at h
  simp only at h
  split at h
  · cases h
    rfl
  · cases h

theorem position_range {x : Float} {len : Nat} (hlen : len < 2 ^ 53) (hnan : decode x ≠ .nan)
    (hout : ∀ i, ¬ Picks len x i) :
    position (.number x) len = .error (.indexRange (truncate x) len) := by
  cases hp : position (.number x) len with
  | error c => rw [position_error hp]
  | ok i => exact absurd ((position_iff_picks x hlen (fun hd => absurd hd hnan) i).1 hp) (hout i)

theorem position_type {k : Value} (hk : ∀ x, k ≠ .number x) (len : Nat) :
    position k len = .error (.indexType k.type) := by
  unfold position
  split
  · exact absurd rfl (hk _)
  · rfl

/-- A position past the end comes only from a NaN index: any other index is checked against the
length first. -/
theorem position_past_end {k : Value} {len i : Nat} (hlen : len < 2 ^ 53)
    (hp : position k len = .ok i) (hi : len ≤ i) : ∃ x, k = .number x ∧ decode x = .nan ∧ i = 0 := by
  cases k with
  | number x =>
    rcases (position_number x hlen i).1 hp with ⟨hd, rfl⟩ | ⟨t, _, _, hl, rfl⟩
    · exact ⟨x, rfl, hd, rfl⟩
    · omega
  | _ => simp [position] at hp

theorem position_error_kind {k : Value} {len : Nat} {c : Cause} (hp : position k len = .error c) :
    c.kind ≠ .panic := by
  unfold position at hp
  split at hp
  · dsimp only at hp
    split at hp <;> cases hp
    nofun
  · cases hp
    nofun

/-- Picking a position and then reaching it, where reaching panics exactly past the end, panics
exactly where a NaN index meets an empty array. -/
theorem position_bind_panics_iff {α : Type} {g : Nat → Except Cause α} {k : Value} {len : Nat}
    (hlen : len < 2 ^ 53) (hg : ∀ i, (∃ c, g i = .error c ∧ c.kind = .panic) ↔ len ≤ i) :
    (∃ c, (position k len >>= g) = .error c ∧ c.kind = .panic) ↔
      len = 0 ∧ ∃ x, k = .number x ∧ decode x = .nan := by
  cases hp : position k len with
  | error c =>
    have hbind : (Except.error c >>= g : Except Cause α) = .error c := rfl
    rw [hbind]
    constructor
    · rintro ⟨c', hc', hk⟩
      cases hc'
      exact absurd hk (position_error_kind hp)
    · rintro ⟨-, x, rfl, hd⟩
      rw [position_nan hd] at hp
      cases hp
  | ok i =>
    refine (hg i).trans ⟨fun hi => ?_, fun ⟨h0, _⟩ => by omega⟩
    obtain ⟨x, rfl, hd, rfl⟩ := position_past_end hlen hp hi
    exact ⟨by omega, x, rfl, hd⟩

/-! ## Attributes and arity -/

theorem getNamed_eq (recv : Receiver) (name : String) :
    getNamed recv name =
      if name ∈ recv.methodNames then .ok name else .error (.noAttribute recv.type name) := by
  by_cases hmem : name ∈ recv.methodNames
  · rw [if_pos hmem]
    obtain ⟨m, hm⟩ : ∃ m, recv.methodNames.find? (· == name) = some m :=
      Option.isSome_iff_exists.1 (List.find?_isSome.2 ⟨name, hmem, by simp⟩)
    have hname : m = name := by simpa using List.find?_some hm
    unfold getNamed
    rw [hm, hname]
  · rw [if_neg hmem]
    exact getNamed_of_not_mem hmem

/-- The number of arguments each method takes. -/
def methodArity : String → Nat
  | "push" | "has" => 1
  | "update" => 2
  | _ => 0

theorem expectArity_of_ne {name : String} {args : List Value} {n : Nat} (h : args.length ≠ n) :
    expectArity name args n = .error (.builtinArity name n args.length) := by
  simp [expectArity, h]

/-- A method called with the wrong number of arguments fails before it does anything else. -/
theorem invokeMethod_arity (h : Heap) (recv : Receiver) {name : String} (args : List Value)
    (hname : name ∈ recv.methodNames) (hargs : args.length ≠ methodArity name) :
    invokeMethod h recv name args = .error (.builtinArity name (methodArity name) args.length) := by
  cases recv with
  | array r =>
    simp only [Receiver.methodNames, arrayMethods, List.mem_cons, List.not_mem_nil,
      or_false] at hname
    rcases hname with rfl | rfl | rfl | rfl <;> simp +decide only [methodArity] at hargs ⊢ <;>
      simp [invokeMethod, invokeArrayMethod, expectArity_of_ne hargs, bind, Except.bind]
  | dict r =>
    simp only [Receiver.methodNames, dictMethods, List.mem_cons, List.not_mem_nil,
      or_false] at hname
    rcases hname with rfl | rfl | rfl | rfl <;> simp +decide only [methodArity] at hargs ⊢ <;>
      simp [invokeMethod, invokeDictMethod, expectArity_of_ne hargs, bind, Except.bind]

/-! ## Arrays -/

section Arrays

variable {h : Heap} {r : Ref} {xs : Array Value}

/-- What indexing, the attributes and the methods of the array at `r` do, in terms of its items
`xs`. -/
structure ArrayLaws (h : Heap) (r : Ref) (xs : Array Value) : Prop where
  attr : ∀ name, (Value.array r).attribute name =
    if name ∈ arrayMethods then .ok (.method (.array r) name) else .error (.noAttribute .array name)
  arity : ∀ name args, name ∈ arrayMethods → args.length ≠ methodArity name →
    invokeMethod h (.array r) name args = .error (.builtinArity name (methodArity name) args.length)
  index : ∀ x v, (decode x = .nan → 0 < xs.size) →
    (indexValue h (.array r) (.number x) = .ok v ↔ ∃ i, Picks xs.size x i ∧ xs[i]? = some v)
  index_range : ∀ x, decode x ≠ .nan → (∀ i, ¬ Picks xs.size x i) →
    indexValue h (.array r) (.number x) = .error (.indexRange (truncate x) xs.size)
  index_type : ∀ k, (∀ x, k ≠ .number x) → indexValue h (.array r) k = .error (.indexType k.type)
  length : invokeMethod h (.array r) "length" [] = .ok (h, .number (Float.ofNat xs.size)) ∧
    extended (Float.ofNat xs.size) = some (((xs.size : ℚ) : WithTop ℚ) : WithBot (WithTop ℚ))
  push : ∀ v, ∃ h', invokeMethod h (.array r) "push" [v] = .ok (h', .null) ∧
    h.Replaces r (.array (xs.push v)) h'
  pop : ∀ ys x, xs.toList = ys ++ [x] → ∃ h', invokeMethod h (.array r) "pop" [] = .ok (h', x) ∧
    h.Replaces r (.array ys.toArray) h'
  pop_empty : xs.size = 0 → invokeMethod h (.array r) "pop" [] = .error .popEmpty
  update : ∀ x v i, Picks xs.size x i →
    ∃ h', invokeMethod h (.array r) "update" [.number x, v] = .ok (h', .null) ∧
      h.Replaces r (.array (xs.set! i v)) h'
  update_range : ∀ x v, decode x ≠ .nan → (∀ i, ¬ Picks xs.size x i) →
    invokeMethod h (.array r) "update" [.number x, v] = .error (.indexRange (truncate x) xs.size)
  update_type : ∀ k v, (∀ x, k ≠ .number x) →
    invokeMethod h (.array r) "update" [k, v] = .error (.indexType k.type)

theorem attribute_array (r : Ref) (name : String) : (Value.array r).attribute name =
    if name ∈ arrayMethods then .ok (.method (.array r) name) else .error (.noAttribute .array name) := by
  show (getNamed (.array r) name).map _ = _
  simp only [getNamed_eq, Receiver.methodNames, Receiver.type]
  by_cases hm : name ∈ arrayMethods <;> simp [hm, Except.map]

theorem indexValue_array (hr : h.get? r = some (.array xs)) (k : Value) :
    indexValue h (.array r) k = position k xs.size >>= itemAt xs := by
  simp only [indexValue, Heap.items_of_get hr]

theorem itemAt_of_lt {i : Nat} (hi : i < xs.size) : itemAt xs i = .ok xs[i] := dif_pos hi

theorem setAt_of_lt {i : Nat} (v : Value) (hi : i < xs.size) : setAt xs i v = .ok (xs.set! i v) :=
  if_pos hi

theorem itemAt_panics_iff (i : Nat) :
    (∃ c, itemAt xs i = .error c ∧ c.kind = .panic) ↔ xs.size ≤ i := by
  unfold itemAt
  split
  · simp only [reduceCtorEq, false_and, exists_false, false_iff]
    omega
  · exact ⟨fun _ => by omega, fun _ => ⟨_, rfl, rfl⟩⟩

theorem setAt_panics_iff {β : Type} (i : Nat) (v : Value) (f : Array Value → β) :
    (∃ c, (setAt xs i v).map f = .error c ∧ c.kind = .panic) ↔ xs.size ≤ i := by
  unfold setAt
  split
  · simp only [Except.map, reduceCtorEq, false_and, exists_false, false_iff]
    omega
  · exact ⟨fun _ => by omega, fun _ => ⟨_, rfl, rfl⟩⟩

/-- The item a number picks, when it picks one. -/
theorem indexValue_array_number (hr : h.get? r = some (.array xs)) (hsize : xs.size < 2 ^ 53)
    (x : Float) (v : Value) (hnan : decode x = .nan → 0 < xs.size) :
    indexValue h (.array r) (.number x) = .ok v ↔ ∃ i, Picks xs.size x i ∧ xs[i]? = some v := by
  rw [indexValue_array hr]
  constructor
  · intro hv
    cases hp : position (.number x) xs.size with
    | error c => rw [hp] at hv; cases hv
    | ok i =>
      have hpick := (position_iff_picks x hsize hnan i).1 hp
      rw [hp] at hv
      change itemAt xs i = .ok v at hv
      rw [itemAt_of_lt hpick.1, Except.ok.injEq] at hv
      exact ⟨i, hpick, hv ▸ Array.getElem?_eq_getElem hpick.1⟩
  · rintro ⟨i, hpick, hi⟩
    rw [position_of_picks hsize hpick]
    change itemAt xs i = .ok v
    rw [itemAt_of_lt hpick.1, Option.some_inj.1 ((Array.getElem?_eq_getElem hpick.1).symm.trans hi)]

theorem array_pop_of_append {ys : List Value} {x : Value} (hxs : xs.toList = ys ++ [x]) :
    xs.back? = some x ∧ xs.pop = ys.toArray := by
  cases xs with
  | mk l =>
    simp only at hxs
    subst hxs
    simp

theorem invokeMethod_push (hr : h.get? r = some (.array xs)) (v : Value) :
    invokeMethod h (.array r) "push" [v] = .ok (h.put r (.array (xs.push v)), .null) := by
  simp [invokeMethod, invokeArrayMethod, expectArity, Heap.items_of_get hr, bind, Except.bind,
    pure, Except.pure]

theorem invokeMethod_pop (hr : h.get? r = some (.array xs)) :
    invokeMethod h (.array r) "pop" [] = match xs.back? with
      | some x => .ok (h.put r (.array xs.pop), x)
      | none => .error .popEmpty := by
  simp only [invokeMethod, invokeArrayMethod, expectArity, Heap.items_of_get hr]
  rfl

theorem invokeMethod_update (hr : h.get? r = some (.array xs)) (k v : Value) :
    invokeMethod h (.array r) "update" [k, v] =
      position k xs.size >>= fun i => (setAt xs i v).map fun ys => (h.put r (.array ys), .null) := by
  cases hp : position k xs.size with
  | error c =>
    simp [invokeMethod, invokeArrayMethod, expectArity, Heap.items_of_get hr, hp, bind,
      Except.bind]
  | ok i =>
    cases hs : setAt xs i v <;>
      simp [invokeMethod, invokeArrayMethod, expectArity, Heap.items_of_get hr, hp, hs, bind,
        Except.bind, Except.map, pure, Except.pure]

theorem array_laws (hr : h.get? r = some (.array xs)) (hsize : xs.size < 2 ^ 53) :
    ArrayLaws h r xs where
  attr := attribute_array r
  arity _ args hname hargs := invokeMethod_arity h (.array r) args hname hargs
  index := indexValue_array_number hr hsize
  index_range x hnan hout := by
    rw [indexValue_array hr, position_range hsize hnan hout]
    rfl
  index_type k hk := by
    rw [indexValue_array hr, position_type hk]
    rfl
  length := by
    refine ⟨?_, extended_ofNat hsize⟩
    simp only [invokeMethod, invokeArrayMethod, expectArity, Heap.items_of_get hr]
    rfl
  push v := ⟨_, invokeMethod_push hr v, Heap.replaces_put hr _⟩
  pop ys x hxs := by
    obtain ⟨hback, hpop⟩ := array_pop_of_append hxs
    refine ⟨_, ?_, Heap.replaces_put hr _⟩
    rw [invokeMethod_pop hr, hback, hpop]
  pop_empty h0 := by
    rw [invokeMethod_pop hr, Array.back?_eq_none_iff.2 (Array.size_eq_zero_iff.1 h0)]
  update x v i hpick := by
    refine ⟨_, ?_, Heap.replaces_put hr _⟩
    rw [invokeMethod_update hr, position_of_picks hsize hpick]
    change (setAt xs i v).map _ = _
    rw [setAt_of_lt v hpick.1]
    rfl
  update_range x v hnan hout := by
    rw [invokeMethod_update hr, position_range hsize hnan hout]
    rfl
  update_type k v hk := by
    rw [invokeMethod_update hr, position_type hk]
    rfl

/-- Reading or updating an array panics exactly where a NaN index meets an empty array: NaN passes
the range check and picks position 0, which only an empty array lacks, and every other index picks
a position inside the array or is refused with a fault of the language. -/
theorem array_access_panics_iff (hr : h.get? r = some (.array xs)) (hsize : xs.size < 2 ^ 53)
    (k v : Value) :
    ((∃ c, indexValue h (.array r) k = .error c ∧ c.kind = .panic) ↔
        xs.size = 0 ∧ ∃ x, k = .number x ∧ decode x = .nan) ∧
      ((∃ c, invokeMethod h (.array r) "update" [k, v] = .error c ∧ c.kind = .panic) ↔
        xs.size = 0 ∧ ∃ x, k = .number x ∧ decode x = .nan) := by
  rw [indexValue_array hr, invokeMethod_update hr]
  exact ⟨position_bind_panics_iff hsize itemAt_panics_iff,
    position_bind_panics_iff hsize fun i => setAt_panics_iff i v _⟩

end Arrays

/-! ## Dicts -/

section Dicts

variable {h : Heap} {r : Ref} {es : Entries}

/-- What indexing, the attributes and the methods of the dict at `r` do, in terms of its entries
`es`: a finite map whose keys are listed in ascending order. -/
structure DictLaws (h : Heap) (r : Ref) (es : Entries) : Prop where
  attr : ∀ name, (Value.dict r).attribute name =
    if name ∈ dictMethods then .ok (.method (.dict r) name) else .error (.noAttribute .dict name)
  arity : ∀ name args, name ∈ dictMethods → args.length ≠ methodArity name →
    invokeMethod h (.dict r) name args = .error (.builtinArity name (methodArity name) args.length)
  index : ∀ k v, indexValue h (.dict r) (.str k) = .ok v ↔ es.lookup k = some v
  index_missing : ∀ k, k ∉ es.map Prod.fst →
    indexValue h (.dict r) (.str k) = .error (.missingKey k)
  index_type : ∀ k, (∀ s, k ≠ .str s) →
    indexValue h (.dict r) k = .error (.keyType "lookup" k.type)
  update : ∀ k v, ∃ h' es', invokeMethod h (.dict r) "update" [.str k, v] = .ok (h', .null) ∧
    h.Replaces r (.dict es') h' ∧ (∀ k', es'.lookup k' = if k' = k then some v else es.lookup k') ∧
    (es'.map Prod.fst).Pairwise (· < ·)
  update_type : ∀ k v, (∀ s, k ≠ .str s) →
    invokeMethod h (.dict r) "update" [k, v] = .error (.keyType "update" k.type)
  has : ∀ k, invokeMethod h (.dict r) "has" [.str k] = .ok (h, .bool (decide (k ∈ es.map Prod.fst)))
  has_type : ∀ k, (∀ s, k ≠ .str s) →
    invokeMethod h (.dict r) "has" [k] = .error (.keyType "has" k.type)
  keys : ∃ h', invokeMethod h (.dict r) "keys" [] = .ok (h', .array h.size) ∧
    h.Extends (.array ((es.map Prod.fst).map Value.str).toArray) h' ∧
    (es.map Prod.fst).Pairwise fun a b => Text.utf8Bytes a < Text.utf8Bytes b
  length : invokeMethod h (.dict r) "length" [] =
    .ok (h, .number (Float.ofNat (es.map Prod.fst).toFinset.card))

theorem attribute_dict (r : Ref) (name : String) : (Value.dict r).attribute name =
    if name ∈ dictMethods then .ok (.method (.dict r) name) else .error (.noAttribute .dict name) := by
  show (getNamed (.dict r) name).map _ = _
  simp only [getNamed_eq, Receiver.methodNames, Receiver.type]
  by_cases hm : name ∈ dictMethods <;> simp [hm, Except.map]

theorem keyText_type {k : Value} (hk : ∀ s, k ≠ .str s) (context : String) :
    keyText context k = .error (.keyType context k.type) := by
  unfold keyText
  split
  · exact absurd rfl (hk _)
  · rfl

theorem indexValue_dict (hr : h.get? r = some (.dict es)) (k : String) :
    indexValue h (.dict r) (.str k) = (es.lookup k).elim (.error (.missingKey k)) .ok := by
  simp only [indexValue, Heap.entries_of_get hr, keyText, bind, Except.bind]
  cases es.lookup k <;> rfl

theorem invokeMethod_dict_update (hr : h.get? r = some (.dict es)) (k : String) (v : Value) :
    invokeMethod h (.dict r) "update" [.str k, v] = .ok (h.put r (.dict (es.insert k v)), .null) := by
  simp [invokeMethod, invokeDictMethod, expectArity, keyText, Heap.entries_of_get hr, bind,
    Except.bind, pure, Except.pure]

theorem dict_laws (hr : h.get? r = some (.dict es)) (hes : (es.map Prod.fst).Pairwise (· < ·)) :
    DictLaws h r es where
  attr := attribute_dict r
  arity _ args hname hargs := invokeMethod_arity h (.dict r) args hname hargs
  index k v := by
    rw [indexValue_dict hr]
    cases es.lookup k <;> simp
  index_missing k hk := by
    have hnone : es.lookup k = none := by
      rw [← Option.not_isSome_iff_eq_none, Entries.lookup_isSome_iff]
      exact hk
    rw [indexValue_dict hr, hnone]
    rfl
  index_type k hk := by
    simp only [indexValue, keyText_type hk, bind, Except.bind]
  update k v := ⟨_, _, invokeMethod_dict_update hr k v, Heap.replaces_put hr _,
    fun k' => Entries.lookup_insert es k k' v, Entries.insert_ascending hes k v⟩
  update_type k v hk := by
    simp [invokeMethod, invokeDictMethod, expectArity, keyText_type hk, bind, Except.bind]
  has k := by
    have hmem : (es.lookup k).isSome = decide (k ∈ es.map Prod.fst) := by
      rw [Bool.eq_iff_iff, decide_eq_true_iff]
      exact Entries.lookup_isSome_iff es k
    simp [invokeMethod, invokeDictMethod, expectArity, keyText, Heap.entries_of_get hr, bind,
      Except.bind, pure, Except.pure, hmem]
  has_type k hk := by
    simp [invokeMethod, invokeDictMethod, expectArity, keyText_type hk, bind, Except.bind]
  keys := by
    refine ⟨_, ?_, Heap.extends_alloc _, hes.imp fun hab => (Text.lt_iff_utf8Bytes_lt _ _).1 hab⟩
    simp [invokeMethod, invokeDictMethod, expectArity, Heap.entries_of_get hr, bind,
      Except.bind, pure, Except.pure, Heap.alloc, Heap.size, Function.comp_def]
  length := by
    rw [← Entries.length_eq_card hes]
    simp only [invokeMethod, invokeDictMethod, expectArity, Heap.entries_of_get hr]
    rfl

end Dicts

/-! ## Failures leave the machine as it was -/

theorem exec_onHeap_error {α : Type} {f : Heap → Except Cause (Heap × α)} {m : Machine} {c : Cause}
    (hf : f m.heap = .error c) : exec (onHeap f) m = (.error (.fault (Fault.ofCause c)), m) := by
  unfold onHeap
  rw [exec_bind, exec_get]
  simp only [hf]
  rfl

/-- A method call that fails leaves the machine as it was: every check comes before the heap is
written. -/
theorem exec_method_error (n : Nat) (m : Machine) (recv : Receiver) (name : String)
    (args : List Value) {c : Cause} (hc : invokeMethod m.heap recv name args = .error c) :
    exec (callValue (n + 1) (.method recv name) args) m = (.error (.fault (Fault.ofCause c)), m) := by
  simp only [callValue]
  exact exec_onHeap_error hc

/-- Containers behave as the lists and finite maps they hold, NaN apart. -/
theorem containers_follow_lists_and_maps (h : Heap) (r : Ref) :
    (∀ xs, h.get? r = some (.array xs) → xs.size < 2 ^ 53 → ArrayLaws h r xs) ∧
    (∀ es, h.get? r = some (.dict es) → (es.map Prod.fst).Pairwise (· < ·) → DictLaws h r es) ∧
    ∀ n m recv name args c, invokeMethod m.heap recv name args = .error c →
      exec (callValue (n + 1) (.method recv name) args) m = (.error (.fault (Fault.ofCause c)), m) :=
  ⟨fun _ hr hsize => array_laws hr hsize, fun _ hr hes => dict_laws hr hes,
    fun n m recv name args _ hc => exec_method_error n m recv name args hc⟩

/-- A NaN index passes both range checks of an array and reads its first item. -/
theorem index_nan_reads_first_item :
    indexValue ⟨#[.array #[.number 7]]⟩ (.array 0) (.number (0 / 0)) = .ok (.number 7) := by
  rfl

end Eval

end Arson
