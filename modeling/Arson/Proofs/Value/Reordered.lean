import Arson.Value.Display
import Arson.Value.Equality
import Mathlib.Data.List.Forall2
/-!
# Bindings listed in another order

A scope binds each name at most once, and a program sees of it only the value a name is bound
to; the order the bindings are listed in is an accident of how they were made. Two scopes are
`Reordered` when they hold the same bindings, each name once, perhaps listed in other orders;
two environments when their scopes are, one by one; two heaps when their cells agree, a
function's cell up to the order of the environment it was made in.

Binding a name keeps two environments reordered, and they give every name the same value and
list the same names up to order. Everything a program reads off a heap is the same on two
reordered heaps: the items and entries of a container, the name, parameters and body of a
function, truthiness, the display and debug forms of a value, and the equality of two values.
-/
namespace Arson

/-- Two scopes with the same bindings, each name at most once, perhaps listed in other orders. -/
def Scope.Reordered (s s' : Scope) : Prop := (s.map Prod.fst).Nodup ∧ s.Perm s'

namespace Scope

variable {s s' : Scope} {k : String} {v : Value}

theorem mem_of_get? (h : s.get? k = some v) : (k, v) ∈ s := by
  obtain ⟨l₁, l₂, rfl, -⟩ := List.lookup_eq_some_iff.mp h
  simp

theorem get?_of_mem (hs : (s.map Prod.fst).Nodup) (hmem : (k, v) ∈ s) : s.get? k = some v := by
  induction s with
  | nil => cases hmem
  | cons p rest ih =>
    obtain ⟨k', v'⟩ := p
    rw [List.map_cons, List.nodup_cons] at hs
    unfold Scope.get?
    rw [List.lookup_cons]
    rcases List.mem_cons.mp hmem with h | h
    · cases h
      simp
    · have hne : (k == k') = false :=
        beq_eq_false_iff_ne.mpr fun heq => hs.1 (List.mem_map.mpr ⟨(k, v), h, heq⟩)
      rw [hne]
      exact ih hs.2 h

theorem Reordered.nodup_right (h : s.Reordered s') : (s'.map Prod.fst).Nodup :=
  (h.2.map Prod.fst).nodup_iff.mp h.1

theorem Reordered.symm (h : s.Reordered s') : s'.Reordered s := ⟨h.nodup_right, h.2.symm⟩

theorem Reordered.get? (h : s.Reordered s') (k : String) : s.get? k = s'.get? k := by
  cases hk : s.get? k with
  | some v => exact (get?_of_mem h.nodup_right (h.2.subset (mem_of_get? hk))).symm
  | none =>
    unfold Scope.get? at hk ⊢
    rw [List.lookup_eq_none_iff] at hk
    exact (List.lookup_eq_none_iff.mpr fun p hp => hk p (h.2.symm.subset hp)).symm

/-- Binding a name puts it first, in place of its old binding, up to order. -/
theorem set_perm (hs : (s.map Prod.fst).Nodup) (k : String) (v : Value) :
    (s.set k v).Perm ((k, v) :: s.filter fun p => p.1 ≠ k) := by
  induction s with
  | nil => exact .refl _
  | cons p rest ih =>
    obtain ⟨k', v'⟩ := p
    rw [List.map_cons, List.nodup_cons] at hs
    unfold Scope.set
    by_cases hk : k' = k
    · subst hk
      -- the name was bound here, so nowhere after
      have hkeep : rest.filter (fun p => p.1 ≠ k') = rest :=
        List.filter_eq_self.mpr fun p hp => by
          have hmem : p.1 ∈ rest.map Prod.fst := List.mem_map_of_mem hp
          have hp' : p.1 ≠ k' := fun heq => hs.1 (heq ▸ hmem)
          simpa using hp'
      rw [if_pos rfl, List.filter_cons_of_neg (by simp), hkeep]
    · rw [if_neg hk, List.filter_cons_of_pos (by simpa using hk)]
      exact ((ih hs.2).cons _).trans (.swap _ _ _)

theorem nodup_set (hs : (s.map Prod.fst).Nodup) (k : String) (v : Value) :
    ((s.set k v).map Prod.fst).Nodup := by
  refine ((set_perm hs k v).map Prod.fst).nodup_iff.mpr ?_
  rw [List.map_cons, List.nodup_cons]
  refine ⟨fun hk => ?_, (hs.sublist (List.filter_sublist.map Prod.fst))⟩
  obtain ⟨p, hp, hpk⟩ := List.mem_map.mp hk
  have hne : p.1 ≠ k := by simpa using List.of_mem_filter hp
  exact hne hpk

theorem Reordered.set (h : s.Reordered s') (k : String) (v : Value) :
    (s.set k v).Reordered (s'.set k v) :=
  ⟨nodup_set h.1 k v, (set_perm h.1 k v).trans
    (((h.2.filter _).cons _).trans (set_perm h.nodup_right k v).symm)⟩

end Scope

/-- Two environments whose scopes are reordered one by one. -/
def Env.Reordered (e e' : Env) : Prop := List.Forall₂ Scope.Reordered e.scopes e'.scopes

namespace Env.Reordered

variable {e e' : Env}

theorem define (h : e.Reordered e') (k : String) (v : Value) :
    (e.define k v).Reordered (e'.define k v) := by
  obtain ⟨ss⟩ := e
  obtain ⟨ss'⟩ := e'
  cases h with
  | nil => exact .nil
  | cons hs hrest => exact .cons (hs.set k v) hrest

theorem foldl_define (ps : List (String × Value)) (h : e.Reordered e') :
    (ps.foldl (fun e p => e.define p.1 p.2) e).Reordered
      (ps.foldl (fun e p => e.define p.1 p.2) e') := by
  induction ps generalizing e e' with
  | nil => exact h
  | cons p rest ih => exact ih (h.define p.1 p.2)

theorem enclose (h : e.Reordered e') : e.enclose.Reordered e'.enclose :=
  .cons ⟨List.nodup_nil, .refl _⟩ h

theorem get? (h : e.Reordered e') (k : String) : e.get? k = e'.get? k := by
  obtain ⟨ss⟩ := e
  obtain ⟨ss'⟩ := e'
  change List.Forall₂ Scope.Reordered ss ss' at h
  unfold Env.get?
  induction h with
  | nil => rfl
  | cons hs _ ih => rw [List.findSome?_cons, List.findSome?_cons, hs.get? k, ih]

theorem names (h : e.Reordered e') : e.names.Perm e'.names := by
  obtain ⟨ss⟩ := e
  obtain ⟨ss'⟩ := e'
  change List.Forall₂ Scope.Reordered ss ss' at h
  unfold Env.names
  induction h with
  | nil => exact .nil
  | cons hs _ ih => exact (hs.2.map Prod.fst).append ih

theorem current (h : e.Reordered e') : e.current.Reordered e'.current := by
  obtain ⟨ss⟩ := e
  obtain ⟨ss'⟩ := e'
  cases h with
  | nil => exact ⟨List.nodup_nil, .refl _⟩
  | cons hs _ => exact hs

end Env.Reordered

/-- Two functions alike but for the order of the environment they were made in. -/
structure Closure.Reordered (c c' : Closure) : Prop where
  name : c.name = c'.name
  params : c.params = c'.params
  body : c.body = c'.body
  env : c.env.Reordered c'.env

theorem Closure.Reordered.label {c c' : Closure} (h : c.Reordered c') : c.label = c'.label := by
  unfold Closure.label
  rw [h.name]

/-- Two heap cells alike: the same container, or functions reordered. -/
def Cell.Reordered : Cell → Cell → Prop
  | .array xs, .array ys => xs = ys
  | .dict es, .dict fs => es = fs
  | .function c, .function c' => c.Reordered c'
  | _, _ => False

/-- Two heaps of as many cells, alike one by one. -/
structure Heap.Reordered (h h' : Heap) : Prop where
  size : h.size = h'.size
  get? : ∀ r, Option.Rel Cell.Reordered (h.get? r) (h'.get? r)

namespace Heap.Reordered

variable {h h' : Heap}

/-- A reference reads no cell on either heap, or reordered cells. -/
theorem cell (hh : h.Reordered h') (r : Ref) :
    (h.get? r = none ∧ h'.get? r = none) ∨
      ∃ a b, h.get? r = some a ∧ h'.get? r = some b ∧ a.Reordered b := by
  have hr := hh.get? r
  generalize h.get? r = x at hr ⊢
  generalize h'.get? r = y at hr ⊢
  cases hr with
  | none => exact .inl ⟨rfl, rfl⟩
  | some hab => exact .inr ⟨_, _, rfl, rfl, hab⟩

theorem items (hh : h.Reordered h') (r : Ref) : h.items r = h'.items r := by
  unfold Heap.items
  rcases hh.cell r with ⟨ha, hb⟩ | ⟨a, b, ha, hb, hab⟩
  · rw [ha, hb]
  · rw [ha, hb]
    cases a <;> cases b <;> first | rfl | (cases hab; rfl) | cases hab

theorem entries (hh : h.Reordered h') (r : Ref) : h.entries r = h'.entries r := by
  unfold Heap.entries
  rcases hh.cell r with ⟨ha, hb⟩ | ⟨a, b, ha, hb, hab⟩
  · rw [ha, hb]
  · rw [ha, hb]
    cases a <;> cases b <;> first | rfl | (cases hab; rfl) | cases hab

theorem closure (hh : h.Reordered h') (r : Ref) : (h.closure r).Reordered (h'.closure r) := by
  -- a cell that holds no function reads as the default function on both sides
  have hdefault : (default : Closure).Reordered default := ⟨rfl, rfl, rfl, .nil⟩
  unfold Heap.closure
  rcases hh.cell r with ⟨ha, hb⟩ | ⟨a, b, ha, hb, hab⟩
  · rw [ha, hb]
    exact hdefault
  · rw [ha, hb]
    cases a <;> cases b <;> first | exact hdefault | exact hab | cases hab

theorem alloc (hh : h.Reordered h') {c c' : Cell} (hc : c.Reordered c') :
    (h.alloc c).1.Reordered (h'.alloc c').1 ∧ (h.alloc c).2 = (h'.alloc c').2 := by
  refine ⟨⟨?_, fun r => ?_⟩, hh.size⟩
  · simp only [Heap.alloc, Heap.size, Array.size_push]
    exact congrArg (· + 1) hh.size
  · simp only [Heap.alloc, Heap.get?, Array.getElem?_push]
    have hs : h.cells.size = h'.cells.size := hh.size
    rw [hs]
    split
    · exact .some hc
    · exact hh.get? r

theorem put (hh : h.Reordered h') (r : Ref) {c c' : Cell} (hc : c.Reordered c') :
    (h.put r c).Reordered (h'.put r c') := by
  refine ⟨?_, fun j => ?_⟩
  · simp only [Heap.put, Heap.size, Array.set!_eq_setIfInBounds, Array.size_setIfInBounds]
    exact hh.size
  · simp only [Heap.put, Heap.get?, Array.set!_eq_setIfInBounds, Array.getElem?_setIfInBounds]
    have hs : h.cells.size = h'.cells.size := hh.size
    rw [hs]
    split
    · split
      · exact .some hc
      · exact .none
    · exact hh.get? j

end Heap.Reordered

/-! ### What is read off a heap -/

section Read

variable {h h' : Heap}

theorem Value.truthy_reordered (hh : h.Reordered h') (v : Value) : v.truthy h = v.truthy h' := by
  cases v <;> simp only [Value.truthy, hh.items, hh.entries]

theorem Value.scalarDisplay_reordered (hh : h.Reordered h') (v : Value) :
    v.scalarDisplay h = v.scalarDisplay h' := by
  -- only a function's form reads the heap: its closure's name
  cases v
  case function r =>
    dsimp only [Value.scalarDisplay]
    rw [(hh.closure r).name]
  all_goals rfl

theorem Value.scalarDebug_reordered (hh : h.Reordered h') (v : Value) :
    v.scalarDebug h = v.scalarDebug h' := by
  cases v
  case function r =>
    dsimp only [Value.scalarDebug]
    rw [(hh.closure r).label, (hh.closure r).params, (hh.closure r).body]
  all_goals rfl

/-- A value is written alike on two reordered heaps, in both forms. -/
theorem Value.render_reordered (hh : h.Reordered h') (debug : Bool) (path : List Ref) (v : Value) :
    v.render debug h path = v.render debug h' path := by
  -- on the number of containers that may still be opened, which each nested call lowers
  induction hk : h.size - path.length using Nat.strongRecOn generalizing path v with
  | ind k ih =>
    have inner : ∀ r : Ref, path.length < h.size →
        Value.render debug h (r :: path) = Value.render debug h' (r :: path) := fun r hp =>
      funext fun x => ih _ (by rw [List.length_cons]; omega) (r :: path) x rfl
    cases v with
    | array r =>
      rw [Value.render, Value.render, ← hh.size]
      split_ifs with hr hp
      · rfl
      · rw [hh.items, inner r hp]
      · rfl
    | dict r =>
      rw [Value.render, Value.render, ← hh.size]
      split_ifs with hr hp
      · rfl
      · simp only [hh.entries, inner r hp]
      · rfl
    | _ =>
      simp only [Value.render, Value.scalarDebug_reordered hh, Value.scalarDisplay_reordered hh]

/-- Equality of two values is the same on two reordered heaps. -/
theorem Value.equalUnder_reordered (hh : h.Reordered h') (opened : List (Ref × Ref))
    (a b : Value) :
    a.equalUnder h opened b = a.equalUnder h' opened b := by
  fun_induction Value.equalUnder h opened a b with
  | case8 opened r s hrs | case11 opened r s hrs => rw [Value.equalUnder, if_pos hrs]
  | case9 opened r s hrs hp xs ys ih =>
    have hp' : opened.length < h'.size * h'.size := hh.size ▸ hp
    rw [Value.equalUnder, if_neg hrs, dif_pos hp']
    simp only [xs, ys, hh.items, ih]
  | case12 opened r s hrs hp xs ys ih =>
    have hp' : opened.length < h'.size * h'.size := hh.size ▸ hp
    rw [Value.equalUnder, if_neg hrs, dif_pos hp']
    simp only [xs, ys, hh.entries, ih]
  | case10 opened r s hrs hp | case13 opened r s hrs hp =>
    have hp' : ¬opened.length < h'.size * h'.size := hh.size ▸ hp
    rw [Value.equalUnder, if_neg hrs, dif_neg hp']
  | case14 opened a b hnum hstr hbool hnull hbuiltin hfun hmethod harr hdict =>
    -- both sides take the last arm: each other arm is ruled out by one hypothesis
    rw [Value.equalUnder.eq_def]
    split
    all_goals first
      | rfl
      | exact (hnum _ _ rfl rfl).elim | exact (hstr _ _ rfl rfl).elim
      | exact (hbool _ _ rfl rfl).elim | exact (hnull rfl rfl).elim
      | exact (hbuiltin _ _ rfl rfl).elim | exact (hfun _ _ rfl rfl).elim
      | exact (hmethod _ _ _ _ rfl rfl).elim | exact (harr _ _ rfl rfl).elim
      | exact (hdict _ _ rfl rfl).elim
  | _ => rw [Value.equalUnder]

theorem Value.equal_reordered (hh : h.Reordered h') (a b : Value) : a.equal h b = a.equal h' b :=
  Value.equalUnder_reordered hh [] a b

end Read

end Arson
