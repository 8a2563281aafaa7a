import Arson.Proofs.Eval.ContainerLaws
import Arson.Proofs.Eval.Call
import Arson.Session
/-!
# Evaluation keeps the heap in shape

Display, equality and the laws of containers read a heap as programs build it: its dicts keep
their keys ascending, its arrays and dicts hold only containers of the heap, and so do the
environments its functions were made in (`Heap.Shaped`). A machine is shaped when its heap is and
its environment names only containers of the heap (`Machine.Shaped`).

Cells are only ever added at the end of the heap or replaced in place, so a container of the heap
stays one. `KeepsShape n Q x` says that `x`, started on a shaped machine with at least `n` cells,
ends on a shaped machine with no fewer cells, and gives a value satisfying `Q` at the final
number of cells. `ShapeKept n` says this of every evaluation function at fuel `n`; it is proved
for every fuel by one induction over all the functions at once, as `NoMethodEscapes` is. A run
from a shaped machine, a fresh one included, ends on a shaped one, and so does every step of a
session: on every heap a program builds, display unfolds and equality is bisimilarity.
-/
namespace Arson

open Arson.Eval Arson.Syntax

/-! ### Values, bindings and environments below a number of cells -/

namespace Value

variable {v : Value} {n k : Nat}

theorem RefsBelow.mono (hv : v.RefsBelow n) (hnk : n ≤ k) : v.RefsBelow k :=
  fun r hr => Nat.lt_of_lt_of_le (hv r hr) hnk

theorem refsBelow_of_container (hv : v.container? = none) (n : Nat) : v.RefsBelow n := by
  intro r hr
  rw [hv] at hr
  cases hr

theorem refsBelow_of_isScalar (hv : v.isScalar) (n : Nat) : v.RefsBelow n := by
  refine refsBelow_of_container ?_ n
  cases v <;> first | rfl | cases hv

@[simp] theorem refsBelow_array {r : Ref} : (Value.array r).RefsBelow n ↔ r < n := by
  simp [RefsBelow, container?]

@[simp] theorem refsBelow_dict {r : Ref} : (Value.dict r).RefsBelow n ↔ r < n := by
  simp [RefsBelow, container?]

end Value

/-- Every value of a list of named values, a scope or the entries of a dict, is below `n`. -/
def BindingsBelow (n : Nat) (ps : List (String × Value)) : Prop := ∀ p ∈ ps, p.2.RefsBelow n

namespace BindingsBelow

variable {n : Nat} {ps : List (String × Value)} {k : String} {v : Value}

@[simp] theorem nil : BindingsBelow n [] := by simp [BindingsBelow]

@[simp] theorem cons_iff : BindingsBelow n ((k, v) :: ps) ↔ v.RefsBelow n ∧ BindingsBelow n ps := by
  simp [BindingsBelow]

theorem mono (hs : BindingsBelow n ps) {n' : Nat} (h : n ≤ n') : BindingsBelow n' ps :=
  fun p hp => (hs p hp).mono h

theorem set (hs : BindingsBelow n ps) (hv : v.RefsBelow n) : BindingsBelow n (Scope.set ps k v) := by
  induction ps with
  | nil => simpa [Scope.set] using hv
  | cons p rest ih =>
    obtain ⟨k', v'⟩ := p
    obtain ⟨hv', hrest⟩ := cons_iff.mp hs
    simp only [Scope.set]
    split
    · exact cons_iff.mpr ⟨hv, hrest⟩
    · exact cons_iff.mpr ⟨hv', ih hrest⟩

theorem insert (hs : BindingsBelow n ps) (hv : v.RefsBelow n) :
    BindingsBelow n (Entries.insert ps k v) := by
  induction ps with
  | nil => simpa [Entries.insert] using hv
  | cons p rest ih =>
    obtain ⟨k', v'⟩ := p
    obtain ⟨hv', hrest⟩ := cons_iff.mp hs
    simp only [Entries.insert]
    split
    · exact cons_iff.mpr ⟨hv, hrest⟩
    · split
      · exact cons_iff.mpr ⟨hv, cons_iff.mpr ⟨hv', hrest⟩⟩
      · exact cons_iff.mpr ⟨hv', ih hrest⟩

theorem lookup (hs : BindingsBelow n ps) (h : ps.lookup k = some v) : v.RefsBelow n := by
  obtain ⟨l₁, l₂, rfl, -⟩ := List.lookup_eq_some_iff.mp h
  exact hs (k, v) (by simp)

end BindingsBelow

/-- Every scope of an environment holds values below `n` only. -/
def Env.Below (n : Nat) (e : Env) : Prop := ∀ s ∈ e.scopes, BindingsBelow n s

namespace Env.Below

variable {n : Nat} {e : Env} (he : e.Below n)
include he

theorem mono {n' : Nat} (h : n ≤ n') : e.Below n' := fun s hs => (he s hs).mono h

theorem define {k : String} {v : Value} (hv : v.RefsBelow n) : (e.define k v).Below n := by
  unfold Env.define
  split
  · exact he
  · rename_i s rest hscopes
    intro s' hs'
    simp only [List.mem_cons] at hs'
    rcases hs' with rfl | hs'
    · exact (he s (by simp [hscopes])).set hv
    · exact he s' (by simp [hscopes, hs'])

theorem enclose : e.enclose.Below n := by
  intro s hs
  simp only [Env.enclose, List.mem_cons] at hs
  rcases hs with rfl | hs
  · exact BindingsBelow.nil
  · exact he s hs

theorem get? {k : String} {v : Value} (h : e.get? k = some v) : v.RefsBelow n := by
  obtain ⟨s, hs, hk⟩ := List.exists_of_findSome?_eq_some h
  exact (he s hs).lookup hk

theorem foldl_define {pairs : List (String × Value)} (hpairs : BindingsBelow n pairs) :
    (pairs.foldl (fun e x => e.define x.1 x.2) e).Below n := by
  induction pairs generalizing e with
  | nil => exact he
  | cons p rest ih =>
    obtain ⟨k, v⟩ := p
    obtain ⟨hv, hrest⟩ := BindingsBelow.cons_iff.mp hpairs
    exact ih (he.define hv) hrest

end Env.Below

theorem Env.below_root (n : Nat) : Env.root.Below n := by
  simp [Env.root, Env.Below]

/-- The environment of a call, built on an environment below `n` from arguments below `n`: the
function itself is bound as a function, which is no container. -/
theorem callEnv_below {n : Nat} {r : Ref} {c : Closure} {args : List Value} (hc : c.env.Below n)
    (hargs : ∀ v ∈ args, v.RefsBelow n) : (callEnv r c args).Below n := by
  have hpairs : BindingsBelow n (c.params.zip args) := fun p hp =>
    hargs p.2 (List.of_mem_zip hp).2
  unfold callEnv
  dsimp only
  split
  · exact (hc.enclose.define (Value.refsBelow_of_container rfl n)).foldl_define hpairs
  · exact hc.enclose.foldl_define hpairs

/-! ### Shaped cells and heaps -/

/-- A cell below `n`: the items of an array, the values of a dict, whose keys ascend, and the
environment of a function, all below `n`. -/
def Cell.Below (n : Nat) : Cell → Prop
  | .array xs => ∀ v ∈ xs, v.RefsBelow n
  | .dict es => BindingsBelow n es ∧ (es.map Prod.fst).Pairwise (· < ·)
  | .function c => c.env.Below n

@[simp] theorem Cell.below_array {xs : Array Value} {n : Nat} :
    (Cell.array xs).Below n ↔ ∀ v ∈ xs, v.RefsBelow n := Iff.rfl

@[simp] theorem Cell.below_dict {es : Entries} {n : Nat} :
    (Cell.dict es).Below n ↔ BindingsBelow n es ∧ (es.map Prod.fst).Pairwise (· < ·) := Iff.rfl

@[simp] theorem Cell.below_function {c : Closure} {n : Nat} :
    (Cell.function c).Below n ↔ c.env.Below n := Iff.rfl

theorem Cell.Below.mono {c : Cell} {n n' : Nat} (hc : c.Below n) (h : n ≤ n') : c.Below n' := by
  cases c with
  | array xs => exact fun v hv => (hc v hv).mono h
  | dict es => exact ⟨hc.1.mono h, hc.2⟩
  | function c => exact Env.Below.mono hc h

/-- A heap as programs build it: every cell is below the number of cells. -/
def Heap.Shaped (h : Heap) : Prop := ∀ c ∈ h.cells, c.Below h.size

namespace Heap

@[simp] theorem size_alloc (h : Heap) (c : Cell) : (h.alloc c).1.size = h.size + 1 := by
  simp [alloc, size]

theorem ref_alloc (h : Heap) (c : Cell) : (h.alloc c).2 = h.size := rfl

@[simp] theorem size_put (h : Heap) (r : Ref) (c : Cell) : (h.put r c).size = h.size := by
  simp [put, size]

theorem shaped_empty : ({} : Heap).Shaped := by
  simp [Heap.Shaped]

namespace Shaped

variable {h : Heap} (hh : h.Shaped)
include hh

theorem get? {r : Ref} {c : Cell} (hr : h.get? r = some c) : c.Below h.size :=
  hh c (Array.mem_of_getElem? hr)

theorem items {r : Ref} {v : Value} (hv : v ∈ h.items r) : v.RefsBelow h.size := by
  unfold Heap.items at hv
  split at hv
  · exact Cell.below_array.mp (hh.get? ‹_›) v hv
  · simp at hv

theorem entries (r : Ref) : BindingsBelow h.size (h.entries r) := by
  unfold Heap.entries
  split
  · exact (Cell.below_dict.mp (hh.get? ‹_›)).1
  · exact BindingsBelow.nil

theorem keys (r : Ref) : ((h.entries r).map Prod.fst).Pairwise (· < ·) := by
  unfold Heap.entries
  split
  · exact (Cell.below_dict.mp (hh.get? ‹_›)).2
  · exact List.Pairwise.nil

theorem closure (r : Ref) : (h.closure r).env.Below h.size := by
  unfold Heap.closure
  split
  · exact Cell.below_function.mp (hh.get? ‹_›)
  · exact fun s hs => absurd hs List.not_mem_nil

/-- A shaped heap is what display and equality take: its dicts keep their keys ascending. -/
theorem keysAscending : h.KeysAscending := hh.keys

/-- A shaped heap is what display takes: its arrays and dicts hold only its own containers. -/
theorem closed : h.Closed := fun r =>
  ⟨fun _ hx => hh.items (Array.mem_def.mpr hx), hh.entries r⟩

theorem display_eq_unfold {v : Value} (hv : v.RefsBelow h.size) : v.display h = v.unfold h [] :=
  Value.render_eq_unfold hh.closed hh.keysAscending [] .nil v hv

theorem alloc {c : Cell} (hc : c.Below h.size) : (h.alloc c).1.Shaped := by
  intro c' hc'
  rw [size_alloc]
  rcases Array.mem_push.mp hc' with hc' | rfl
  · exact (hh c' hc').mono (Nat.le_succ _)
  · exact hc.mono (Nat.le_succ _)

theorem put {r : Ref} {c : Cell} (hc : c.Below h.size) : (h.put r c).Shaped := by
  intro c' hc'
  rw [size_put]
  rcases Array.mem_or_eq_of_mem_setIfInBounds hc' with hc' | rfl
  · exact hh c' hc'
  · exact hc

end Shaped

end Heap

namespace Eval

/-- A shaped heap, and an environment that names only containers of it. -/
structure Machine.Shaped (m : Machine) : Prop where
  heap : m.heap.Shaped
  env : m.env.Below m.heap.size

theorem Machine.shaped_fresh : Machine.Shaped {} := ⟨Heap.shaped_empty, Env.below_root _⟩

/-! ### Computations that keep the shape -/

/-- Started on a shaped machine with at least `n` cells, `x` ends on a shaped machine with no
fewer cells, and a value it gives satisfies `Q` at the final number of cells. -/
def KeepsShape {α : Type} (n : Nat) (Q : Nat → α → Prop) (x : EvalM α) : Prop :=
  ∀ m, m.Shaped → n ≤ m.heap.size →
    (exec x m).2.Shaped ∧ m.heap.size ≤ (exec x m).2.heap.size ∧
      ∀ a, (exec x m).1 = .ok a → Q (exec x m).2.heap.size a

theorem frame_heeds (h : Heap) (e : Env) : Heeds fun m : Machine => m.heap = h ∧ m.env = e :=
  fun _ _ hm he _ hh => ⟨hh.trans hm.1, he.trans hm.2⟩

namespace KeepsShape

variable {α β : Type} {n : Nat} {Q : Nat → α → Prop} {R : Nat → β → Prop}

theorem pure {a : α} (h : ∀ k, n ≤ k → Q k a) : KeepsShape n Q (Pure.pure a) := fun m hm hn => by
  rw [exec_pure]
  exact ⟨hm, le_rfl, fun b hb => by cases hb; exact h _ hn⟩

theorem throw {e : Stop} : KeepsShape n Q (MonadExcept.throw e : EvalM α) := fun m hm _ => by
  rw [exec_throw]
  exact ⟨hm, le_rfl, fun _ h => by cases h⟩

theorem raise {c : Cause} : KeepsShape n Q (Eval.raise c : EvalM α) := throw

theorem bind {x : EvalM α} {f : α → EvalM β} (hx : KeepsShape n Q x)
    (hf : ∀ k a, n ≤ k → Q k a → KeepsShape k R (f a)) : KeepsShape n R (x >>= f) := by
  intro m hm hn
  obtain ⟨hm₁, hle₁, hq⟩ := hx m hm hn
  rw [exec_bind]
  rcases hx' : exec x m with ⟨e | a, m₁⟩
  · rw [hx'] at hm₁ hle₁
    exact ⟨hm₁, hle₁, fun _ h => by cases h⟩
  · rw [hx'] at hm₁ hle₁ hq
    obtain ⟨hm₂, hle₂, hr⟩ := hf _ a (hn.trans hle₁) (hq a rfl) m₁ hm₁ le_rfl
    exact ⟨hm₂, hle₁.trans hle₂, hr⟩

theorem ite {c : Prop} [Decidable c] {x y : EvalM α} (hx : c → KeepsShape n Q x)
    (hy : ¬c → KeepsShape n Q y) : KeepsShape n Q (if c then x else y) := by
  by_cases hc : c
  · rw [if_pos hc]
    exact hx hc
  · rw [if_neg hc]
    exact hy hc

/-- A computation that leaves the heap and the environment as they are keeps the shape; what it
gives may be judged on the machine it started on. -/
theorem of_frame {x : EvalM α}
    (hx : ∀ m : Machine, m.Shaped → Guards (fun m' => m'.heap = m.heap ∧ m'.env = m.env)
      (Q m.heap.size) (fun _ => True) x) :
    KeepsShape n Q x := fun m hm _ => by
  obtain ⟨⟨hh, he⟩, hq, -⟩ := hx m hm m ⟨rfl, rfl⟩
  refine ⟨⟨hh ▸ hm.heap, ?_⟩, by rw [hh], fun a ha => hh ▸ hq a ha⟩
  rw [he, hh]
  exact hm.env

theorem heap : KeepsShape n (fun k h => h.Shaped ∧ h.size = k) Eval.heap :=
  of_frame fun m hm => (Guards.heap (E := fun _ => True)).mono
    (fun _ ⟨_, ⟨hh, _⟩, he⟩ => by rw [← he, hh]; exact ⟨hm.heap, rfl⟩) fun _ _ => trivial

theorem get : KeepsShape n (fun k m => m.env.Below k) get :=
  of_frame fun _ hm => (Guards.get (E := fun _ => True)).mono (fun _ hm' => hm'.2 ▸ hm.env)
    fun _ _ => trivial

theorem emit (ev : Event) : KeepsShape n (fun _ _ => True) (Eval.emit ev) :=
  of_frame fun m _ => Guards.emit (frame_heeds m.heap m.env) ev

theorem truthy {v : Value} : KeepsShape n (fun _ _ => True) (Eval.truthy v) :=
  of_frame fun _ _ => Guards.truthy

theorem orRaise {e : Except Cause α} (h : ∀ a, e = .ok a → ∀ k, n ≤ k → Q k a) :
    KeepsShape n Q (Eval.orRaise e) := by
  cases e with
  | ok a => exact pure (h a rfl)
  | error c => exact raise

theorem lookup (name : String) : KeepsShape n (fun k v => v.RefsBelow k) (Eval.lookup name) :=
  of_frame fun _ hm => Guards.lookup (fun _ hm' _ hv => hm.env.get? (hm'.2 ▸ hv))
    (fun _ => Value.refsBelow_of_container rfl _) fun _ _ => trivial

theorem runBuiltin (b : Builtin) (args : List Value) :
    KeepsShape n (fun k v => v.RefsBelow k) (Eval.runBuiltin b args) :=
  of_frame fun m _ => (Guards.runBuiltin (E := fun _ => True) (frame_heeds m.heap m.env)
    (fun _ _ => trivial) b args).mono (fun _ hv => Value.refsBelow_of_isScalar hv _) fun _ _ => trivial

theorem scalar {v : Value} (hv : v.container? = none) : KeepsShape n Value.RefsBelow (Pure.pure v) :=
  pure fun _ _ => Value.refsBelow_of_container hv _

theorem defineVar {name : String} {v : Value} (hv : v.RefsBelow n) :
    KeepsShape n (fun _ _ => True) (Eval.defineVar name v) := fun m hm hn => by
  simp only [Eval.defineVar, exec_modify]
  exact ⟨⟨hm.heap, hm.env.define (hv.mono hn)⟩, le_rfl, fun _ _ => trivial⟩

theorem alloc {c : Cell} (hc : c.Below n) : KeepsShape n (fun k r => r < k) (Eval.alloc c) :=
  fun m hm hn => by
    simp only [Eval.alloc, exec_modifyGet]
    refine ⟨⟨hm.heap.alloc (hc.mono hn), ?_⟩, ?_, fun r hr => ?_⟩
    · rw [Heap.size_alloc]
      exact hm.env.mono (Nat.le_succ _)
    · rw [Heap.size_alloc]
      exact Nat.le_succ _
    · cases hr
      rw [Heap.size_alloc, Heap.ref_alloc]
      exact Nat.lt_succ_self _

theorem onHeap {f : Heap → Except Cause (Heap × α)}
    (hf : ∀ h : Heap, h.Shaped → n ≤ h.size → ∀ h' a, f h = .ok (h', a) →
      h'.Shaped ∧ h.size ≤ h'.size ∧ Q h'.size a) :
    KeepsShape n Q (Eval.onHeap f) := fun m hm hn => by
  simp only [Eval.onHeap, exec_bind, exec_get]
  split
  · rename_i h' a hfa
    obtain ⟨hs, hle, hq⟩ := hf m.heap hm.heap hn h' a hfa
    simp only [exec_bind, exec_set, exec_pure]
    exact ⟨⟨hs, hm.env.mono hle⟩, hle, fun b hb => by cases hb; exact hq⟩
  · exact raise m hm hn

end KeepsShape

/-! ### Steps on the heap -/

/-- What a step on the heap `h` may give: a shaped heap with no fewer cells, and a value below
its number of cells. -/
def StepShaped (h : Heap) (p : Heap × Value) : Prop :=
  p.1.Shaped ∧ h.size ≤ p.1.size ∧ p.2.RefsBelow p.1.size

theorem Settles.any {α : Type} (x : Except Cause α) : Settles (fun _ => True) (fun _ => True) x :=
  ⟨fun _ _ => trivial, fun _ _ => trivial⟩

namespace StepShaped

variable {h : Heap} (hh : h.Shaped)
include hh

theorem scalar {v : Value} (hv : v.container? = none) : StepShaped h (h, v) :=
  ⟨hh, le_rfl, Value.refsBelow_of_container hv _⟩

theorem put {r : Ref} {c : Cell} (hc : c.Below h.size) {v : Value} (hv : v.RefsBelow h.size) :
    StepShaped h (h.put r c, v) :=
  ⟨hh.put hc, by rw [Heap.size_put], by rw [Heap.size_put]; exact hv⟩

theorem alloc {c : Cell} (hc : c.Below h.size) {box : Ref → Value}
    (hbox : ∀ r, (box r).RefsBelow (r + 1)) : StepShaped h ((h.alloc c).1, box (h.alloc c).2) :=
  ⟨hh.alloc hc, by rw [Heap.size_alloc]; exact Nat.le_succ _, by
    rw [Heap.size_alloc, Heap.ref_alloc]; exact hbox _⟩

end StepShaped

theorem onHeap_stepShaped {n : Nat} {f : Heap → Except Cause (Heap × Value)}
    (hf : ∀ h : Heap, h.Shaped → n ≤ h.size → Settles (StepShaped h) (fun _ => True) (f h)) :
    KeepsShape n Value.RefsBelow (onHeap f) :=
  KeepsShape.onHeap fun h hh hn _ _ hfa => (hf h hh hn).1 _ hfa

/-- An operator adds a cell only to join two arrays, whose items are the heap's own. -/
theorem applyOp_shaped {h : Heap} {op : BinaryOp} {a b : Value} (hh : h.Shaped) :
    Settles (StepShaped h) (fun _ => True) (applyOp h op a b) := by
  unfold applyOp
  split
  case h_1 =>
    split
    · exact .ok (StepShaped.scalar hh rfl)
    · exact .ok (StepShaped.scalar hh rfl)
    · refine .ok (StepShaped.alloc hh ?_ fun r => Value.refsBelow_array.mpr (Nat.lt_succ_self r))
      exact fun v hv => (Array.mem_append.mp hv).elim hh.items hh.items
    · exact .error trivial
  case h_2 | h_3 | h_4 | h_5 =>
    split
    · exact Settles.map (Settles.any _) fun _ _ => StepShaped.scalar hh rfl
    · exact .error trivial
  case h_6 | h_7 | h_8 | h_9 =>
    split
    · exact .ok (StepShaped.scalar hh rfl)
    · exact .ok (StepShaped.scalar hh rfl)
    · exact .error trivial
  case h_10 => exact .ok (StepShaped.scalar hh rfl)
  case h_11 | h_12 | h_13 => exact .error trivial

theorem itemAt_below {xs : Array Value} {i n : Nat} (hxs : ∀ v ∈ xs, v.RefsBelow n) :
    Settles (fun v : Value => v.RefsBelow n) (fun _ => True) (itemAt xs i) := by
  unfold itemAt
  split
  · exact .ok (hxs _ (Array.getElem_mem _))
  · exact .error trivial

theorem setAt_below {xs : Array Value} {i n : Nat} {v : Value} (hxs : ∀ w ∈ xs, w.RefsBelow n)
    (hv : v.RefsBelow n) :
    Settles (fun ys : Array Value => ∀ w ∈ ys, w.RefsBelow n) (fun _ => True) (setAt xs i v) := by
  unfold setAt
  split
  · exact .ok fun w hw => (Array.mem_or_eq_of_mem_setIfInBounds hw).elim (hxs w) fun h => h ▸ hv
  · exact .error trivial

/-- An item of a container of a shaped heap is one of the heap's own containers, or none. -/
theorem indexValue_below {h : Heap} {v key : Value} (hh : h.Shaped) :
    Settles (fun w : Value => w.RefsBelow h.size) (fun _ => True) (indexValue h v key) := by
  unfold indexValue
  split
  · exact Settles.bind (Settles.any _) fun _ _ => itemAt_below fun _ hv => hh.items hv
  · refine Settles.bind (Settles.any _) fun _ _ => ?_
    split
    · exact .ok ((hh.entries _).lookup ‹_›)
    · exact .error trivial
  · exact .error trivial

theorem attribute_container {v w : Value} {name : String} (h : v.attribute name = .ok w) :
    w.container? = none := by
  have hbound := attribute_settles.1 w h
  cases w <;> first | rfl | cases hbound

theorem below_headD {args : List Value} {n : Nat} (hargs : ∀ v ∈ args, v.RefsBelow n) :
    (args.headD .null).RefsBelow n := by
  cases args with
  | nil => exact Value.refsBelow_of_container rfl n
  | cons v _ => exact hargs v List.mem_cons_self

theorem below_getD {args : List Value} {n : Nat} (hargs : ∀ v ∈ args, v.RefsBelow n) (i : Nat) :
    (args.getD i .null).RefsBelow n := by
  rw [List.getD_eq_getElem?_getD]
  cases hi : args[i]? with
  | none => exact Value.refsBelow_of_container rfl n
  | some v => exact hargs v (List.mem_of_getElem? hi)

section Methods

variable {h : Heap} {r : Ref} {name : String} {args : List Value}

theorem invokeArrayMethod_shaped (hh : h.Shaped) (hargs : ∀ v ∈ args, v.RefsBelow h.size) :
    Settles (StepShaped h) (fun _ => True) (invokeArrayMethod h r name args) := by
  unfold invokeArrayMethod
  split
  · exact Settles.bind (Settles.any _) fun _ _ => .pure (StepShaped.scalar hh rfl)
  · refine Settles.bind (Settles.any _) fun _ _ =>
      .pure (StepShaped.put hh ?_ (Value.refsBelow_of_container rfl _))
    exact fun v hv => (Array.mem_push.mp hv).elim hh.items fun hv => hv ▸ below_headD hargs
  · refine Settles.bind (Settles.any _) fun _ _ => ?_
    dsimp only
    split
    · refine .pure (StepShaped.put hh (fun v hv => ?_) (hh.items (Array.mem_of_back? ‹_›)))
      rw [Array.mem_def, Array.toList_pop] at hv
      exact hh.items (Array.mem_def.mpr (List.dropLast_subset _ hv))
    · exact .error trivial
  · refine Settles.bind (Settles.any _) fun _ _ => Settles.bind (Settles.any _) fun _ _ => ?_
    exact Settles.bind (setAt_below (fun _ hv => hh.items hv) (below_getD hargs 1)) fun _ hys =>
      .pure (StepShaped.put hh (Cell.below_array.mpr hys) (Value.refsBelow_of_container rfl _))
  · exact Settles.map (Settles.any _) fun _ _ => StepShaped.scalar hh rfl

theorem invokeDictMethod_shaped (hh : h.Shaped) (hargs : ∀ v ∈ args, v.RefsBelow h.size) :
    Settles (StepShaped h) (fun _ => True) (invokeDictMethod h r name args) := by
  unfold invokeDictMethod
  split
  · refine Settles.bind (Settles.any _) fun _ _ => Settles.bind (Settles.any _) fun k _ =>
      .pure (StepShaped.put hh ?_ (Value.refsBelow_of_container rfl _))
    exact ⟨(hh.entries r).insert (below_getD hargs 1), Entries.insert_ascending (hh.keys r) k _⟩
  · exact Settles.bind (Settles.any _) fun _ _ => .pure (StepShaped.scalar hh rfl)
  · refine Settles.bind (Settles.any _) fun _ _ =>
      .pure (StepShaped.alloc hh ?_ fun r => Value.refsBelow_array.mpr (Nat.lt_succ_self r))
    -- the keys are strings
    intro v hv
    obtain ⟨⟨k, x⟩, -, rfl⟩ := List.mem_map.mp (List.mem_toArray.mp hv)
    exact Value.refsBelow_of_container rfl _
  · exact Settles.bind (Settles.any _) fun _ _ =>
      Settles.bind (Settles.any _) fun _ _ => .pure (StepShaped.scalar hh rfl)
  · exact Settles.map (Settles.any _) fun _ _ => StepShaped.scalar hh rfl

theorem invokeMethod_shaped {recv : Receiver} (hh : h.Shaped)
    (hargs : ∀ v ∈ args, v.RefsBelow h.size) :
    Settles (StepShaped h) (fun _ => True) (invokeMethod h recv name args) := by
  cases recv with
  | array r => exact invokeArrayMethod_shaped hh hargs
  | dict r => exact invokeDictMethod_shaped hh hargs

end Methods

/-! ### Every evaluation function keeps the shape -/

/-- A flow that returns a value below `n`, or none. -/
def Flow.Below (n : Nat) : Flow → Prop
  | .ret v => v.RefsBelow n
  | .normal => True

theorem Flow.Below.mono {fl : Flow} {n n' : Nat} (hfl : fl.Below n) (h : n ≤ n') : fl.Below n' := by
  cases fl with
  | ret v => exact Value.RefsBelow.mono hfl h
  | normal => trivial

/-- What a call gives back is below the number of cells when the flow of its body is. -/
theorem callResult_below {inner : List String} {res : Except Stop Flow} {n : Nat}
    (hflow : ∀ fl, res = .ok fl → fl.Below n) :
    ∀ v, callResult inner res = .ok v → v.RefsBelow n := by
  intro v hv
  rcases res with e | fl
  · cases e <;> cases hv
  · cases fl with
    | ret w =>
      cases hv
      exact hflow _ rfl
    | normal =>
      cases hv
      exact Value.refsBelow_of_container rfl n

/-- At fuel `n`, every evaluation function keeps the machine shaped and gives values below the
number of cells. A call is given arguments below the number of cells, and a user function the
environment it was made in, which a shaped heap keeps below its number of cells. -/
structure ShapeKept (n : Nat) : Prop where
  expr : ∀ k e, KeepsShape k Value.RefsBelow (evalExpr n e)
  list : ∀ k es, KeepsShape k (fun k vs => ∀ v ∈ vs, Value.RefsBelow k v) (evalList n es)
  entries : ∀ k es acc, (Cell.dict acc).Below k →
    KeepsShape k (fun k es => (Cell.dict es).Below k) (evalEntries n es acc)
  links : ∀ k cur ls, cur.RefsBelow k → KeepsShape k Value.RefsBelow (evalLinks n cur ls)
  call : ∀ k f args, (∀ v ∈ args, v.RefsBelow k) → KeepsShape k Value.RefsBelow (callValue n f args)
  closure : ∀ k r c args, c.env.Below k → (∀ v ∈ args, v.RefsBelow k) →
    KeepsShape k Value.RefsBelow (callClosure n r c args)
  block : ∀ k ss, KeepsShape k Flow.Below (evalBlock n ss)
  stmt : ∀ k s, KeepsShape k Flow.Below (evalStmt n s)
  branches : ∀ k bs, KeepsShape k Flow.Below (evalBranches n bs)
  loop : ∀ k t b, KeepsShape k Flow.Below (runWhile n t b)
  range : ∀ k x i j b, KeepsShape k Flow.Below (runFor n x i j b)

namespace ShapeKept

variable {n : Nat} (ih : ShapeKept n)
include ih

theorem expr_succ (k : Nat) (e : Expr) : KeepsShape k Value.RefsBelow (evalExpr (n + 1) e) := by
  cases e with
  | ident name => simp only [evalExpr]; exact KeepsShape.lookup name
  | number x => simp only [evalExpr]; exact KeepsShape.scalar rfl
  | str s => simp only [evalExpr]; exact KeepsShape.scalar rfl
  | bool b => simp only [evalExpr]; exact KeepsShape.scalar rfl
  | negate inner =>
    simp only [evalExpr]
    refine (ih.expr k inner).bind fun _ v _ _ => ?_
    split
    · exact KeepsShape.scalar rfl
    · exact .raise
  | binOp lhs op rhs =>
    cases op
    case and =>
      simp only [evalExpr]
      exact (ih.expr k lhs).bind fun _ _ _ ha => KeepsShape.truthy.bind fun _ _ hk _ =>
        .ite (fun _ => ih.expr _ rhs) fun _ => .pure fun _ hk' => ha.mono (hk.trans hk')
    case or =>
      simp only [evalExpr]
      exact (ih.expr k lhs).bind fun _ _ _ ha => KeepsShape.truthy.bind fun _ _ hk _ =>
        .ite (fun _ => .pure fun _ hk' => ha.mono (hk.trans hk')) fun _ => ih.expr _ rhs
    case assign =>
      simp only [evalExpr]
      split
      · exact (ih.expr k rhs).bind fun _ _ _ hv => (KeepsShape.defineVar hv).bind
          fun _ _ hk _ => .pure fun _ hk' => hv.mono (hk.trans hk')
      · exact .raise
    all_goals
      simp only [evalExpr]
      exact (ih.expr k lhs).bind fun _ _ _ _ => (ih.expr _ rhs).bind fun _ _ _ _ =>
        onHeap_stepShaped fun _ hh _ => applyOp_shaped hh
  | call callee args =>
    simp only [evalExpr]
    exact (ih.expr k callee).bind fun _ _ _ _ => (ih.list _ args).bind fun _ _ _ hvs =>
      ih.call _ _ _ hvs
  | array items =>
    simp only [evalExpr]
    refine (ih.list k items).bind fun _ vs _ hvs => ?_
    refine (KeepsShape.alloc (Cell.below_array.mpr fun v hv => hvs v (List.mem_toArray.mp hv))).bind
      fun _ r _ hr => .pure fun _ hk => ?_
    exact Value.refsBelow_array.mpr (Nat.lt_of_lt_of_le hr hk)
  | dict entries =>
    simp only [evalExpr]
    refine (ih.entries k entries [] ⟨BindingsBelow.nil, List.Pairwise.nil⟩).bind
      fun _ es _ hes => ?_
    exact (KeepsShape.alloc hes).bind fun _ r _ hr =>
      .pure fun _ hk => Value.refsBelow_dict.mpr (Nat.lt_of_lt_of_le hr hk)
  | lambda params body =>
    simp only [evalExpr]
    -- the closure keeps the environment it was made in, which is below the number of cells
    exact KeepsShape.get.bind fun _ _ _ henv =>
      (KeepsShape.alloc (Cell.below_function.mpr henv)).bind fun _ _ _ _ => KeepsShape.scalar rfl
  | chain receiver links =>
    simp only [evalExpr]
    exact (ih.expr k receiver).bind fun _ v _ hv => ih.links _ v links hv

theorem list_succ (k : Nat) (es : List Expr) :
    KeepsShape k (fun k vs => ∀ v ∈ vs, Value.RefsBelow k v) (evalList (n + 1) es) := by
  cases es with
  | nil => simp only [evalList]; exact .pure fun _ _ => nofun
  | cons e rest =>
    simp only [evalList]
    refine (ih.expr k e).bind fun _ v _ hv => (ih.list _ rest).bind fun _ vs hk hvs =>
      .pure fun _ hk' w hw => ?_
    rcases List.mem_cons.mp hw with rfl | hw
    · exact hv.mono (hk.trans hk')
    · exact (hvs w hw).mono hk'

theorem entries_succ (k : Nat) (es : List (String × Expr)) (acc : Entries)
    (hacc : (Cell.dict acc).Below k) :
    KeepsShape k (fun k es => (Cell.dict es).Below k) (evalEntries (n + 1) es acc) := by
  cases es with
  | nil => simp only [evalEntries]; exact .pure fun _ hk => Cell.Below.mono hacc hk
  | cons entry rest =>
    simp only [evalEntries]
    refine (ih.expr k entry.2).bind fun _ _ hk hv => ih.entries _ rest _ ?_
    exact ⟨(hacc.1.mono hk).insert hv, Entries.insert_ascending hacc.2 _ _⟩

/-- A chain's links: an index reads an item of the heap, an attribute gives a method, which is no
container, and a call gives what the callee gives. -/
theorem links_succ (k : Nat) (cur : Value) (ls : List Link) (hcur : cur.RefsBelow k) :
    KeepsShape k Value.RefsBelow (evalLinks (n + 1) cur ls) := by
  match ls with
  | [] => simp only [evalLinks]; exact .pure fun _ hk => hcur.mono hk
  | .call args :: rest =>
    simp only [evalLinks]
    exact (ih.list k args).bind fun _ vs _ hvs => (ih.call _ cur vs hvs).bind fun _ v _ hv =>
      ih.links _ v rest hv
  | .index key :: rest =>
    simp only [evalLinks]
    refine (ih.expr k key).bind fun _ _ _ _ => KeepsShape.heap.bind fun _ h _ hsh => ?_
    refine (KeepsShape.orRaise fun w hw _ hk => ?_).bind fun _ v _ hv => ih.links _ v rest hv
    exact ((indexValue_below hsh.1).1 w hw).mono (hsh.2 ▸ hk)
  | .attr name :: rest =>
    simp only [evalLinks, pure_bind]
    refine (KeepsShape.orRaise (Q := Value.RefsBelow) fun w hw k' _ =>
      Value.refsBelow_of_container (attribute_container hw) k').bind fun _ resolved _ hres => ?_
    refine .ite (fun _ => ?_) fun _ => ih.links _ resolved rest hres
    exact (KeepsShape.emit _).bind fun _ _ _ _ => (ih.call _ resolved [] nofun).bind
      fun _ v _ hv => ih.links _ v rest hv

theorem call_succ (k : Nat) (f : Value) (args : List Value) (hargs : ∀ v ∈ args, v.RefsBelow k) :
    KeepsShape k Value.RefsBelow (callValue (n + 1) f args) := by
  cases f with
  | function r =>
    simp only [callValue]
    refine KeepsShape.heap.bind fun _ h hk hsh => ?_
    exact ih.closure _ r _ args (hsh.2 ▸ hsh.1.closure r) fun v hv => (hargs v hv).mono hk
  | builtin name =>
    simp only [callValue, callBuiltin]
    refine (KeepsShape.emit _).bind fun _ _ _ _ => ?_
    split
    · exact KeepsShape.runBuiltin _ args
    · exact .raise
  | method recv name =>
    simp only [callValue]
    exact onHeap_stepShaped fun _ hh hk => invokeMethod_shaped hh fun v hv => (hargs v hv).mono hk
  | number _ | str _ | bool _ | null | array _ | dict _ =>
    simp only [callValue]
    exact .raise

/-- The call of a user function: its body starts on the call's environment, built from the
function's own and from the arguments, and on the heap as it was; the caller's environment is put
back afterwards, and it names only cells of a heap that has only grown. -/
theorem closure_succ (k : Nat) (r : Ref) (c : Closure) (args : List Value) (hc : c.env.Below k)
    (hargs : ∀ v ∈ args, v.RefsBelow k) :
    KeepsShape k Value.RefsBelow (callClosure (n + 1) r c args) := by
  intro m hm hk
  by_cases harity : args.length = c.params.length
  · by_cases hdepth : m.stack.length < maxDepth
    · rw [exec_callClosure n r c args m harity hdepth]
      have henv : (callEnv r c args).Below m.heap.size :=
        callEnv_below (hc.mono hk) fun v hv => (hargs v hv).mono hk
      have hstart : (callStart m r c args).Shaped :=
        ⟨(callStart_heap m r c args) ▸ hm.heap, by rw [callStart_env, callStart_heap]; exact henv⟩
      obtain ⟨hend, hle, hflow⟩ :=
        ih.block m.heap.size c.body _ hstart (by rw [callStart_heap])
      rw [callStart_heap] at hle
      exact ⟨⟨hend.heap, hm.env.mono hle⟩, hle, callResult_below hflow⟩
    · rw [exec_callClosure_depth n r c args m harity (Nat.not_lt.mp hdepth)]
      exact ⟨hm, le_rfl, fun _ h => by cases h⟩
  · rw [exec_callClosure_arity n r c args m harity]
    exact ⟨hm, le_rfl, fun _ h => by cases h⟩

theorem block_succ (k : Nat) (ss : List Stmt) : KeepsShape k Flow.Below (evalBlock (n + 1) ss) := by
  cases ss with
  | nil => simp only [evalBlock]; exact .pure fun _ _ => trivial
  | cons s rest =>
    simp only [evalBlock]
    refine (ih.stmt k s).bind fun _ flow _ hflow => ?_
    cases flow with
    | ret v => exact .pure fun _ hk => Flow.Below.mono hflow hk
    | normal => exact ih.block _ rest

theorem stmt_succ (k : Nat) (s : Stmt) : KeepsShape k Flow.Below (evalStmt (n + 1) s) := by
  cases s with
  | var name e =>
    simp only [evalStmt]
    exact (ih.expr k e).bind fun _ _ _ hv =>
      (KeepsShape.defineVar hv).bind fun _ _ _ _ => .pure fun _ _ => trivial
  | func name params body =>
    simp only [evalStmt]
    exact KeepsShape.get.bind fun _ _ _ henv =>
      (KeepsShape.alloc (Cell.below_function.mpr henv)).bind fun _ _ _ _ =>
      (KeepsShape.defineVar (Value.refsBelow_of_container rfl _)).bind fun _ _ _ _ =>
      .pure fun _ _ => trivial
  | ret e =>
    simp only [evalStmt]
    exact (ih.expr k e).bind fun _ _ _ hv => .pure fun _ hk => Value.RefsBelow.mono hv hk
  | ifElse test body branches =>
    simp only [evalStmt]
    exact (ih.expr k test).bind fun _ _ _ _ => KeepsShape.truthy.bind fun _ _ _ _ =>
      .ite (fun _ => ih.block _ body) fun _ => ih.branches _ branches
  | whileLoop test body =>
    simp only [evalStmt]
    exact ih.loop k test body
  | forRange name start stop body =>
    simp only [evalStmt]
    exact (ih.expr k start).bind fun _ _ _ _ =>
      (KeepsShape.orRaise fun _ _ _ _ => trivial).bind fun _ _ _ _ =>
      (ih.expr _ stop).bind fun _ _ _ _ =>
      (KeepsShape.orRaise fun _ _ _ _ => trivial).bind fun _ _ _ _ =>
      ih.range _ name _ _ body
  | expr e =>
    simp only [evalStmt]
    exact (ih.expr k e).bind fun _ _ _ _ => .pure fun _ _ => trivial

theorem branches_succ (k : Nat) (bs : List Branch) :
    KeepsShape k Flow.Below (evalBranches (n + 1) bs) := by
  match bs with
  | [] => simp only [evalBranches]; exact .pure fun _ _ => trivial
  | .otherwise body :: _ => simp only [evalBranches]; exact ih.block k body
  | .elif test body :: rest =>
    simp only [evalBranches]
    exact (ih.expr k test).bind fun _ _ _ _ => KeepsShape.truthy.bind fun _ _ _ _ =>
      .ite (fun _ => ih.block _ body) fun _ => ih.branches _ rest

theorem loop_succ (k : Nat) (test : Expr) (body : List Stmt) :
    KeepsShape k Flow.Below (runWhile (n + 1) test body) := by
  simp only [runWhile]
  refine (ih.expr k test).bind fun _ _ _ _ => KeepsShape.truthy.bind fun _ _ _ _ =>
    .ite (fun _ => (ih.block _ body).bind fun _ flow _ hflow => ?_) fun _ => .pure fun _ _ => trivial
  cases flow with
  | ret v => exact .pure fun _ hk => Flow.Below.mono hflow hk
  | normal => exact ih.loop _ test body

theorem range_succ (k : Nat) (name : String) (i stop : Int) (body : List Stmt) :
    KeepsShape k Flow.Below (runFor (n + 1) name i stop body) := by
  simp only [runFor]
  refine .ite (fun _ => ?_) fun _ => .pure fun _ _ => trivial
  refine (KeepsShape.defineVar (Value.refsBelow_of_container rfl _)).bind fun _ _ _ _ =>
    (ih.block _ body).bind fun _ flow _ hflow => ?_
  cases flow with
  | ret v => exact .pure fun _ hk => Flow.Below.mono hflow hk
  | normal => exact ih.range _ name _ stop body

theorem succ : ShapeKept (n + 1) where
  expr := ih.expr_succ
  list := ih.list_succ
  entries := ih.entries_succ
  links := ih.links_succ
  call := ih.call_succ
  closure := ih.closure_succ
  block := ih.block_succ
  stmt := ih.stmt_succ
  branches := ih.branches_succ
  loop := ih.loop_succ
  range := ih.range_succ

end ShapeKept

theorem shapeKept_zero : ShapeKept 0 where
  expr _ _ := by simp only [evalExpr]; exact .throw
  list _ _ := by simp only [evalList]; exact .throw
  entries _ _ _ _ := by simp only [evalEntries]; exact .throw
  links _ _ _ _ := by simp only [evalLinks]; exact .throw
  call _ _ _ _ := by simp only [callValue]; exact .throw
  closure _ _ _ _ _ _ := by simp only [callClosure]; exact .throw
  block _ _ := by simp only [evalBlock]; exact .throw
  stmt _ _ := by simp only [evalStmt]; exact .throw
  branches _ _ := by simp only [evalBranches]; exact .throw
  loop _ _ _ := by simp only [runWhile]; exact .throw
  range _ _ _ _ _ := by simp only [runFor]; exact .throw

theorem shapeKept : ∀ n, ShapeKept n
  | 0 => shapeKept_zero
  | n + 1 => (shapeKept n).succ

theorem runProgram_keepsShape (n : Nat) (prog : List Stmt) (k : Nat) :
    KeepsShape k (fun _ _ => True) (runProgram n prog) := by
  simp only [runProgram]
  refine ((shapeKept n).block k prog).bind fun _ flow _ _ => ?_
  cases flow with
  | ret v => exact KeepsShape.heap.bind fun _ _ _ _ => KeepsShape.emit _
  | normal => exact .pure fun _ _ => trivial

/-- Evaluation keeps the heap in shape: a run from a shaped machine, a fresh one included, ends on
a shaped machine whose heap has only grown. -/
theorem runProgram_shaped (n : Nat) (prog : List Stmt) {m : Machine} (hm : m.Shaped) :
    (exec (runProgram n prog) m).2.Shaped ∧
      m.heap.size ≤ (exec (runProgram n prog) m).2.heap.size :=
  have hrun := runProgram_keepsShape n prog 0 m hm (Nat.zero_le _)
  ⟨hrun.1, hrun.2.1⟩

namespace Machine.Shaped

variable {m : Machine} (hm : m.Shaped)
include hm

/-- On a shaped machine every binding displays as its unfolding: shared containers written in
full, a container met again inside itself cut short. -/
theorem display_unfolds {name : String} {v : Value} (hv : m.env.get? name = some v) :
    v.display m.heap = v.unfold m.heap [] :=
  hm.heap.display_eq_unfold (hm.env.get? hv)

/-- On a shaped machine `==` is bisimilarity. -/
theorem equal_iff_bisim (a b : Value) : a.equal m.heap b = true ↔ Value.Bisim m.heap a b :=
  Value.equal_iff_bisim hm.heap.keysAscending a b

end Machine.Shaped

end Eval

/-! ### Sessions -/

namespace Session

open Arson.Eval

theorem new_shaped (table : KeywordTable) (input : String) (tracing : Bool) :
    (Session.new table input tracing).machine.Shaped :=
  ⟨Heap.shaped_empty, Env.below_root _⟩

theorem runProgram_shaped {s : Session} (hs : s.machine.Shaped) (prog : List Stmt) :
    (s.runProgram prog).1.machine.Shaped :=
  (Eval.runProgram_shaped runFuel prog (m := { s.machine with output := "" }) ⟨hs.heap, hs.env⟩).1

/-- A step of a session keeps its machine shaped: a text that does not read leaves it as it was. -/
theorem run_shaped {s : Session} (hs : s.machine.Shaped) (source : String) :
    (s.run source).1.machine.Shaped := by
  unfold Session.run
  split
  · exact hs
  · split
    · exact hs
    · exact runProgram_shaped hs _

theorem runAll_shaped (sources : List String) {s : Session} (hs : s.machine.Shaped) :
    (sources.foldl (fun s src => (s.run src).1) s).machine.Shaped := by
  induction sources generalizing s with
  | nil => exact hs
  | cons src rest ih => exact ih (run_shaped hs src)

theorem globals_below {s : Session} (hs : s.machine.Shaped) {b : String × Value}
    (hb : b ∈ s.globals) : b.2.RefsBelow s.heap.size := by
  have hcur : b ∈ s.machine.env.current := List.mem_mergeSort.mp hb
  unfold Env.current at hcur
  cases hsc : s.machine.env.scopes with
  | nil =>
    rw [hsc] at hcur
    cases hcur
  | cons sc rest =>
    rw [hsc] at hcur
    exact hs.env sc (by rw [hsc]; exact List.mem_cons_self) b hcur

/-- Whatever texts a fresh session has run, one after another, its heap is in shape and the
display form of every global, as the globals list it, is its unfolding. -/
theorem globals_display_unfold (table : KeywordTable) (input : String) (sources : List String) :
    ∀ b ∈ (sources.foldl (fun s src => (s.run src).1) (Session.new table input)).globals,
      b.2.display (sources.foldl (fun s src => (s.run src).1) (Session.new table input)).heap =
        b.2.unfold (sources.foldl (fun s src => (s.run src).1) (Session.new table input)).heap [] := by
  intro b hb
  have hs := runAll_shaped sources (new_shaped table input false)
  exact hs.heap.display_eq_unfold (globals_below hs hb)

end Session

end Arson
