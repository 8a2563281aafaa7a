import Arson.Proofs.Value.Bisimilarity
import Arson.Proofs.Text.ByteOrder
import Arson.Proofs.Eval.Exec
/-!
# The display form unfolds the heap

A value is written by walking the heap from it, with a path of the containers still open. A
container on the path is written `[...]` or `{...}`; any other container is written out in full,
even one written before, so a container shared by two siblings appears twice and the short form
marks exactly the edges back to an open ancestor. `Value.unfold h P v` says this directly: `P`
lists the open containers outermost first, and dict entries come in the byte order of their keys.
Its recursion ends because each step opens one more of the finitely many cells of the heap.

`Value.render` keeps the path innermost first and stops short once the path is as long as the
heap. On a heap whose arrays and dicts hold only containers of the heap that guard never decides
anything: a container off a path of distinct cells leaves room for one more. Dicts keep their keys
in ascending code-point order, which is their byte order, so sorting the entries changes nothing,
and the two agree (`render_eq_unfold`).
-/
namespace Arson

open Arson.Eval

def Value.container? : Value → Option Ref
  | .array r | .dict r => some r
  | _ => none

/-- A value that is a container is one of the first `n` cells. -/
def Value.RefsBelow (n : Nat) (v : Value) : Prop := ∀ r ∈ v.container?, r < n

/-- Every container that an array or a dict of the heap holds is a cell of the heap. -/
def Heap.Closed (h : Heap) : Prop :=
  ∀ r, (∀ x ∈ (h.items r).toList, x.RefsBelow h.size) ∧ ∀ e ∈ h.entries r, e.2.RefsBelow h.size

/-- Entries ordered by the bytes of their keys. -/
def keyBytesLE (a b : String × Value) : Bool := decide (Text.utf8Bytes a.1 ≤ Text.utf8Bytes b.1)

def Entries.byKeyBytes (es : Entries) : Entries := es.mergeSort keyBytesLE

/-- The number of cells of the heap that are not on a path. -/
def Heap.cellsOff (h : Heap) (path : List Ref) : Nat := (Finset.range h.size \ path.toFinset).card

/-- Opening a cell that is off the path leaves fewer cells off it. -/
theorem Heap.cellsOff_append_lt {h : Heap} {path : List Ref} {r : Ref} (hr : r < h.size)
    (hp : r ∉ path) : h.cellsOff (path ++ [r]) < h.cellsOff path := by
  have hins : (path ++ [r]).toFinset = insert r path.toFinset := by
    ext s
    simp
  unfold cellsOff
  rw [hins, Finset.sdiff_insert]
  exact Finset.card_erase_lt_of_mem (by simp [hr, hp])

/-- The display form of a value with the containers of `path` open, outermost first. -/
def Value.unfold (h : Heap) (path : List Ref) : Value → String
  | .array r =>
    if _hp : r ∈ path then "[...]"
    else "[" ++ ", ".intercalate ((h.items r).toList.attach.map fun x =>
      Value.unfold h (path ++ [r]) x.1) ++ "]"
  | .dict r =>
    if _hp : r ∈ path then "\x7b...\x7d"
    else "\x7b" ++ ", ".intercalate ((Entries.byKeyBytes (h.entries r)).attach.map fun e =>
      "\"" ++ e.1.1 ++ "\": " ++ Value.unfold h (path ++ [r]) e.1.2) ++ "\x7d"
  | v => v.scalarDisplay h
termination_by h.cellsOff path
decreasing_by
  · exact Heap.cellsOff_append_lt (h.items_ne_nil r (List.ne_nil_of_mem x.2)).1 _hp
  · have he : e.1 ∈ h.entries r := List.mem_mergeSort.1 e.2
    exact Heap.cellsOff_append_lt (h.entries_ne_nil r (List.ne_nil_of_mem he)).1 _hp

/-! ## Equations -/

namespace Value

variable {h : Heap}

theorem unfold_array (path : List Ref) (r : Ref) :
    (Value.array r).unfold h path =
      if r ∈ path then "[...]"
      else "[" ++ ", ".intercalate ((h.items r).toList.map (unfold h (path ++ [r]))) ++ "]" := by
  rw [unfold]
  by_cases hp : r ∈ path
  · rw [dif_pos hp, if_pos hp]
  · rw [dif_neg hp, if_neg hp, List.attach_map_val]

theorem unfold_dict (path : List Ref) (r : Ref) :
    (Value.dict r).unfold h path =
      if r ∈ path then "\x7b...\x7d"
      else "\x7b" ++ ", ".intercalate ((Entries.byKeyBytes (h.entries r)).map fun e =>
        "\"" ++ e.1 ++ "\": " ++ unfold h (path ++ [r]) e.2) ++ "\x7d" := by
  rw [unfold]
  by_cases hp : r ∈ path
  · rw [dif_pos hp, if_pos hp]
  · rw [dif_neg hp, if_neg hp]
    exact congrArg (fun l => "\x7b" ++ ", ".intercalate l ++ "\x7d")
      (@List.attach_map_val _ _ _ fun e : String × Value =>
        "\"" ++ e.1 ++ "\": " ++ unfold h (path ++ [r]) e.2)

theorem render_array_open {debug : Bool} {path : List Ref} {r : Ref} (hr : r ∈ path) :
    (Value.array r).render debug h path = "[...]" := by
  rw [render, if_pos hr]

theorem render_array_off {debug : Bool} {path : List Ref} {r : Ref} (hr : r ∉ path)
    (hlen : path.length < h.size) :
    (Value.array r).render debug h path =
      "[" ++ ", ".intercalate ((h.items r).toList.map (render debug h (r :: path))) ++ "]" := by
  rw [render, if_neg hr, dif_pos hlen]

theorem render_dict_open {debug : Bool} {path : List Ref} {r : Ref} (hr : r ∈ path) :
    (Value.dict r).render debug h path = "\x7b...\x7d" := by
  rw [render, if_pos hr]

theorem render_dict_off {debug : Bool} {path : List Ref} {r : Ref} (hr : r ∉ path)
    (hlen : path.length < h.size) :
    (Value.dict r).render debug h path =
      "\x7b" ++ ", ".intercalate ((h.entries r).map fun e =>
        "\"" ++ e.1 ++ "\": " ++ render debug h (r :: path) e.2) ++ "\x7d" := by
  rw [render, if_neg hr, dif_pos hlen]

end Value

/-- Sorting entries whose keys ascend by code point leaves them as they are: code-point order is
byte order. -/
theorem Entries.byKeyBytes_of_ascending {es : Entries} (hs : (es.map Prod.fst).Pairwise (· < ·)) :
    es.byKeyBytes = es := by
  apply List.mergeSort_of_pairwise
  rw [List.pairwise_map] at hs
  refine hs.imp fun {a b} hab => ?_
  rw [keyBytesLE, decide_eq_true_eq]
  exact List.le_of_lt ((Text.lt_iff_utf8Bytes_lt a.1 b.1).1 hab)

/-! ## The path of open containers -/

/-- A path of open containers: distinct cells of the heap. -/
structure Heap.OpenPath (h : Heap) (path : List Ref) : Prop where
  nodup : path.Nodup
  below : ∀ s ∈ path, s < h.size

namespace Heap.OpenPath

variable {h : Heap} {path : List Ref} {r : Ref}

theorem nil : h.OpenPath [] := ⟨List.nodup_nil, nofun⟩

theorem cons (hp : h.OpenPath path) (hr : r < h.size) (hrp : r ∉ path) : h.OpenPath (r :: path) :=
  ⟨List.nodup_cons.2 ⟨hrp, hp.nodup⟩, List.forall_mem_cons.2 ⟨hr, hp.below⟩⟩

/-- Pigeonhole: a cell of the heap off the path leaves the path shorter than the heap, so the
guard of `render` holds wherever a container is opened. -/
theorem length_lt (hp : h.OpenPath path) (hr : r < h.size) (hrp : r ∉ path) :
    path.length < h.size := by
  have hcons := hp.cons hr hrp
  have hsub : (r :: path).toFinset ⊆ Finset.range h.size := fun s hs =>
    Finset.mem_range.2 (hcons.below s (List.mem_toFinset.1 hs))
  have hcard := Finset.card_le_card hsub
  rw [List.toFinset_card_of_nodup hcons.nodup, Finset.card_range, List.length_cons] at hcard
  omega

end Heap.OpenPath

/-! ## Writing is unfolding -/

namespace Value

variable {h : Heap}

/-- On a closed heap whose dicts keep their keys ascending, writing a value with an open path of
containers (innermost first) is unfolding it with the same path (outermost first). -/
theorem render_eq_unfold (hc : h.Closed) (hs : h.KeysAscending) (path : List Ref)
    (hpath : h.OpenPath path) (v : Value) (hv : v.RefsBelow h.size) :
    v.render false h path = v.unfold h path.reverse := by
  -- on the number of containers that may still be opened, which each nested call lowers
  induction hk : h.size - path.length using Nat.strongRecOn generalizing path v with
  | ind k ih =>
    -- opening a container off the path: its items are written and unfolded alike
    have inner : ∀ r, r < h.size → r ∉ path → ∀ x : Value, x.RefsBelow h.size →
        x.render false h (r :: path) = x.unfold h (path.reverse ++ [r]) := by
      intro r hr hrp x hx
      have hlen := hpath.length_lt hr hrp
      rw [← List.reverse_cons]
      exact ih _ (by rw [← hk, List.length_cons]; omega) (r :: path) (hpath.cons hr hrp) x hx rfl
    cases v with
    | array r =>
      rw [unfold_array]
      by_cases hrp : r ∈ path
      · rw [if_pos (List.mem_reverse.2 hrp), render_array_open hrp]
      · have hr : r < h.size := hv r rfl
        rw [if_neg (mt List.mem_reverse.1 hrp), render_array_off hrp (hpath.length_lt hr hrp)]
        rw [List.map_congr_left fun x hx => inner r hr hrp x ((hc r).1 x hx)]
    | dict r =>
      rw [unfold_dict, Entries.byKeyBytes_of_ascending (hs r)]
      by_cases hrp : r ∈ path
      · rw [if_pos (List.mem_reverse.2 hrp), render_dict_open hrp]
      · have hr : r < h.size := hv r rfl
        rw [if_neg (mt List.mem_reverse.1 hrp), render_dict_off hrp (hpath.length_lt hr hrp)]
        rw [List.map_congr_left fun e he => by rw [inner r hr hrp e.2 ((hc r).2 e he)]]
    | _ => simp only [render, unfold, Bool.false_eq_true, ↓reduceIte]

end Value

/-! ## What is printed -/

namespace Eval

theorem exec_fire (m : Machine) (args : List Value) :
    exec (runBuiltin .fire args) m =
      (.ok .null, { m with output := m.output ++
        (" ".intercalate (args.map (·.display m.heap)) ++ "\n") }) := rfl

theorem exec_str (m : Machine) (v : Value) :
    exec (runBuiltin .str [v]) m = (.ok (.str (v.display m.heap)), m) := rfl

/-- What a value displays as is its unfolding on the heap, each cycle cut where it closes. -/
theorem display_unfolds_heap (h : Heap) (hc : h.Closed) (hs : h.KeysAscending) :
    (∀ v : Value, v.RefsBelow h.size → v.display h = v.unfold h []) ∧
    (∀ (m : Machine) (args : List Value), m.heap = h → (∀ a ∈ args, a.RefsBelow h.size) →
      exec (runBuiltin .fire args) m =
        (.ok .null, { m with output := m.output ++
          (" ".intercalate (args.map (Value.unfold h [])) ++ "\n") })) ∧
    (∀ (m : Machine) (v : Value), m.heap = h → v.RefsBelow h.size →
      exec (runBuiltin .str [v]) m = (.ok (.str (v.unfold h [])), m)) := by
  have hdisplay : ∀ v : Value, v.RefsBelow h.size → v.display h = v.unfold h [] :=
    fun v hv => Value.render_eq_unfold hc hs [] .nil v hv
  refine ⟨hdisplay, ?_, ?_⟩
  · rintro m args rfl hargs
    rw [exec_fire, List.map_congr_left fun a ha => hdisplay a (hargs a ha)]
  · rintro m v rfl hv
    rw [exec_str, hdisplay v hv]

/-- An array holding another array twice and itself, and a dict holding itself. -/
def Heap.sharedAndCyclic : Heap :=
  ⟨#[.array #[.array 1, .array 1, .array 0], .array #[.str "a"], .dict [("k", .dict 2)]]⟩

/-- A shared array is written in full at both places, a container is cut short only where it
holds itself. -/
theorem display_unfolds_shared_and_cyclic :
    Heap.sharedAndCyclic.Closed ∧ Heap.sharedAndCyclic.KeysAscending ∧
      (Value.array 0).display Heap.sharedAndCyclic = "[[a], [a], [...]]" ∧
      (Value.dict 2).display Heap.sharedAndCyclic = "\x7b\"k\": \x7b...\x7d\x7d" := by
  have hc : Heap.sharedAndCyclic.Closed := by
    intro r
    rcases r with _ | _ | _ | r <;>
      simp [Heap.items, Heap.entries, Heap.get?, Heap.sharedAndCyclic, Heap.size, Value.RefsBelow,
        Value.container?]
  have hs : Heap.sharedAndCyclic.KeysAscending := by
    intro r
    rcases r with _ | _ | _ | r <;> simp [Heap.keys, Heap.entries, Heap.get?, Heap.sharedAndCyclic]
  have hbelow : ∀ r, r < 3 → ∀ v : Value, v.container? = some r →
      v.RefsBelow Heap.sharedAndCyclic.size := by
    intro r hr v hv s hsv
    rw [hv, Option.mem_some_iff] at hsv
    subst hsv
    exact hr
  have hdisplay := (display_unfolds_heap Heap.sharedAndCyclic hc hs).1
  refine ⟨hc, hs, ?_, ?_⟩
  · rw [hdisplay (.array 0) (hbelow 0 (by decide) _ rfl)]
    simp [Value.unfold_array, Heap.items, Heap.get?, Heap.sharedAndCyclic, Value.unfold,
      Value.scalarDisplay]
  · rw [hdisplay (.dict 2) (hbelow 2 (by decide) _ rfl)]
    simp [Value.unfold_dict, Heap.entries, Heap.get?, Heap.sharedAndCyclic, Entries.byKeyBytes]

end Eval

end Arson
