import Arson.Proofs.Eval.Exec
/-!
# Storable values

A method is a container's method resolved by name and waiting for its call; it belongs inside a
chain, between the attribute that makes it and the call that takes it. The values that may be
bound, stored in a container, passed or returned are the others, with a builtin only under the
name of a builtin: the storable values.

This module says when scopes, environments, cells, heaps and machines hold storable values only,
and shows that every operation of the machine on values keeps them so: the operators, indexing,
the methods of containers and the bounds of ranges leave a heap of storable values one, give
storable values, and never fail by refusing an unknown builtin. An attribute gives a bound method:
one whose name its container answers to. Such a method fails only with a fault of its own; the
catch-all arm of the method tables, which reports a missing attribute, runs only for other names.
-/
namespace Arson

open Arson.Eval

/-- A value that may be bound, stored, passed or returned: anything but a method, and a builtin
only under the name of a builtin. -/
def Value.storable : Value → Bool
  | .builtin name => decide (name ∈ builtinNames)
  | .method _ _ => false
  | _ => true

/-- A method under a name its container answers to, as attributes make them. -/
def Value.boundMethod : Value → Bool
  | .method recv name => decide (name ∈ recv.methodNames)
  | _ => false

/-- What the evaluator may call: a storable value or a bound method. -/
def Value.callee (v : Value) : Bool := v.storable || v.boundMethod

/-- What a chain may hold before its remaining links: before a call, anything the evaluator may
call; before any other link, and at the end, a storable value. -/
def Value.fitsBefore (v : Value) : List Syntax.Link → Bool
  | .call _ :: _ => v.callee
  | _ => v.storable

theorem Value.storable_builtin (b : Builtin) : (Value.builtin b.name).storable := by
  cases b <;> decide

theorem Value.storable_of_isScalar {v : Value} (h : v.isScalar) : v.storable := by
  cases v
  case builtin | method => cases h
  all_goals rfl

theorem Value.callee_of_storable {v : Value} (h : v.storable) : v.callee := by
  simp [Value.callee, h]

theorem Value.callee_of_boundMethod {v : Value} (h : v.boundMethod) : v.callee := by
  simp [Value.callee, h]

@[simp] theorem Value.callee_builtin {name : String} :
    (Value.builtin name).callee ↔ name ∈ builtinNames := by
  simp [Value.callee, Value.storable, Value.boundMethod]

@[simp] theorem Value.callee_method {recv : Receiver} {name : String} :
    (Value.method recv name).callee ↔ name ∈ recv.methodNames := by
  simp [Value.callee, Value.storable, Value.boundMethod]

theorem Value.fitsBefore_of_storable {v : Value} (h : v.storable) (links : List Syntax.Link) :
    v.fitsBefore links := by
  unfold Value.fitsBefore
  split
  · exact Value.callee_of_storable h
  · exact h

theorem Builtin.ofName?_isSome {name : String} (h : name ∈ builtinNames) :
    (Builtin.ofName? name).isSome := by
  simp only [builtinNames, Builtin.all, List.map_cons, List.map_nil, List.mem_cons,
    List.not_mem_nil, or_false] at h
  rcases h with rfl | rfl | rfl | rfl | rfl | rfl | rfl <;> decide

/-! ### Scopes and environments -/

/-- Every value of a list of named values, a scope or the entries of a dict, is storable. -/
def BindingsStorable (ps : List (String × Value)) : Prop := ∀ p ∈ ps, p.2.storable

namespace BindingsStorable

@[simp] theorem nil : BindingsStorable [] := by simp [BindingsStorable]

@[simp] theorem cons_iff {k : String} {v : Value} {ps : List (String × Value)} :
    BindingsStorable ((k, v) :: ps) ↔ v.storable ∧ BindingsStorable ps := by
  simp [BindingsStorable]

variable {ps : List (String × Value)} {k : String} {v : Value}

theorem set (hs : BindingsStorable ps) (hv : v.storable) : BindingsStorable (Scope.set ps k v) := by
  induction ps with
  | nil => simpa [Scope.set] using hv
  | cons p rest ih =>
    obtain ⟨k', v'⟩ := p
    obtain ⟨hv', hrest⟩ := cons_iff.mp hs
    simp only [Scope.set]
    split
    · exact cons_iff.mpr ⟨hv, hrest⟩
    · exact cons_iff.mpr ⟨hv', ih hrest⟩

theorem insert (hs : BindingsStorable ps) (hv : v.storable) :
    BindingsStorable (Entries.insert ps k v) := by
  induction ps with
  | nil => simpa [Entries.insert] using hv
  | cons p rest ih =>
    obtain ⟨k', v'⟩ := p
    obtain ⟨hv', hrest⟩ := cons_iff.mp hs
    simp only [Entries.insert]
    split
    · exact cons_iff.mpr ⟨hv, hrest⟩
    · split
      · exact cons_iff.mpr ⟨hv, cons_iff.mpr ⟨hv', hrest⟩⟩
      · exact cons_iff.mpr ⟨hv', ih hrest⟩

theorem lookup (hs : BindingsStorable ps) (h : ps.lookup k = some v) : v.storable := by
  obtain ⟨l₁, l₂, rfl, -⟩ := List.lookup_eq_some_iff.mp h
  exact hs (k, v) (by simp)

end BindingsStorable

/-- Every scope of an environment holds storable values only. -/
def Env.Storable (e : Env) : Prop := ∀ s ∈ e.scopes, BindingsStorable s

namespace Env.Storable

variable {e : Env} (he : e.Storable)
include he

theorem define {k : String} {v : Value} (hv : v.storable) : (e.define k v).Storable := by
  unfold Env.define
  split
  · exact he
  · rename_i s rest hscopes
    intro s' hs'
    simp only [List.mem_cons] at hs'
    rcases hs' with rfl | hs'
    · exact (he s (by simp [hscopes])).set hv
    · exact he s' (by simp [hscopes, hs'])

theorem enclose : e.enclose.Storable := by
  intro s hs
  simp only [Env.enclose, List.mem_cons] at hs
  rcases hs with rfl | hs
  · exact BindingsStorable.nil
  · exact he s hs

theorem get? {k : String} {v : Value} (h : e.get? k = some v) : v.storable := by
  obtain ⟨s, hs, hk⟩ := List.exists_of_findSome?_eq_some h
  exact (he s hs).lookup hk

end Env.Storable

theorem Env.storable_root : Env.root.Storable := by
  simp [Env.root, Env.Storable]

theorem Env.Storable.foldl_define {e : Env} (he : e.Storable) {pairs : List (String × Value)}
    (hpairs : BindingsStorable pairs) :
    (pairs.foldl (fun e x => e.define x.1 x.2) e).Storable := by
  induction pairs generalizing e with
  | nil => exact he
  | cons p rest ih =>
    obtain ⟨k, v⟩ := p
    obtain ⟨hv, hrest⟩ := BindingsStorable.cons_iff.mp hpairs
    exact ih (he.define hv) hrest

/-- The environment of a call, built on a storable environment from storable arguments, holds
storable values only: the function itself is one. -/
theorem callEnv_storable {r : Ref} {c : Closure} {args : List Value} (hc : c.env.Storable)
    (hargs : ∀ v ∈ args, v.storable) : (callEnv r c args).Storable := by
  have hpairs : BindingsStorable (c.params.zip args) := fun p hp =>
    hargs p.2 (List.of_mem_zip hp).2
  unfold callEnv
  dsimp only
  split
  · exact (hc.enclose.define rfl).foldl_define hpairs
  · exact hc.enclose.foldl_define hpairs

/-! ### Cells and the heap -/

/-- A cell holds storable values only: the items of an array, the values of a dict, the
environment a function was made in. -/
def Cell.Storable : Cell → Prop
  | .array xs => ∀ v ∈ xs, v.storable
  | .dict es => BindingsStorable es
  | .function c => c.env.Storable

@[simp] theorem Cell.storable_array {xs : Array Value} :
    (Cell.array xs).Storable ↔ ∀ v ∈ xs, v.storable := Iff.rfl

@[simp] theorem Cell.storable_dict {es : Entries} :
    (Cell.dict es).Storable ↔ BindingsStorable es := Iff.rfl

@[simp] theorem Cell.storable_function {c : Closure} :
    (Cell.function c).Storable ↔ c.env.Storable := Iff.rfl

/-- Every cell of the heap holds storable values only. -/
def Heap.Storable (h : Heap) : Prop := ∀ c ∈ h.cells, c.Storable

theorem Heap.storable_empty : ({} : Heap).Storable := by
  simp [Heap.Storable]

namespace Heap.Storable

variable {h : Heap} (hh : h.Storable)
include hh

theorem alloc {c : Cell} (hc : c.Storable) : (h.alloc c).1.Storable := by
  intro c' hc'
  rcases Array.mem_push.mp hc' with hc' | rfl
  · exact hh c' hc'
  · exact hc

theorem put {r : Ref} {c : Cell} (hc : c.Storable) : (h.put r c).Storable := by
  intro c' hc'
  rcases Array.mem_or_eq_of_mem_setIfInBounds hc' with hc' | rfl
  · exact hh c' hc'
  · exact hc

theorem get? {r : Ref} {c : Cell} (hr : h.get? r = some c) : c.Storable :=
  hh c (Array.mem_of_getElem? hr)

theorem items {r : Ref} {v : Value} (hv : v ∈ h.items r) : v.storable := by
  unfold Heap.items at hv
  split at hv
  · exact Cell.storable_array.mp (hh.get? ‹_›) v hv
  · simp at hv

theorem entries (r : Ref) : BindingsStorable (h.entries r) := by
  unfold Heap.entries
  split
  · exact hh.get? ‹_›
  · exact BindingsStorable.nil

theorem closure (r : Ref) : (h.closure r).env.Storable := by
  unfold Heap.closure
  split
  · exact hh.get? ‹_›
  · exact fun s hs => absurd hs List.not_mem_nil

end Heap.Storable

namespace Eval

/-- The environment and the heap hold storable values only. -/
def Machine.Storable (m : Machine) : Prop := m.env.Storable ∧ m.heap.Storable

theorem Machine.storable_fresh : Machine.Storable {} :=
  ⟨Env.storable_root, Heap.storable_empty⟩

theorem Machine.Storable.heeds : Heeds Machine.Storable := fun _ _ hm he _ hh =>
  ⟨he ▸ hm.1, hh ▸ hm.2⟩

/-! ### Operations on values -/

/-- Every value `x` gives satisfies `Q`, and every cause it fails with satisfies `C`. -/
def Settles {α : Type} (Q : α → Prop) (C : Cause → Prop) (x : Except Cause α) : Prop :=
  (∀ a, x = .ok a → Q a) ∧ ∀ c, x = .error c → C c

namespace Settles

variable {α β : Type} {P : α → Prop} {Q : β → Prop} {C C' : Cause → Prop}

theorem ok {a : α} (h : P a) : Settles P C (.ok a) := by
  refine ⟨fun b hb => ?_, fun c hc => ?_⟩
  · cases hb
    exact h
  · cases hc

theorem pure {a : α} (h : P a) : Settles P C (Pure.pure a) := ok h

theorem error {c : Cause} (h : C c) : Settles P C (.error c : Except Cause α) := by
  refine ⟨fun b hb => ?_, fun c' hc => ?_⟩
  · cases hb
  · cases hc
    exact h

theorem mono {x : Except Cause α} {P' : α → Prop} (hx : Settles P C x)
    (hp : ∀ a, P a → P' a) (hc : ∀ c, C c → C' c) : Settles P' C' x :=
  ⟨fun a ha => hp a (hx.1 a ha), fun c hc' => hc c (hx.2 c hc')⟩

theorem bind {x : Except Cause α} {f : α → Except Cause β} (hx : Settles P C x)
    (hf : ∀ a, P a → Settles Q C (f a)) : Settles Q C (x >>= f) := by
  cases x with
  | error c => exact error (hx.2 c rfl)
  | ok a => exact hf a (hx.1 a rfl)

theorem map {x : Except Cause α} {g : α → β} (hx : Settles P C x)
    (hg : ∀ a, P a → Q (g a)) :
    Settles Q C (x.map g) := by
  cases x with
  | error c => exact error (hx.2 c rfl)
  | ok a => exact ok (hg a (hx.1 a rfl))

end Settles

/-- A cause other than the refusal of an unknown builtin. -/
abbrev Cause.Known (c : Cause) : Prop := c.isUnknownNative = false

/-- The faults of the pieces the methods of containers are made of, and so of a method called
under a name its container answers to: a wrong number of arguments, an index or a key of the wrong
type, an index out of range, popping an empty array. -/
def Cause.ofMethod : Cause → Bool
  | .builtinArity _ _ _ | .indexType _ | .indexRange _ _ | .keyType _ _ | .popEmpty
  | .outOfBounds _ _ => true
  | _ => false

theorem Cause.known_of_ofMethod {c : Cause} (h : c.ofMethod) : c.Known := by
  cases c
  case unknownNative => cases h
  all_goals rfl

theorem expectArity_settles {name : String} {args : List Value} {n : Nat} :
    Settles (fun _ => True) (fun c => c.ofMethod) (expectArity name args n) := by
  unfold expectArity
  split
  · exact .ok trivial
  · exact .error rfl

theorem position_settles {key : Value} {len : Nat} :
    Settles (fun _ => True) (fun c => c.ofMethod) (position key len) := by
  unfold position
  split
  · dsimp only
    split
    · exact .error rfl
    · exact .ok trivial
  · exact .error rfl

theorem itemAt_settles {xs : Array Value} {i : Nat} (hxs : ∀ v ∈ xs, v.storable) :
    Settles (fun w : Value => w.storable) (fun c => c.ofMethod) (itemAt xs i) := by
  unfold itemAt
  split
  · exact .ok (hxs _ (Array.getElem_mem _))
  · exact .error rfl

theorem setAt_settles {xs : Array Value} {i : Nat} {v : Value} (hxs : ∀ w ∈ xs, w.storable)
    (hv : v.storable) :
    Settles (fun ys : Array Value => ∀ w ∈ ys, w.storable) (fun c => c.ofMethod) (setAt xs i v) := by
  unfold setAt
  split
  · exact .ok fun w hw => (Array.mem_or_eq_of_mem_setIfInBounds hw).elim (hxs w) fun h => h ▸ hv
  · exact .error rfl

theorem keyText_settles {context : String} {v : Value} :
    Settles (fun _ => True) (fun c => c.ofMethod) (keyText context v) := by
  unfold keyText
  split
  · exact .ok trivial
  · exact .error rfl

/-- Resolving a name gives that name when the receiver answers to it, and reports the missing
attribute otherwise. -/
theorem getNamed_settles {recv : Receiver} {name : String} :
    Settles (fun m => m = name ∧ name ∈ recv.methodNames) (· = .noAttribute recv.type name)
      (getNamed recv name) := by
  unfold getNamed
  split
  · rename_i m hm
    have hname : m = name := by simpa using List.find?_some hm
    exact .ok ⟨hname, hname ▸ List.mem_of_find?_eq_some hm⟩
  · exact .error rfl

theorem getNamed_of_not_mem {recv : Receiver} {name : String} (h : name ∉ recv.methodNames) :
    getNamed recv name = .error (.noAttribute recv.type name) := by
  unfold getNamed
  rw [List.find?_eq_none.mpr]
  intro m hm
  simp only [beq_iff_eq]
  rintro rfl
  exact h hm

theorem arithmetic_settles {op : Syntax.BinaryOp} {x y : Float} :
    Settles (fun _ => True) Cause.Known (arithmetic op x y) := by
  unfold arithmetic
  split
  · exact .ok trivial
  · exact .ok trivial
  · split
    · exact .error rfl
    · exact .ok trivial
  · split
    · exact .error rfl
    · exact .ok trivial
  · exact .ok trivial

/-- An operator on values gives a storable value, and joining two arrays stores the items of
both. -/
theorem applyOp_settles {h : Heap} {op : Syntax.BinaryOp} {a b : Value} (hh : h.Storable) :
    Settles (fun p : Heap × Value => p.1.Storable ∧ p.2.storable) Cause.Known
      (applyOp h op a b) := by
  unfold applyOp
  split
  case h_1 =>
    split
    · exact .ok ⟨hh, rfl⟩
    · exact .ok ⟨hh, rfl⟩
    · refine .ok ⟨hh.alloc ?_, rfl⟩
      exact Cell.storable_array.mpr fun v hv => (Array.mem_append.mp hv).elim hh.items hh.items
    · exact .error rfl
  case h_2 | h_3 | h_4 | h_5 =>
    split
    · exact arithmetic_settles.map fun _ _ => ⟨hh, rfl⟩
    · exact .error rfl
  case h_6 | h_7 | h_8 | h_9 =>
    split
    · exact .ok ⟨hh, rfl⟩
    · exact .ok ⟨hh, rfl⟩
    · exact .error rfl
  case h_10 => exact .ok ⟨hh, rfl⟩
  case h_11 | h_12 | h_13 => exact .error rfl

theorem indexValue_settles {h : Heap} {v key : Value} (hh : h.Storable) :
    Settles (fun w : Value => w.storable) Cause.Known (indexValue h v key) := by
  have known : ∀ c : Cause, c.ofMethod → c.Known := fun _ => Cause.known_of_ofMethod
  unfold indexValue
  split
  · exact Settles.bind (position_settles.mono (fun _ h => h) known) fun _ _ =>
      (itemAt_settles fun _ hv => hh.items hv).mono (fun _ h => h) known
  · refine Settles.bind (keyText_settles.mono (fun _ h => h) known) fun k _ => ?_
    split
    · exact .ok ((hh.entries _).lookup ‹_›)
    · exact .error rfl
  · exact .error rfl

/-- An attribute is a method bound to its container under a name the container answers to. -/
theorem attribute_settles {v : Value} {name : String} :
    Settles (fun w : Value => w.boundMethod) Cause.Known (v.attribute name) := by
  have bound : ∀ recv, Settles (fun w : Value => w.boundMethod) Cause.Known
      ((getNamed recv name).map (.method recv)) := by
    intro recv
    refine Settles.map (getNamed_settles.mono (fun _ h => h) fun _ h => h ▸ rfl) ?_
    rintro m ⟨rfl, hm⟩
    exact decide_eq_true hm
  unfold Value.attribute
  split
  · exact bound _
  · exact bound _
  · exact .error rfl

theorem storable_headD {args : List Value} (hargs : ∀ v ∈ args, v.storable) :
    (args.headD .null).storable := by
  cases args with
  | nil => rfl
  | cons v _ => exact hargs v List.mem_cons_self

theorem storable_getD {args : List Value} (hargs : ∀ v ∈ args, v.storable) (i : Nat) :
    (args.getD i .null).storable := by
  rw [List.getD_eq_getElem?_getD]
  cases hi : args[i]? with
  | none => rfl
  | some v => exact hargs v (List.mem_of_getElem? hi)

section Methods

variable {h : Heap} {r : Ref} {name : String} {args : List Value}

theorem invokeArrayMethod_settles (hh : h.Storable) (hargs : ∀ v ∈ args, v.storable)
    (hname : name ∈ arrayMethods) :
    Settles (fun p : Heap × Value => p.1.Storable ∧ p.2.storable) (fun c => c.ofMethod)
      (invokeArrayMethod h r name args) := by
  unfold invokeArrayMethod
  split
  · exact Settles.bind expectArity_settles fun _ _ => .pure ⟨hh, rfl⟩
  · refine Settles.bind expectArity_settles fun _ _ => .pure ⟨hh.put ?_, rfl⟩
    exact Cell.storable_array.mpr fun v hv =>
      (Array.mem_push.mp hv).elim hh.items fun hv => hv ▸ storable_headD hargs
  · refine Settles.bind expectArity_settles fun _ _ => ?_
    dsimp only
    split
    · refine .pure ⟨hh.put ?_, hh.items (Array.mem_of_back? ‹_›)⟩
      refine Cell.storable_array.mpr fun v hv => ?_
      rw [Array.mem_def, Array.toList_pop] at hv
      exact hh.items (Array.mem_def.mpr (List.dropLast_subset _ hv))
    · exact .error rfl
  · refine Settles.bind expectArity_settles fun _ _ => ?_
    refine Settles.bind position_settles fun _ _ => ?_
    refine Settles.bind (setAt_settles (fun _ hv => hh.items hv) (storable_getD hargs 1)) fun _ hys => ?_
    exact .pure ⟨hh.put (Cell.storable_array.mpr hys), rfl⟩
  · simp_all [arrayMethods]

theorem invokeDictMethod_settles (hh : h.Storable) (hargs : ∀ v ∈ args, v.storable)
    (hname : name ∈ dictMethods) :
    Settles (fun p : Heap × Value => p.1.Storable ∧ p.2.storable) (fun c => c.ofMethod)
      (invokeDictMethod h r name args) := by
  unfold invokeDictMethod
  split
  · refine Settles.bind expectArity_settles fun _ _ => ?_
    refine Settles.bind keyText_settles fun _ _ => .pure ⟨hh.put ?_, rfl⟩
    exact Cell.storable_dict.mpr ((hh.entries r).insert (storable_getD hargs 1))
  · exact Settles.bind expectArity_settles fun _ _ => .pure ⟨hh, rfl⟩
  · refine Settles.bind expectArity_settles fun _ _ => .pure ⟨hh.alloc ?_, rfl⟩
    refine Cell.storable_array.mpr fun v hv => ?_
    -- the keys are strings
    obtain ⟨⟨k, x⟩, -, rfl⟩ := List.mem_map.mp (List.mem_toArray.mp hv)
    rfl
  · exact Settles.bind expectArity_settles fun _ _ =>
      Settles.bind keyText_settles fun _ _ => .pure ⟨hh, rfl⟩
  · simp_all [dictMethods]

/-- A bound method, called with storable arguments on a storable heap, leaves the heap storable,
gives a storable value, and fails only with a fault of its own, never a missing attribute. -/
theorem invokeMethod_settles {recv : Receiver} (hh : h.Storable)
    (hargs : ∀ v ∈ args, v.storable) (hname : name ∈ recv.methodNames) :
    Settles (fun p : Heap × Value => p.1.Storable ∧ p.2.storable) (fun c => c.ofMethod)
      (invokeMethod h recv name args) := by
  cases recv with
  | array r => exact invokeArrayMethod_settles hh hargs hname
  | dict r => exact invokeDictMethod_settles hh hargs hname

/-- For a name the container does not answer to, the catch-all arm of the method tables runs and
reports the missing attribute. -/
theorem invokeMethod_of_not_mem {recv : Receiver} (hname : name ∉ recv.methodNames) :
    invokeMethod h recv name args = .error (.noAttribute recv.type name) := by
  cases recv with
  | array r =>
    change name ∉ arrayMethods at hname
    show invokeArrayMethod h r name args = _
    unfold invokeArrayMethod
    split
    case h_1 | h_2 | h_3 | h_4 => exact absurd (by decide) hname
    case h_5 => rw [getNamed_of_not_mem hname]; rfl
  | dict r =>
    change name ∉ dictMethods at hname
    show invokeDictMethod h r name args = _
    unfold invokeDictMethod
    split
    case h_1 | h_2 | h_3 | h_4 => exact absurd (by decide) hname
    case h_5 => rw [getNamed_of_not_mem hname]; rfl

end Methods

theorem rangeBound_settles {which : String} {v : Value} :
    Settles (fun _ => True) Cause.Known (rangeBound which v) := by
  unfold rangeBound
  split
  · split
    · exact .ok trivial
    · exact .error rfl
  · exact .error rfl

end Eval

end Arson
