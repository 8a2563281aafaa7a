import Arson.Eval.Interpreter
/-!
# Running a computation on a machine

`exec x m` is the outcome of `x` and the machine it ends on, for every outcome: a value, a fault
or running out of fuel. `Guards P Q E x` says that `x`, started where `P` holds, ends where `P`
holds, whatever the outcome, that a value it gives satisfies `Q`, and a stop it makes `E`. Invariants of the evaluator
are stated with it, and the rules below take a `do` block apart one bind at a time.
-/
namespace Arson

/-- Numbers, strings, booleans and null: the values a builtin gives. -/
def Value.isScalar : Value → Bool
  | .number _ | .str _ | .bool _ | .null => true
  | _ => false

namespace Eval

variable {α β : Type}

/-- The fault of calling a builtin that does not exist. -/
def Cause.isUnknownNative : Cause → Bool
  | .unknownNative _ => true
  | _ => false

theorem expectArity_error {name : String} {args : List Value} {n : Nat} {c : Cause}
    (h : expectArity name args n = .error c) : c.isUnknownNative = false := by
  unfold expectArity at h
  split at h <;> cases h <;> rfl

theorem randomBound_error {which : String} {v : Value} {c : Cause}
    (h : randomBound which v = .error c) : c.isUnknownNative = false := by
  unfold randomBound at h
  split at h
  · split at h <;> cases h <;> rfl
  · cases h; rfl

theorem toInt_error {v : Value} {c : Cause} (h : toInt v = .error c) :
    c.isUnknownNative = false := by
  unfold toInt at h
  split at h
  · split at h <;> cases h <;> rfl
  · split at h <;> cases h <;> rfl
  · cases h
  · cases h; rfl

theorem toInt_ok {v w : Value} (h : toInt v = .ok w) : w.isScalar := by
  unfold toInt at h
  split at h
  · split at h <;> cases h <;> rfl
  · split at h <;> cases h <;> rfl
  · cases h; rfl
  · cases h

theorem toFloat_error {v : Value} {c : Cause} (h : toFloat v = .error c) :
    c.isUnknownNative = false := by
  unfold toFloat at h
  split at h
  · cases h
  · split at h <;> cases h <;> rfl
  · cases h
  · cases h; rfl

theorem toFloat_ok {v w : Value} (h : toFloat v = .ok w) : w.isScalar := by
  unfold toFloat at h
  split at h
  · cases h; rfl
  · split at h <;> cases h <;> rfl
  · cases h; rfl
  · cases h

def exec (x : EvalM α) (m : Machine) : Except Stop α × Machine := x.run.run m

@[simp] theorem exec_pure (a : α) (m : Machine) : exec (pure a : EvalM α) m = (.ok a, m) := rfl

@[simp] theorem exec_throw (e : Stop) (m : Machine) : exec (throw e : EvalM α) m = (.error e, m) :=
  rfl

@[simp] theorem exec_get (m : Machine) : exec (get : EvalM Machine) m = (.ok m, m) := rfl

@[simp] theorem exec_set (m m' : Machine) : exec (set m' : EvalM Unit) m = (.ok (), m') := rfl

@[simp] theorem exec_modify (g : Machine → Machine) (m : Machine) :
    exec (modify g : EvalM Unit) m = (.ok (), g m) := rfl

@[simp] theorem exec_modifyGet (g : Machine → β × Machine) (m : Machine) :
    exec (modifyGet g : EvalM β) m = (.ok (g m).1, (g m).2) := rfl

theorem exec_bind (x : EvalM α) (f : α → EvalM β) (m : Machine) :
    exec (x >>= f) m = match exec x m with
      | (.ok a, m') => exec (f a) m'
      | (.error e, m') => (.error e, m') := by
  simp only [exec, ExceptT.run_bind, StateT.run_bind]
  rcases x.run.run m with ⟨a | e, m'⟩ <;> rfl

theorem exec_orRaise_ok (a : α) (m : Machine) :
    exec (orRaise (.ok a : Except Cause α)) m = (.ok a, m) := rfl

theorem exec_orRaise_error (c : Cause) (m : Machine) :
    exec (orRaise (.error c : Except Cause α)) m = (.error (.fault (Fault.ofCause c)), m) := rfl

/-- Started where `P` holds, `x` ends where `P` holds, a value it gives satisfies `Q`, and a stop
it makes (a fault or running out of fuel) satisfies `E`. -/
def Guards (P : Machine → Prop) (Q : α → Prop) (E : Stop → Prop) (x : EvalM α) : Prop :=
  ∀ m, P m → P (exec x m).2 ∧ (∀ a, (exec x m).1 = .ok a → Q a) ∧
    ∀ e, (exec x m).1 = .error e → E e

/-- `P` looks only at the environment, the call stack and the heap. -/
def Heeds (P : Machine → Prop) : Prop :=
  ∀ m m', P m → m'.env = m.env → m'.stack = m.stack → m'.heap = m.heap → P m'

namespace Guards

variable {P : Machine → Prop} {Q Q' : α → Prop} {R : β → Prop} {E E' : Stop → Prop}

theorem pure {a : α} (h : Q a) : Guards P Q E (pure a) := fun _ hm => by simpa using ⟨hm, h⟩

theorem throw {e : Stop} (h : E e) : Guards P Q E (throw e : EvalM α) := fun _ hm => by
  simpa using ⟨hm, h⟩

theorem raise {c : Cause} (h : E (.fault (Fault.ofCause c))) : Guards P Q E (raise c : EvalM α) :=
  throw h

theorem orRaise {e : Except Cause α} (hok : ∀ a, e = .ok a → Q a)
    (herr : ∀ c, e = .error c → E (.fault (Fault.ofCause c))) : Guards P Q E (orRaise e) := by
  cases e with
  | ok a => exact pure (hok a rfl)
  | error c => exact raise (herr c rfl)

theorem mono {x : EvalM α} (hx : Guards P Q E x) (hq : ∀ a, Q a → Q' a) (he : ∀ e, E e → E' e) :
    Guards P Q' E' x := fun m hm =>
  ⟨(hx m hm).1, fun a ha => hq a ((hx m hm).2.1 a ha), fun e he' => he e ((hx m hm).2.2 e he')⟩

theorem bind {x : EvalM α} {f : α → EvalM β} (hFirst : Guards P Q E x)
    (hNext : ∀ a, Q a → Guards P R E (f a)) : Guards P R E (x >>= f) := by
  intro m hm
  obtain ⟨hm', hq, he⟩ := hFirst m hm
  rw [exec_bind]
  rcases hx : exec x m with ⟨e | a, m'⟩
  · rw [hx] at hm' he
    refine ⟨hm', fun _ h => by simp at h, fun e' h => ?_⟩
    simp only [Except.error.injEq] at h
    exact h ▸ he e rfl
  · rw [hx] at hm' hq
    exact hNext a (hq a rfl) m' hm'

theorem get : Guards P P E get := fun m hm => by
  simp only [exec_get, Except.ok.injEq, reduceCtorEq, false_implies, implies_true, and_true]
  exact ⟨hm, fun _ ha => ha ▸ hm⟩

theorem modify {g : Machine → Machine} (h : ∀ m, P m → P (g m)) :
    Guards P (fun _ => True) E (modify g) := fun m hm => by simpa using h m hm

theorem modifyGet {g : Machine → β × Machine} (h : ∀ m, P m → P (g m).2 ∧ R (g m).1) :
    Guards P R E (modifyGet g) := fun m hm => by simpa using h m hm

theorem ite {c : Prop} [Decidable c] {x y : EvalM α} (hx : c → Guards P Q E x)
    (hy : ¬c → Guards P Q E y) : Guards P Q E (if c then x else y) := by
  by_cases hc : c
  · simpa [hc] using hx hc
  · simpa [hc] using hy hc

/-! ### The primitives of the machine -/

theorem heap : Guards P (fun h => ∃ m, P m ∧ m.heap = h) E heap :=
  get.bind fun m hm => pure ⟨m, hm, rfl⟩

theorem truthy {v : Value} : Guards P (fun _ => True) E (truthy v) :=
  heap.bind fun _ _ => pure trivial

theorem emit (hP : Heeds P) (ev : Event) : Guards P (fun _ => True) E (emit ev) :=
  modify fun m hm => hP m _ hm (by split <;> rfl) (by split <;> rfl) (by split <;> rfl)

theorem write (hP : Heeds P) (t : String) : Guards P (fun _ => True) E (write t) :=
  modify fun m hm => hP m _ hm rfl rfl rfl

theorem readLine (hP : Heeds P) : Guards P (fun _ => True) E readLine :=
  modifyGet fun m hm => ⟨hP m _ hm rfl rfl rfl, trivial⟩

/-- A draw lies between its bounds: the one promise of the machine's source. -/
theorem draw (hP : Heeds P) (lo hi : Int) :
    Guards P (fun k => lo ≤ hi → lo ≤ k ∧ k ≤ hi) E (draw lo hi) :=
  modifyGet fun m hm => ⟨hP m _ hm rfl rfl rfl, m.draws.pick_mem m.drawn lo hi⟩

theorem defineVar {name : String} {v : Value} (h : ∀ m, P m → P { m with env := m.env.define name v }) :
    Guards P (fun _ => True) E (defineVar name v) := modify h

theorem alloc {c : Cell} (h : ∀ m, P m → P { m with heap := (m.heap.alloc c).1 }) :
    Guards P (fun _ => True) E (alloc c) := modifyGet fun m hm => ⟨h m hm, trivial⟩

theorem onHeap {f : Heap → Except Cause (Heap × α)}
    (hok : ∀ m, P m → ∀ h a, f m.heap = .ok (h, a) → P { m with heap := h } ∧ Q a)
    (herr : ∀ m, P m → ∀ c, f m.heap = .error c → E (.fault (Fault.ofCause c))) :
    Guards P Q E (onHeap f) := by
  refine get.bind fun m hm => ?_
  split
  · rename_i h a hf
    obtain ⟨hP, hQ⟩ := hok m hm h a hf
    exact (modify fun _ _ => hP).bind fun _ _ => pure hQ
  · exact raise (herr m hm _ ‹_›)

theorem lookup {name : String} {V : Value → Prop}
    (hv : ∀ m, P m → ∀ v, m.env.get? name = some v → V v) (hb : ∀ b : Builtin, V (.builtin b.name))
    (he : ∀ f : Fault, f.cause = .undefinedName name → E (.fault f)) :
    Guards P V E (lookup name) := by
  refine get.bind fun m hm => ?_
  split
  · exact pure (hv m hm _ ‹_›)
  · split
    · exact pure (hb _)
    · exact throw (he _ rfl)

/-- A builtin leaves the environment, the call stack and the heap as they were, gives a scalar, and
fails only with a fault of its own. -/
theorem runBuiltin (hP : Heeds P)
    (he : ∀ c : Cause, c.isUnknownNative = false → E (.fault (Fault.ofCause c))) (b : Builtin)
    (args : List Value) : Guards P (fun v => v.isScalar) E (runBuiltin b args) := by
  have arity : ∀ n, Guards P (fun _ => True) E (Eval.orRaise (expectArity b.name args n)) := fun n =>
    orRaise (fun _ _ => trivial) fun c h => he c (expectArity_error h)
  cases b <;> simp only [Eval.runBuiltin]
  case fire => exact heap.bind fun _ _ => (write hP _).bind fun _ _ => pure rfl
  case load =>
    refine (arity 1).bind fun _ _ => ?_
    split
    · exact (write hP _).bind fun _ _ => (readLine hP).bind fun _ _ => pure rfl
    · exact raise (he _ rfl)
  case random =>
    refine (arity 2).bind fun _ _ => ?_
    refine (orRaise (fun _ _ => trivial) fun c h => he c (randomBound_error h)).bind fun lo _ => ?_
    refine (orRaise (fun _ _ => trivial) fun c h => he c (randomBound_error h)).bind fun hi _ => ?_
    exact ite (fun _ => raise (he _ rfl)) fun _ => (draw hP lo hi).bind fun _ _ => pure rfl
  case int =>
    exact (arity 1).bind fun _ _ =>
      orRaise (fun _ h => toInt_ok h) fun c h => he c (toInt_error h)
  case float =>
    exact (arity 1).bind fun _ _ =>
      orRaise (fun _ h => toFloat_ok h) fun c h => he c (toFloat_error h)
  case str => exact (arity 1).bind fun _ _ => heap.bind fun _ _ => pure rfl
  case bool => exact (arity 1).bind fun _ _ => heap.bind fun _ _ => pure rfl

/-- `random` on two accepted bounds gives a whole number between them, both included, whatever
source of draws the machine holds; bounds the wrong way round are a fault. -/
theorem random (hP : Heeds P) {a b : Value} {lo hi : Int} (ha : randomBound "min" a = .ok lo)
    (hb : randomBound "max" b = .ok hi) :
    Guards P (fun v => ∃ k : Int, v = .number (Float.ofInt k) ∧ lo ≤ k ∧ k ≤ hi)
      (fun e => e = .fault (Fault.ofCause (.randomInverted lo hi)))
      (Eval.runBuiltin .random [a, b]) := by
  simp only [Eval.runBuiltin, expectArity, List.length_cons, List.length_nil, List.headD_cons,
    List.getD_cons_succ, List.getD_cons_zero, ha, hb, Eval.orRaise]
  refine ite (fun _ => raise rfl) fun hle => ?_
  exact (draw hP lo hi).bind fun k hk => pure ⟨k, rfl, hk (Int.not_lt.1 hle)⟩

end Guards

end Eval

end Arson
