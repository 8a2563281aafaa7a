import Arson.Proofs.Eval.Exec
import Arson.Proofs.Number.Truncation
/-!
# Counted loops

`for v through (a, b) { body }` evaluates `a` and makes it a whole number, then does the same
for `b`. A bound that is not a number is a `TypeError`, and one whose truncation toward zero is not
a 64-bit integer is a `ValueError`; either stops the statement before the body ever runs. With
whole bounds `s` and `e`, the loop keeps its own counter: the body runs exactly `max 0 (e - s)`
times as long as each run ends normally, run `j` starting with `v` bound to `s + j` in the current
scope whatever the body did to `v` or to the names the bounds read, and the loop ends where the
last run ended. A `return` in the body ends the loop with its value. `random` takes its bounds by
the same conversion.

`Repeats` states what a sequence of runs of the body is, independently of the loop's test; the
loop is compared with it by one induction on the fuel (`runFor_normal_iff`, `runFor_ret_iff`).
-/
namespace Arson.Eval

open Arson.Syntax

/-- The machine a run of a loop's body starts on: `name` bound to `i` in the current scope. -/
def Machine.withCounter (m : Machine) (name : String) (i : Int) : Machine :=
  { m with env := m.env.define name (.number (Float.ofInt i)) }

/-- `Repeats name body n i k m m'`: `k` runs of `body` lead from `m` to `m'`, each ending normally
where the next one starts; run `j`, counted from `0`, starts with `name` bound to `i + j` and has
fuel `n - j`. -/
inductive Repeats (name : String) (body : List Stmt) : Nat → Int → Nat → Machine → Machine → Prop
  | zero (n : Nat) (i : Int) (m : Machine) : Repeats name body n i 0 m m
  | succ {n : Nat} {i : Int} {k : Nat} {m m₁ m₂ : Machine} :
      exec (evalBlock n body) (m.withCounter name i) = (.ok .normal, m₁) →
      Repeats name body (n - 1) (i + 1) k m₁ m₂ → Repeats name body n i (k + 1) m m₂

section Runs

variable {name : String} {body : List Stmt}

theorem Repeats.zero_iff {n : Nat} {i : Int} {m m' : Machine} :
    Repeats name body n i 0 m m' ↔ m' = m := by
  constructor
  · rintro ⟨⟩
    rfl
  · rintro rfl
    exact .zero _ _ _

theorem Repeats.succ_iff {n : Nat} {i : Int} {k : Nat} {m m' : Machine} :
    Repeats name body n i (k + 1) m m' ↔
      ∃ m₁, exec (evalBlock n body) (m.withCounter name i) = (.ok .normal, m₁) ∧
        Repeats name body (n - 1) (i + 1) k m₁ m' := by
  constructor
  · rintro (_ | ⟨hrun, hrest⟩)
    exact ⟨_, hrun, hrest⟩
  · rintro ⟨m₁, hrun, hrest⟩
    exact .succ hrun hrest

theorem exec_evalBlock_zero (ss : List Stmt) (m : Machine) :
    exec (evalBlock 0 ss) m = (.error .outOfFuel, m) := by
  simp only [evalBlock]
  rfl

end Runs

section Bounds

theorem rangeBound_number_ok_iff (which : String) (x : Float) (t : Int) :
    rangeBound which (.number x) = .ok t ↔ Number.toInt64? x = some t := by
  rcases hx : Number.toInt64? x with _ | t' <;> simp [rangeBound, hx]

theorem rangeBound_number_refused {which : String} {x : Float} (hx : Number.toInt64? x = none) :
    rangeBound which (.number x) = .error (.rangeBoundRange which x) := by
  simp [rangeBound, hx]

theorem rangeBound_not_number {which : String} {v : Value} (hv : ∀ x, v ≠ .number x) :
    rangeBound which v = .error (.rangeBoundType which v.type) := by
  cases v
  case number x => exact absurd rfl (hv x)
  all_goals rfl

/-- `random` accepts exactly the bounds a loop accepts, as the same integers. -/
theorem randomBound_toOption (which which' : String) (v : Value) :
    (randomBound which v).toOption = (rangeBound which' v).toOption := by
  cases v
  case number x =>
    rcases hx : Number.toInt64? x with _ | t <;> simp [randomBound, rangeBound, hx, Except.toOption]
  all_goals rfl

end Bounds

section Loop

variable (name : String) (body : List Stmt)

theorem exec_runFor_done {i stop : Int} (hdone : ¬ i < stop) (n : Nat) (m : Machine) :
    exec (runFor (n + 1) name i stop body) m = (.ok .normal, m) := by
  simp only [runFor, hdone, if_false]
  rfl

/-- Before its end, the loop binds the counter, runs the body, and goes on from where it ended. -/
theorem exec_runFor_step {i stop : Int} (hmore : i < stop) (n : Nat) (m : Machine) :
    exec (runFor (n + 1) name i stop body) m =
      match exec (evalBlock n body) (m.withCounter name i) with
      | (.ok (.ret v), m') => (.ok (.ret v), m')
      | (.ok .normal, m') => exec (runFor n name (i + 1) stop body) m'
      | (.error e, m') => (.error e, m') := by
  have hbind : ({ m with env := m.env.define name (.number (Float.ofInt i)) } : Machine) =
      m.withCounter name i := rfl
  simp only [runFor, hmore, if_true, exec_bind, defineVar, exec_modify, hbind]
  rcases exec (evalBlock n body) (m.withCounter name i) with ⟨e | (_ | v), m'⟩ <;> rfl

theorem count_step {i stop : Int} (hmore : i < stop) :
    (stop - i).toNat = (stop - (i + 1)).toNat + 1 := by
  omega

/-- A loop from `i` to `stop` ends normally exactly when `max 0 (stop - i)` runs of the body, the
counter bound before each, lead from its start to its end. -/
theorem runFor_normal_iff (n : Nat) (i stop : Int) (m m' : Machine) :
    exec (runFor (n + 1) name i stop body) m = (.ok .normal, m') ↔
      Repeats name body n i (stop - i).toNat m m' := by
  induction n generalizing i m with
  | zero =>
    by_cases hmore : i < stop
    · -- the body would run with no fuel left
      rw [exec_runFor_step name body hmore, count_step hmore, Repeats.succ_iff,
        exec_evalBlock_zero]
      simp
    · rw [exec_runFor_done name body hmore, show (stop - i).toNat = 0 by omega, Repeats.zero_iff]
      simp [eq_comm]
  | succ n ih =>
    by_cases hmore : i < stop
    · rw [exec_runFor_step name body hmore, count_step hmore, Repeats.succ_iff]
      rcases hrun : exec (evalBlock (n + 1) body) (m.withCounter name i) with ⟨e | (_ | v), m₁⟩
      · simp
      · -- the first run ends normally: the rest of the loop is the loop from `i + 1`
        simp only [Nat.add_sub_cancel, Prod.mk.injEq]
        rw [ih (i + 1) m₁]
        simp only [true_and, exists_eq_left']
      · simp
    · rw [exec_runFor_done name body hmore, show (stop - i).toNat = 0 by omega, Repeats.zero_iff]
      simp [eq_comm]

/-- The runs of a loop that returns: the first one returns, or it ends normally and a later one
returns. -/
theorem exists_return_succ_iff {n : Nat} {i : Int} {k : Nat} {m m' : Machine} {v : Value} :
    (∃ j m₁, j < k + 1 ∧ Repeats name body n i j m m₁ ∧
        exec (evalBlock (n - j) body) (m₁.withCounter name (i + j)) = (.ok (.ret v), m')) ↔
      exec (evalBlock n body) (m.withCounter name i) = (.ok (.ret v), m') ∨
        ∃ m₁, exec (evalBlock n body) (m.withCounter name i) = (.ok .normal, m₁) ∧
          ∃ j m₂, j < k ∧ Repeats name body (n - 1) (i + 1) j m₁ m₂ ∧
            exec (evalBlock (n - 1 - j) body) (m₂.withCounter name (i + 1 + j)) =
              (.ok (.ret v), m') := by
  constructor
  · rintro ⟨j, m₁, hj, hrep, hret⟩
    cases j with
    | zero =>
      rw [Repeats.zero_iff] at hrep
      subst hrep
      left
      simpa using hret
    | succ j =>
      obtain ⟨m₂, hrun, hrest⟩ := Repeats.succ_iff.1 hrep
      refine .inr ⟨m₂, hrun, j, m₁, by omega, hrest, ?_⟩
      rw [show n - 1 - j = n - (j + 1) by omega, show i + 1 + j = i + ((j + 1 : Nat) : Int) by omega]
      exact hret
  · rintro (hret | ⟨m₁, hrun, j, m₂, hj, hrep, hret⟩)
    · exact ⟨0, m, by omega, .zero _ _ _, by simpa using hret⟩
    · refine ⟨j + 1, m₂, by omega, .succ hrun hrep, ?_⟩
      rw [show n - (j + 1) = n - 1 - j by omega, show i + ((j + 1 : Nat) : Int) = i + 1 + j by omega]
      exact hret

/-- A loop from `i` to `stop` returns exactly when, for some `j < max 0 (stop - i)`, the first `j`
runs of the body end normally and run `j` returns. -/
theorem runFor_ret_iff (n : Nat) (i stop : Int) (m m' : Machine) (v : Value) :
    exec (runFor (n + 1) name i stop body) m = (.ok (.ret v), m') ↔
      ∃ j m₁, j < (stop - i).toNat ∧ Repeats name body n i j m m₁ ∧
        exec (evalBlock (n - j) body) (m₁.withCounter name (i + j)) = (.ok (.ret v), m') := by
  induction n generalizing i m with
  | zero =>
    by_cases hmore : i < stop
    · rw [exec_runFor_step name body hmore, count_step hmore, exists_return_succ_iff,
        exec_evalBlock_zero]
      simp
    · rw [exec_runFor_done name body hmore, show (stop - i).toNat = 0 by omega]
      simp
  | succ n ih =>
    by_cases hmore : i < stop
    · rw [exec_runFor_step name body hmore, count_step hmore, exists_return_succ_iff]
      rcases hrun : exec (evalBlock (n + 1) body) (m.withCounter name i) with ⟨e | (_ | w), m₁⟩
      · simp
      · -- the first run ends normally: the rest of the loop is the loop from `i + 1`
        simp only [Nat.add_sub_cancel, ih (i + 1) m₁]
        simp
      · simp
    · rw [exec_runFor_done name body hmore, show (stop - i).toNat = 0 by omega]
      simp

/-! ### The statement: the bounds first, in order, then the loop -/

variable {n : Nat} {a b : Expr} {m m₁ m₂ : Machine} {va vb : Value}

/-- A start that is not a bound stops the statement right after it is evaluated: the end is not
evaluated, and the body never runs. -/
theorem exec_forRange_start_refused {c : Cause} (ha : exec (evalExpr n a) m = (.ok va, m₁))
    (hs : rangeBound "start" va = .error c) :
    exec (evalStmt (n + 1) (.forRange name a b body)) m = (.error (.fault (Fault.ofCause c)), m₁) := by
  simp only [evalStmt, exec_bind, ha, hs, exec_orRaise_error]

theorem exec_forRange_end_refused {s : Int} {c : Cause} (ha : exec (evalExpr n a) m = (.ok va, m₁))
    (hs : rangeBound "start" va = .ok s) (hb : exec (evalExpr n b) m₁ = (.ok vb, m₂))
    (he : rangeBound "end" vb = .error c) :
    exec (evalStmt (n + 1) (.forRange name a b body)) m = (.error (.fault (Fault.ofCause c)), m₂) := by
  simp only [evalStmt, exec_bind, ha, hs, hb, he, exec_orRaise_ok, exec_orRaise_error]

theorem exec_forRange_loop {s e : Int} (ha : exec (evalExpr n a) m = (.ok va, m₁))
    (hs : rangeBound "start" va = .ok s) (hb : exec (evalExpr n b) m₁ = (.ok vb, m₂))
    (he : rangeBound "end" vb = .ok e) :
    exec (evalStmt (n + 1) (.forRange name a b body)) m = exec (runFor n name s e body) m₂ := by
  simp only [evalStmt, exec_bind, ha, hs, hb, he, exec_orRaise_ok]

end Loop

/-- The semantics of `for v through (a, b)`: bounds are truncated, never clamped, and checked
before any run, and the loop is the `max 0 (b - a)` runs of its body in turn. -/
theorem for_range_between_truncated_bounds :
    (∀ x t, Number.toInt64? x = some t ↔
      (∃ q, Number.toRat? x = some q ∧ Number.towardZero q = t) ∧ -2 ^ 63 ≤ t ∧ t < 2 ^ 63) ∧
    (∀ which x t, rangeBound which (.number x) = .ok t ↔ Number.toInt64? x = some t) ∧
    (∀ which x, Number.toInt64? x = none →
      rangeBound which (.number x) = .error (.rangeBoundRange which x) ∧
        (Cause.rangeBoundRange which x).kind = .valueError) ∧
    (∀ which v, (∀ x, v ≠ .number x) →
      rangeBound which v = .error (.rangeBoundType which v.type) ∧
        (Cause.rangeBoundType which v.type).kind = .typeError) ∧
    (∀ which which' v, (randomBound which v).toOption = (rangeBound which' v).toOption) ∧
    (∀ n name a b body m va m₁ c, exec (evalExpr n a) m = (.ok va, m₁) →
      rangeBound "start" va = .error c →
      exec (evalStmt (n + 1) (.forRange name a b body)) m = (.error (.fault (Fault.ofCause c)), m₁)) ∧
    (∀ n name a b body m va m₁ s vb m₂ c, exec (evalExpr n a) m = (.ok va, m₁) →
      rangeBound "start" va = .ok s → exec (evalExpr n b) m₁ = (.ok vb, m₂) →
      rangeBound "end" vb = .error c →
      exec (evalStmt (n + 1) (.forRange name a b body)) m = (.error (.fault (Fault.ofCause c)), m₂)) ∧
    (∀ n name a b body m va m₁ s vb m₂ e, exec (evalExpr n a) m = (.ok va, m₁) →
      rangeBound "start" va = .ok s → exec (evalExpr n b) m₁ = (.ok vb, m₂) →
      rangeBound "end" vb = .ok e →
      exec (evalStmt (n + 1) (.forRange name a b body)) m = exec (runFor n name s e body) m₂) ∧
    (∀ n name body s e m m', exec (runFor (n + 1) name s e body) m = (.ok .normal, m') ↔
      Repeats name body n s (e - s).toNat m m') ∧
    (∀ n name body s e m m' v, exec (runFor (n + 1) name s e body) m = (.ok (.ret v), m') ↔
      ∃ j m₁, j < (e - s).toNat ∧ Repeats name body n s j m m₁ ∧
        exec (evalBlock (n - j) body) (m₁.withCounter name (s + j)) = (.ok (.ret v), m')) :=
  ⟨Number.toInt64?_eq_some_iff, rangeBound_number_ok_iff,
    fun _ _ hx => ⟨rangeBound_number_refused hx, rfl⟩,
    fun _ _ hv => ⟨rangeBound_not_number hv, rfl⟩, randomBound_toOption,
    fun _ name _ _ body _ _ _ _ ha hs => exec_forRange_start_refused name body ha hs,
    fun _ name _ _ body _ _ _ _ _ _ _ ha hs hb he => exec_forRange_end_refused name body ha hs hb he,
    fun _ name _ _ body _ _ _ _ _ _ _ ha hs hb he => exec_forRange_loop name body ha hs hb he,
    fun n name body s e m m' => runFor_normal_iff name body n s e m m',
    fun n name body s e m m' v => runFor_ret_iff name body n s e m m' v⟩

/-- An end of `1e19` lies past 64 bits: the loop stops with a value fault before its body runs. -/
theorem huge_end_refused_before_any_run :
    exec (evalStmt 3 (.forRange "i" (.number 0) (.number 1e19)
        [.expr (.call (.ident "fire") [.ident "i"])])) {} =
      (.error (.fault (Fault.ofCause (.rangeBoundRange "end" 1e19))), {}) ∧
    (Cause.rangeBoundRange "end" 1e19).kind = .valueError := by
  have hnone : Number.toInt64? 1e19 = none := by decide +kernel
  obtain ⟨hbound, hkind⟩ := for_range_between_truncated_bounds.2.2.1 "end" 1e19 hnone
  exact ⟨for_range_between_truncated_bounds.2.2.2.2.2.2.1 2 "i" _ _ _ {} (.number 0) {} 0
    (.number 1e19) {} _ rfl (by with_unfolding_all rfl) rfl hbound, hkind⟩

end Arson.Eval
