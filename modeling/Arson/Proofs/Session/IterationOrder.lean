import Arson.Proofs.Eval.Reorder
import Arson.Session
import Mathlib.Data.String.Basic
import Mathlib.Data.List.Nodup
/-!
# A session does not depend on the order of its bindings

Two sessions with one keyword table, whose scopes (the machine's and those its functions keep)
hold the same bindings perhaps listed in other orders, run a source text alike: the same output,
the same globals, shown alike, and failures reported alike but for a suggestion, which is the
nearest name to the missing one among the same candidates taken in two orders. The globals are
listed by name, so their order is that of the names; a dict keeps its entries in the order of
their keys, so nothing else is listed in an order of its own.
-/
namespace Arson

open Arson.Eval Arson.Syntax

/-- Two sessions alike but for the order of their bindings. -/
structure Session.Reordered (s s' : Session) : Prop where
  table : s.table = s'.table
  machine : s.machine.Reordered s'.machine

/-- Two failures alike: the same fault of the lexer or the parser, both out of fuel, or runtime
faults alike but for the order candidates for a suggestion were met in. -/
def Failure.Reordered : Failure → Failure → Prop
  | .run f, .run f' => f.Reordered f'
  | f, f' => f = f'

/-- A step's results on two reordered sessions: sessions alike again, one output, failures alike. -/
def Session.StepsAlike (r r' : Session × Step) : Prop :=
  r.1.Reordered r'.1 ∧ r.2.output = r'.2.output ∧
    Option.Rel Failure.Reordered r.2.failure r'.2.failure

/-- The failure a run's outcome is reported as. -/
def Session.failureOf : Except Stop Unit → Option Failure
  | .ok () => none
  | .error (.fault f) => some (.run f)
  | .error .outOfFuel => some .fuel

theorem Session.runProgram_exec (s : Session) (prog : List Stmt) :
    s.runProgram prog =
      let o := exec (Eval.runProgram runFuel prog) { s.machine with output := "" }
      ({ s with machine := o.2 }, ⟨o.2.output, Session.failureOf o.1⟩) := rfl

namespace Session.Reordered

variable {s s' : Session}

theorem runProgram (h : s.Reordered s') (prog : List Stmt) :
    StepsAlike (s.runProgram prog) (s'.runProgram prog) := by
  have hm : Machine.Reordered { s.machine with output := "" } { s'.machine with output := "" } :=
    { h.machine with output := rfl }
  have hrun := runProgram_blind runFuel prog _ _ hm
  rw [Session.runProgram_exec, Session.runProgram_exec]
  revert hrun
  generalize exec (Eval.runProgram runFuel prog) { s.machine with output := "" } = o
  generalize exec (Eval.runProgram runFuel prog) { s'.machine with output := "" } = o'
  rcases o with ⟨e | u, m₁⟩ <;> rcases o' with ⟨e' | u', m₁'⟩ <;> intro hrun
  · refine ⟨⟨h.table, hrun.2⟩, hrun.2.output, ?_⟩
    cases e <;> cases e'
    · exact .some hrun.1
    · exact hrun.1.elim
    · exact hrun.1.elim
    · exact .some rfl
  · exact hrun.elim
  · exact hrun.elim
  · exact ⟨⟨h.table, hrun.2⟩, hrun.2.output, .none⟩

theorem run (h : s.Reordered s') (source : String) : StepsAlike (s.run source) (s'.run source) := by
  unfold Session.run
  rw [← h.table]
  split
  · exact ⟨h, rfl, .some rfl⟩
  · split
    · exact ⟨h, rfl, .some rfl⟩
    · exact h.runProgram _

/-- The globals are listed by name: two reordered sessions list the same bindings. -/
theorem globals (h : s.Reordered s') : s.globals = s'.globals := by
  have hcur := h.machine.env.current
  unfold Session.globals
  -- both lists are sorted by name and hold each name once, and they hold the same bindings
  have hperm : (s.machine.env.current.mergeSort fun a b => decide (a.1 ≤ b.1)).Perm
      (s'.machine.env.current.mergeSort fun a b => decide (a.1 ≤ b.1)) :=
    ((List.mergeSort_perm _ _).trans hcur.2).trans (List.mergeSort_perm _ _).symm
  have hsorted : ∀ l : Scope, (l.mergeSort fun a b => decide (a.1 ≤ b.1)).Pairwise
      (fun a b => decide (a.1 ≤ b.1) = true) := fun l =>
    @List.pairwise_mergeSort _ (fun a b : String × Value => decide (a.1 ≤ b.1))
      (fun _ _ _ hab hbc =>
        decide_eq_true (le_trans (of_decide_eq_true hab) (of_decide_eq_true hbc)))
      (fun (a b : String × Value) => by
        simp only [Bool.or_eq_true, decide_eq_true_eq]
        exact le_total a.1 b.1) l
  refine List.Perm.eq_of_pairwise ?_ (hsorted _) (hsorted _) hperm
  intro a b ha hb hab hba
  have hkey : a.1 = b.1 := le_antisymm (of_decide_eq_true hab) (of_decide_eq_true hba)
  exact List.inj_on_of_nodup_map hcur.1 (List.mem_mergeSort.mp ha)
    (hcur.2.symm.subset (List.mem_mergeSort.mp hb)) hkey

end Session.Reordered

/-- Two failures alike are reported alike, but for the suggestion. -/
theorem Failure.Reordered.report {f f' : Failure} (h : f.Reordered f') :
    { f.report with suggestion := none } = { f'.report with suggestion := none } ∧
      (f.report.suggestion = f'.report.suggestion ∨
        ∃ name cs cs', cs.Perm cs' ∧ f.report.suggestion = Text.nearest name cs ∧
          f'.report.suggestion = Text.nearest name cs') := by
  cases f <;> cases f'
  case run.run f f' =>
    refine ⟨by simp only [Failure.report, Eval.Fault.report, h.cause, h.help], ?_⟩
    rcases h.suggestion with hs | ⟨name, cs, cs', -, hp, hs, hs'⟩
    · exact .inl hs
    · exact .inr ⟨name, cs, cs', hp, hs, hs'⟩
  -- the other failures are alike only when equal
  all_goals cases h <;> exact ⟨rfl, .inl rfl⟩

end Arson
