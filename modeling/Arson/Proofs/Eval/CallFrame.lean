import Arson.Proofs.Eval.Call
/-!
# Calls give back the caller's frame

Every evaluation leaves the call stack as it found it, and the scopes below the current one: only
the current scope may gain bindings. A call of a user function does more: it gives back the
caller's environment exactly, with whatever bindings its body made gone, whether the body returned,
ran to its end, or stopped with a fault anywhere inside, however deep the calls nested there. So a
program run from an empty stack and one scope ends with an empty stack and one scope.

The proof is one induction on the fuel over all the evaluation functions at once (`FrameKept`);
the only step that touches the stack or the environment below the current scope is the call,
where `exec_callClosure` takes the body apart.
-/
namespace Arson.Eval

open Arson.Syntax

/-- Only the current scope of `m₀` may have changed in `m`: the call stack, the scopes below the
current one and the number of scopes are as they were. -/
def Frame (m₀ m : Machine) : Prop :=
  m.stack = m₀.stack ∧ m.env.scopes.tail = m₀.env.scopes.tail ∧
    m.env.scopes.length = m₀.env.scopes.length

theorem Frame.refl (m : Machine) : Frame m m := ⟨rfl, rfl, rfl⟩

theorem Frame.heeds (m₀ : Machine) : Heeds (Frame m₀) := fun _ _ hm he hs _ =>
  ⟨hs.trans hm.1, he ▸ hm.2.1, he ▸ hm.2.2⟩

theorem Env.define_scopes_tail (e : Env) (k : String) (v : Value) :
    (e.define k v).scopes.tail = e.scopes.tail := by
  unfold Env.define
  split <;> simp_all

theorem Env.define_scopes_length (e : Env) (k : String) (v : Value) :
    (e.define k v).scopes.length = e.scopes.length := by
  unfold Env.define
  split <;> simp_all

theorem Frame.define {m₀ m : Machine} (hm : Frame m₀ m) (k : String) (v : Value) :
    Frame m₀ { m with env := m.env.define k v } :=
  ⟨hm.1, (Env.define_scopes_tail _ k v).trans hm.2.1, (Env.define_scopes_length _ k v).trans hm.2.2⟩

/-- `x` keeps the frame of `m₀`. -/
abbrev Framed {α : Type} (m₀ : Machine) (x : EvalM α) : Prop :=
  Guards (Frame m₀) (fun _ => True) (fun _ => True) x

/-- `x` gives back the environment and the call stack of `m₀`. -/
abbrev Restored {α : Type} (m₀ : Machine) (x : EvalM α) : Prop :=
  Guards (fun m => m.env = m₀.env ∧ m.stack = m₀.stack) (fun _ => True) (fun _ => True) x

theorem Restored.framed {α : Type} {x : EvalM α} (hx : ∀ m₀, Restored m₀ x) (m₀ : Machine) :
    Framed m₀ x := fun m hm =>
  have ⟨⟨he, hs⟩, _⟩ := hx m m ⟨rfl, rfl⟩
  ⟨⟨hs.trans hm.1, he ▸ hm.2.1, he ▸ hm.2.2⟩, fun _ _ => trivial, fun _ _ => trivial⟩

/-- Every evaluation function at fuel `n` keeps the frame; a call of a user function gives back
the environment and the stack. -/
structure FrameKept (n : Nat) : Prop where
  expr : ∀ m₀ e, Framed m₀ (evalExpr n e)
  list : ∀ m₀ es, Framed m₀ (evalList n es)
  entries : ∀ m₀ es acc, Framed m₀ (evalEntries n es acc)
  links : ∀ m₀ v ls, Framed m₀ (evalLinks n v ls)
  call : ∀ m₀ f args, Framed m₀ (callValue n f args)
  closure : ∀ m₀ r c args, Restored m₀ (callClosure n r c args)
  block : ∀ m₀ ss, Framed m₀ (evalBlock n ss)
  stmt : ∀ m₀ s, Framed m₀ (evalStmt n s)
  branches : ∀ m₀ bs, Framed m₀ (evalBranches n bs)
  loop : ∀ m₀ t b, Framed m₀ (runWhile n t b)
  range : ∀ m₀ x i j b, Framed m₀ (runFor n x i j b)

namespace FrameKept

variable {n : Nat} (ih : FrameKept n) (m₀ : Machine)
include ih

theorem expr_succ (e : Expr) : Framed m₀ (evalExpr (n + 1) e) := by
  cases e with
  | ident name => simp only [evalExpr]; exact .lookup (fun _ _ _ _ => trivial) (fun _ => trivial) fun _ _ => trivial
  | number x => simp only [evalExpr]; exact .pure trivial
  | str s => simp only [evalExpr]; exact .pure trivial
  | bool b => simp only [evalExpr]; exact .pure trivial
  | negate inner =>
    simp only [evalExpr]
    refine (ih.expr m₀ inner).bind fun v _ => ?_
    split
    · exact .pure trivial
    · exact .raise trivial
  | binOp lhs op rhs =>
    cases op
    case and =>
      simp only [evalExpr]
      exact (ih.expr m₀ lhs).bind fun _ _ => Guards.truthy.bind fun _ _ =>
        .ite (fun _ => ih.expr m₀ rhs) fun _ => .pure trivial
    case or =>
      simp only [evalExpr]
      exact (ih.expr m₀ lhs).bind fun _ _ => Guards.truthy.bind fun _ _ =>
        .ite (fun _ => .pure trivial) fun _ => ih.expr m₀ rhs
    case assign =>
      simp only [evalExpr]
      split
      · exact (ih.expr m₀ rhs).bind fun _ _ =>
          (Guards.defineVar fun _ hm => hm.define _ _).bind fun _ _ => .pure trivial
      · exact .raise trivial
    all_goals
      simp only [evalExpr]
      exact (ih.expr m₀ lhs).bind fun _ _ => (ih.expr m₀ rhs).bind fun _ _ =>
        .onHeap (fun _ hm _ _ _ => ⟨hm, trivial⟩) fun _ _ _ _ => trivial
  | call callee args =>
    simp only [evalExpr]
    exact (ih.expr m₀ callee).bind fun _ _ => (ih.list m₀ args).bind fun _ _ => ih.call m₀ _ _
  | array items =>
    simp only [evalExpr]
    exact (ih.list m₀ items).bind fun _ _ =>
      (Guards.alloc fun _ hm => hm).bind fun _ _ => .pure trivial
  | dict entries =>
    simp only [evalExpr]
    exact (ih.entries m₀ entries []).bind fun _ _ =>
      (Guards.alloc fun _ hm => hm).bind fun _ _ => .pure trivial
  | lambda params body =>
    simp only [evalExpr]
    exact Guards.get.bind fun _ _ =>
      (Guards.alloc fun _ hm => hm).bind fun _ _ => .pure trivial
  | chain receiver links =>
    simp only [evalExpr]
    exact (ih.expr m₀ receiver).bind fun _ _ => ih.links m₀ _ links

theorem list_succ (es : List Expr) : Framed m₀ (evalList (n + 1) es) := by
  cases es with
  | nil => simp only [evalList]; exact .pure trivial
  | cons e rest =>
    simp only [evalList]
    exact (ih.expr m₀ e).bind fun _ _ => (ih.list m₀ rest).bind fun _ _ => .pure trivial

theorem entries_succ (es : List (String × Expr)) (acc : Entries) :
    Framed m₀ (evalEntries (n + 1) es acc) := by
  cases es with
  | nil => simp only [evalEntries]; exact .pure trivial
  | cons entry rest =>
    simp only [evalEntries]
    exact (ih.expr m₀ entry.2).bind fun _ _ => ih.entries m₀ rest _

theorem links_succ (cur : Value) (ls : List Link) : Framed m₀ (evalLinks (n + 1) cur ls) := by
  match ls with
  | [] => simp only [evalLinks]; exact .pure trivial
  | .call args :: rest =>
    simp only [evalLinks]
    exact (ih.list m₀ args).bind fun _ _ => (ih.call m₀ cur _).bind fun _ _ => ih.links m₀ _ rest
  | .index key :: rest =>
    simp only [evalLinks]
    exact (ih.expr m₀ key).bind fun _ _ => Guards.heap.bind fun _ _ =>
      Guards.bind (.orRaise (fun _ _ => trivial) fun _ _ => trivial) fun _ _ => ih.links m₀ _ rest
  | .attr name :: rest =>
    simp only [evalLinks, pure_bind]
    refine Guards.bind (.orRaise (fun _ _ => trivial) fun _ _ => trivial) fun _ _ => ?_
    exact .ite (fun _ => (Guards.emit (Frame.heeds m₀) _).bind fun _ _ =>
        (ih.call m₀ _ _).bind fun _ _ => ih.links m₀ _ rest) fun _ => ih.links m₀ _ rest

theorem call_succ (f : Value) (args : List Value) : Framed m₀ (callValue (n + 1) f args) := by
  cases f with
  | function r =>
    simp only [callValue]
    exact Guards.heap.bind fun _ _ => Restored.framed (fun m₀ => ih.closure m₀ _ _ _) m₀
  | builtin name =>
    simp only [callValue, callBuiltin]
    refine (Guards.emit (Frame.heeds m₀) _).bind fun _ _ => ?_
    split
    next b _ =>
      have hb : Guards (Frame m₀) (fun v => v.isScalar) (fun _ => True) (runBuiltin b args) :=
        .runBuiltin (Frame.heeds m₀) (fun _ _ => trivial) b args
      exact hb.mono (fun _ _ => trivial) fun _ h => h
    next => exact .raise trivial
  | method recv name =>
    simp only [callValue]
    exact .onHeap (fun _ hm _ _ _ => ⟨hm, trivial⟩) fun _ _ _ _ => trivial
  | number _ | str _ | bool _ | null | array _ | dict _ =>
    simp only [callValue]
    exact .raise trivial

/-- The call itself: the body keeps the frame of the machine it starts on, whose stack is the
caller's with one name pushed, so popping that name gives the caller's stack back. -/
theorem closure_succ (r : Ref) (c : Closure) (args : List Value) :
    Restored m₀ (callClosure (n + 1) r c args) := by
  intro m hm
  refine ⟨?_, fun _ _ => trivial, fun _ _ => trivial⟩
  by_cases harity : args.length = c.params.length
  · by_cases hdepth : m.stack.length < maxDepth
    · rw [exec_callClosure n r c args m harity hdepth]
      have hbody := (ih.block (callStart m r c args) c.body (callStart m r c args) (.refl _)).1
      refine ⟨hm.1, ?_⟩
      simp only
      rw [hbody.1, callStart_stack, List.dropLast_concat]
      exact hm.2
    · rw [exec_callClosure_depth n r c args m harity (Nat.not_lt.mp hdepth)]
      exact hm
  · rw [exec_callClosure_arity n r c args m harity]
    exact hm

theorem block_succ (ss : List Stmt) : Framed m₀ (evalBlock (n + 1) ss) := by
  cases ss with
  | nil => simp only [evalBlock]; exact .pure trivial
  | cons s rest =>
    simp only [evalBlock]
    refine (ih.stmt m₀ s).bind fun flow _ => ?_
    cases flow with
    | ret v => exact .pure trivial
    | normal => exact ih.block m₀ rest

theorem stmt_succ (s : Stmt) : Framed m₀ (evalStmt (n + 1) s) := by
  cases s with
  | var name e =>
    simp only [evalStmt]
    exact (ih.expr m₀ e).bind fun _ _ =>
      (Guards.defineVar fun _ hm => hm.define _ _).bind fun _ _ => .pure trivial
  | func name params body =>
    simp only [evalStmt]
    exact Guards.get.bind fun _ _ => (Guards.alloc fun _ hm => hm).bind fun _ _ =>
      (Guards.defineVar fun _ hm => hm.define _ _).bind fun _ _ => .pure trivial
  | ret e =>
    simp only [evalStmt]
    exact (ih.expr m₀ e).bind fun _ _ => .pure trivial
  | ifElse test body branches =>
    simp only [evalStmt]
    exact (ih.expr m₀ test).bind fun _ _ => Guards.truthy.bind fun _ _ =>
      .ite (fun _ => ih.block m₀ body) fun _ => ih.branches m₀ branches
  | whileLoop test body =>
    simp only [evalStmt]
    exact ih.loop m₀ test body
  | forRange name start stop body =>
    simp only [evalStmt]
    exact (ih.expr m₀ start).bind fun _ _ =>
      Guards.bind (.orRaise (fun _ _ => trivial) fun _ _ => trivial) fun _ _ =>
      (ih.expr m₀ stop).bind fun _ _ =>
      Guards.bind (.orRaise (fun _ _ => trivial) fun _ _ => trivial) fun _ _ =>
      ih.range m₀ name _ _ body
  | expr e =>
    simp only [evalStmt]
    exact (ih.expr m₀ e).bind fun _ _ => .pure trivial

theorem branches_succ (bs : List Branch) : Framed m₀ (evalBranches (n + 1) bs) := by
  match bs with
  | [] => simp only [evalBranches]; exact .pure trivial
  | .otherwise body :: _ => simp only [evalBranches]; exact ih.block m₀ body
  | .elif test body :: rest =>
    simp only [evalBranches]
    exact (ih.expr m₀ test).bind fun _ _ => Guards.truthy.bind fun _ _ =>
      .ite (fun _ => ih.block m₀ body) fun _ => ih.branches m₀ rest

theorem loop_succ (test : Expr) (body : List Stmt) : Framed m₀ (runWhile (n + 1) test body) := by
  simp only [runWhile]
  refine (ih.expr m₀ test).bind fun _ _ => Guards.truthy.bind fun _ _ =>
    .ite (fun _ => (ih.block m₀ body).bind fun flow _ => ?_) fun _ => .pure trivial
  cases flow with
  | ret v => exact .pure trivial
  | normal => exact ih.loop m₀ test body

theorem range_succ (name : String) (i stop : Int) (body : List Stmt) :
    Framed m₀ (runFor (n + 1) name i stop body) := by
  simp only [runFor]
  refine .ite (fun _ => ?_) fun _ => .pure trivial
  refine (Guards.defineVar fun _ hm => hm.define _ _).bind fun _ _ =>
    (ih.block m₀ body).bind fun flow _ => ?_
  cases flow with
  | ret v => exact .pure trivial
  | normal => exact ih.range m₀ name _ stop body

theorem succ : FrameKept (n + 1) where
  expr m₀ := ih.expr_succ m₀
  list m₀ := ih.list_succ m₀
  entries m₀ := ih.entries_succ m₀
  links m₀ := ih.links_succ m₀
  call m₀ := ih.call_succ m₀
  closure m₀ := ih.closure_succ m₀
  block m₀ := ih.block_succ m₀
  stmt m₀ := ih.stmt_succ m₀
  branches m₀ := ih.branches_succ m₀
  loop m₀ := ih.loop_succ m₀
  range m₀ := ih.range_succ m₀

end FrameKept

theorem frameKept_zero : FrameKept 0 where
  expr _ _ := by simp only [evalExpr]; exact .throw trivial
  list _ _ := by simp only [evalList]; exact .throw trivial
  entries _ _ _ := by simp only [evalEntries]; exact .throw trivial
  links _ _ _ := by simp only [evalLinks]; exact .throw trivial
  call _ _ _ := by simp only [callValue]; exact .throw trivial
  closure _ _ _ _ := by simp only [callClosure]; exact .throw trivial
  block _ _ := by simp only [evalBlock]; exact .throw trivial
  stmt _ _ := by simp only [evalStmt]; exact .throw trivial
  branches _ _ := by simp only [evalBranches]; exact .throw trivial
  loop _ _ _ := by simp only [runWhile]; exact .throw trivial
  range _ _ _ _ _ := by simp only [runFor]; exact .throw trivial

theorem frameKept : ∀ n, FrameKept n
  | 0 => frameKept_zero
  | n + 1 => (frameKept n).succ

theorem callValue_function_restored (n : Nat) (r : Ref) (args : List Value) (m₀ : Machine) :
    Restored m₀ (callValue n (.function r) args) := by
  cases n with
  | zero => simp only [callValue]; exact .throw trivial
  | succ k =>
    simp only [callValue]
    exact Guards.heap.bind fun _ _ => (frameKept k).closure m₀ _ _ _

theorem runProgram_framed (n : Nat) (prog : List Stmt) (m₀ : Machine) :
    Framed m₀ (runProgram n prog) := by
  simp only [runProgram]
  refine ((frameKept n).block m₀ prog).bind fun flow _ => ?_
  cases flow with
  | ret v => exact Guards.heap.bind fun _ _ => .emit (Frame.heeds m₀) _
  | normal => exact .pure trivial

/-- A user call never leaks its frame: however it ends, the caller gets its scopes and its stack
back. -/
theorem user_call_gives_back_frame :
    (∀ n r args m, (exec (callValue n (.function r) args) m).2.env = m.env ∧
      (exec (callValue n (.function r) args) m).2.stack = m.stack) ∧
    (∀ n prog (m : Machine), m.stack = [] → m.env.scopes.length = 1 →
      (exec (runProgram n prog) m).2.stack = [] ∧
        (exec (runProgram n prog) m).2.env.scopes.length = 1) := by
  refine ⟨fun n r args m => (callValue_function_restored n r args m m ⟨rfl, rfl⟩).1, ?_⟩
  intro n prog m hstack hscopes
  have hframe := (runProgram_framed n prog m m (.refl m)).1
  exact ⟨hframe.1.trans hstack, hframe.2.2.trans hscopes⟩

/-- `outer` calls `inner` on its argument, and `fire` writes what comes back. -/
def nestedCalls : List Stmt :=
  [.func "inner" ["x"] [.ret (.ident "x")],
   .func "outer" ["y"] [.ret (.call (.ident "inner") [.ident "y"])],
   .expr (.call (.ident "fire") [.call (.ident "outer") [.number 7]])]

/-- A fresh machine has an empty stack and one scope; after two nested calls it ends the same
way. -/
theorem nested_calls_give_back_frame :
    ({} : Machine).stack = [] ∧ ({} : Machine).env.scopes.length = 1 ∧
      (exec (runProgram 32 nestedCalls) {}).2.output = "7\n" ∧
      (exec (runProgram 32 nestedCalls) {}).2.stack = [] ∧
      (exec (runProgram 32 nestedCalls) {}).2.env.scopes.length = 1 :=
  ⟨rfl, rfl, by decide +kernel, user_call_gives_back_frame.2 32 nestedCalls {} rfl rfl⟩

end Arson.Eval
