import Arson.Proofs.Eval.Fuel
/-!
# An attribute is a call with no arguments

An attribute link resolves a method of a container and calls it at once with no arguments, unless
the next link is a call, which then passes its own arguments. So a chain behaves as the chain with
each of those calls written out (`saturateCalls`): an empty call after every attribute that no
call follows. Whenever either chain finishes, with a value or a fault, the other finishes the same
way, on a machine alike in everything but the events shown to a tracer: the chain as written
announces each call it makes at once. Written out, a chain takes at most one more unit of fuel per
link.
-/
namespace Arson.Eval

open Arson.Syntax

/-- The links of a chain with its method calls written out: an empty call after every attribute
that no call follows. -/
def saturateCalls : List Link → List Link
  | [] => []
  | .attr name :: rest =>
    match rest with
    | .call _ :: _ => .attr name :: saturateCalls rest
    | _ => .attr name :: .call [] :: saturateCalls rest
  | l :: rest => l :: saturateCalls rest

/-- `links` does not begin with a call. -/
def NoCallNext (links : List Link) : Prop := ∀ args rest, links ≠ .call args :: rest

section Equations

variable {n : Nat} {v : Value} {name : String} {args : List Expr} {rest : List Link}

@[simp] theorem saturateCalls_call :
    saturateCalls (.call args :: rest) = .call args :: saturateCalls rest := rfl

@[simp] theorem saturateCalls_index {key : Expr} :
    saturateCalls (.index key :: rest) = .index key :: saturateCalls rest := rfl

@[simp] theorem saturateCalls_attr_call :
    saturateCalls (.attr name :: .call args :: rest) =
      .attr name :: .call args :: saturateCalls rest := rfl

theorem saturateCalls_attr (h : NoCallNext rest) :
    saturateCalls (.attr name :: rest) = .attr name :: .call [] :: saturateCalls rest := by
  match rest with
  | [] => rfl
  | .index _ :: _ => rfl
  | .attr _ :: _ => rfl
  | .call args' :: rest' => exact absurd rfl (h args' rest')

theorem evalList_nil : evalList (n + 1) [] = pure [] := by simp only [evalList]

theorem evalLinks_call :
    evalLinks (n + 1) v (.call args :: rest) =
      evalList n args >>= fun vs => callValue n v vs >>= fun w => evalLinks n w rest := by
  simp only [evalLinks]

theorem evalLinks_attr_call :
    evalLinks (n + 1) v (.attr name :: .call args :: rest) =
      orRaise (v.attribute name) >>= fun f => evalLinks n f (.call args :: rest) := by
  simp only [evalLinks, Bool.not_true, Bool.and_false, Bool.false_eq_true, if_false, pure_bind]

/-- An attribute that no call follows calls what it resolves at once, with no arguments. -/
theorem evalLinks_attr_auto (h : NoCallNext rest) :
    evalLinks (n + 1) v (.attr name :: rest) =
      orRaise (v.attribute name) >>= fun f =>
        if f.isCallable then
          emit (.autoInvoke name) >>= fun _ => callValue n f [] >>= fun w => evalLinks n w rest
        else evalLinks n f rest := by
  match rest with
  | [] => simp only [evalLinks, Bool.not_false, Bool.and_true, pure_bind]
  | .index _ :: _ => simp only [evalLinks, Bool.not_false, Bool.and_true, pure_bind]
  | .attr _ :: _ => simp only [evalLinks, Bool.not_false, Bool.and_true, pure_bind]
  | .call args' :: rest' => exact absurd rfl (h args' rest')

end Equations

theorem attribute_method {v w : Value} {name : String} (h : v.attribute name = .ok w) :
    ∃ recv m, w = .method recv m := by
  unfold Value.attribute at h
  split at h
  · cases hn : getNamed (.array _) name <;> rw [hn] at h <;> cases h
    exact ⟨_, _, rfl⟩
  · cases hn : getNamed (.dict _) name <;> rw [hn] at h <;> cases h
    exact ⟨_, _, rfl⟩
  · cases h

/-! ### Rules for the steps that differ -/

namespace Outlasts

variable {α β : Type} {W : β → β → Prop}

theorem outOfFuel_bind (f : α → EvalM β) (y : EvalM β) :
    Outlasts W (MonadExcept.throw .outOfFuel >>= f) y := fun m _ _ hfin =>
  absurd (by rw [exec_bind_error (exec_throw .outOfFuel m)]) hfin

theorem raise_bind (c : Cause) (f g : α → EvalM β) :
    Outlasts W (Eval.raise c >>= f) (Eval.raise c >>= g) :=
  (Outlasts.raise c (V := fun _ _ => False)).bind fun _ _ h => h.elim

theorem attr_bind {v : Value} {name : String} {f g : Value → EvalM Value}
    (hfg : ∀ recv m, Outlasts Eq (f (.method recv m)) (g (.method recv m))) :
    Outlasts Eq (Eval.orRaise (v.attribute name) >>= f)
      (Eval.orRaise (v.attribute name) >>= g) := by
  rcases hattr : v.attribute name with c | w
  · exact raise_bind c f g
  · obtain ⟨recv, m, rfl⟩ := attribute_method hattr
    simp only [Eval.orRaise, pure_bind]
    exact hfg recv m

end Outlasts

/-! ### The two chains finish alike -/

section Links

variable {v : Value} {name : String} {rest : List Link}

/-- An attribute that no call follows, written out: the empty call the written-out chain makes is
the call the chain makes at once, announced to a tracer. -/
theorem auto_saturated_outlasted (hrest : NoCallNext rest) {n k : Nat} (h : n ≤ k)
    (ih : ∀ w n k, n ≤ k →
      Outlasts Eq (evalLinks n w (saturateCalls rest)) (evalLinks k w rest)) :
    Outlasts Eq (evalLinks (n + 1) v (saturateCalls (.attr name :: rest)))
      (evalLinks (k + 1) v (.attr name :: rest)) := by
  rw [saturateCalls_attr hrest, evalLinks_attr_call, evalLinks_attr_auto hrest]
  refine Outlasts.attr_bind fun recv m => ?_
  simp only [Value.isCallable, ↓reduceIte]
  refine Outlasts.emit_right ?_ _
  -- the written-out call needs two units of fuel to reach the method
  match n with
  | 0 => simp only [evalLinks]; exact Outlasts.outOfFuel _
  | 1 => rw [evalLinks_call]; simp only [evalList]; exact Outlasts.outOfFuel_bind _ _
  | i + 2 =>
    rw [evalLinks_call, evalList_nil, pure_bind]
    have hfuel := outlasting (i + 1) k (by omega)
    exact (hfuel.call _ []).bind_eq fun w => ih w (i + 1) k (by omega)

/-- The same attribute the other way: the call the chain makes at once is the empty call written
out, given the unit of fuel that the written-out link takes. -/
theorem auto_outlasted_by_saturated (hrest : NoCallNext rest) {n k : Nat}
    (h : n + rest.length + 1 ≤ k)
    (ih : ∀ w n k, n + rest.length ≤ k →
      Outlasts Eq (evalLinks n w rest) (evalLinks k w (saturateCalls rest))) :
    Outlasts Eq (evalLinks (n + 1) v (.attr name :: rest))
      (evalLinks (k + 1) v (saturateCalls (.attr name :: rest))) := by
  rw [saturateCalls_attr hrest, evalLinks_attr_call, evalLinks_attr_auto hrest]
  refine Outlasts.attr_bind fun recv m => ?_
  simp only [Value.isCallable, ↓reduceIte]
  refine Outlasts.emit_left ?_ _
  match n, k, h with
  | 0, _, _ => simp only [callValue]; exact Outlasts.outOfFuel_bind _ _
  | _ + 1, 0, h | _ + 1, 1, h => exact absurd h (by omega)
  | i + 1, j + 2, h =>
    rw [evalLinks_call, evalList_nil, pure_bind]
    have hfuel := outlasting (i + 1) (j + 1) (by omega)
    exact (hfuel.call _ []).bind_eq fun w => ih w (i + 1) (j + 1) (by omega)

/-- Where the written-out chain finishes, the chain as written finishes alike with as much fuel. -/
theorem saturateCalls_outlasted : ∀ (links : List Link) (v : Value) (n k : Nat), n ≤ k →
    Outlasts Eq (evalLinks n v (saturateCalls links)) (evalLinks k v links)
  | _, _, 0, _, _ => by simp only [evalLinks]; exact Outlasts.outOfFuel _
  | _, _, _ + 1, 0, h => absurd h (by omega)
  | [], _, n + 1, k + 1, _ => by simp only [saturateCalls, evalLinks]; exact Outlasts.pure rfl
  | .call args :: rest, v, n + 1, k + 1, h => by
    have hfuel := outlasting n k (by omega)
    rw [saturateCalls_call, evalLinks_call, evalLinks_call]
    exact (hfuel.list args).bind_eq fun _ => (hfuel.call v _).bind_eq fun w =>
      saturateCalls_outlasted rest w n k (by omega)
  | .index key :: rest, v, n + 1, k + 1, h => by
    have hfuel := outlasting n k (by omega)
    simp only [saturateCalls_index, evalLinks]
    exact (hfuel.expr key).bind_eq fun _ => Outlasts.heap.bind_eq fun _ =>
      (Outlasts.orRaise _).bind_eq fun w => saturateCalls_outlasted rest w n k (by omega)
  | .attr name :: .call args :: rest, v, n + 1, k + 1, h => by
    -- an explicit call after the attribute stays, and passes its own arguments
    have htail := saturateCalls_outlasted (.call args :: rest)
    rw [saturateCalls_call] at htail
    rw [saturateCalls_attr_call, evalLinks_attr_call, evalLinks_attr_call]
    exact (Outlasts.orRaise _).bind_eq fun w => htail w n k (by omega)
  | .attr name :: .index key :: rest, v, n + 1, k + 1, h =>
    auto_saturated_outlasted (by simp [NoCallNext]) (by omega)
      (saturateCalls_outlasted (.index key :: rest))
  | .attr name :: .attr name' :: rest, v, n + 1, k + 1, h =>
    auto_saturated_outlasted (by simp [NoCallNext]) (by omega)
      (saturateCalls_outlasted (.attr name' :: rest))
  | [.attr name], v, n + 1, k + 1, h =>
    auto_saturated_outlasted (by simp [NoCallNext]) (by omega) (saturateCalls_outlasted [])

/-- Where the chain as written finishes, the written-out chain finishes alike, given one more unit
of fuel per link. -/
theorem outlasted_by_saturateCalls : ∀ (links : List Link) (v : Value) (n k : Nat),
    n + links.length ≤ k →
      Outlasts Eq (evalLinks n v links) (evalLinks k v (saturateCalls links))
  | _, _, 0, _, _ => by simp only [evalLinks]; exact Outlasts.outOfFuel _
  | _, _, _ + 1, 0, h => absurd h (by omega)
  | [], _, n + 1, k + 1, _ => by simp only [saturateCalls, evalLinks]; exact Outlasts.pure rfl
  | .call args :: rest, v, n + 1, k + 1, h => by
    have hfuel := outlasting n k (by simp only [List.length_cons] at h; omega)
    rw [saturateCalls_call, evalLinks_call, evalLinks_call]
    exact (hfuel.list args).bind_eq fun _ => (hfuel.call v _).bind_eq fun w =>
      outlasted_by_saturateCalls rest w n k (by simp only [List.length_cons] at h; omega)
  | .index key :: rest, v, n + 1, k + 1, h => by
    have hfuel := outlasting n k (by simp only [List.length_cons] at h; omega)
    simp only [saturateCalls_index, evalLinks]
    exact (hfuel.expr key).bind_eq fun _ => Outlasts.heap.bind_eq fun _ =>
      (Outlasts.orRaise _).bind_eq fun w =>
        outlasted_by_saturateCalls rest w n k (by simp only [List.length_cons] at h; omega)
  | .attr name :: .call args :: rest, v, n + 1, k + 1, h => by
    have htail := outlasted_by_saturateCalls (.call args :: rest)
    rw [saturateCalls_call] at htail
    rw [saturateCalls_attr_call, evalLinks_attr_call, evalLinks_attr_call]
    exact (Outlasts.orRaise _).bind_eq fun w =>
      htail w n k (by simp only [List.length_cons] at h ⊢; omega)
  | .attr name :: .index key :: rest, v, n + 1, k + 1, h =>
    auto_outlasted_by_saturated (by simp [NoCallNext])
      (by simp only [List.length_cons] at h ⊢; omega)
      (outlasted_by_saturateCalls (.index key :: rest))
  | .attr name :: .attr name' :: rest, v, n + 1, k + 1, h =>
    auto_outlasted_by_saturated (by simp [NoCallNext])
      (by simp only [List.length_cons] at h ⊢; omega)
      (outlasted_by_saturateCalls (.attr name' :: rest))
  | [.attr name], v, n + 1, k + 1, h =>
    auto_outlasted_by_saturated (by simp [NoCallNext])
      (by simp only [List.length_cons] at h ⊢; omega) (outlasted_by_saturateCalls [])

end Links

/-- `r.m` and `r.m()` are one program wherever they stand in a chain: writing out the calls of
attributes changes no result, only what a tracer is shown. -/
theorem attribute_is_empty_call (recv : Expr) (links : List Link) (m : Machine) (n : Nat) :
    ((exec (evalExpr n (.chain recv links)) m).1 ≠ .error .outOfFuel →
      Finished Eq (exec (evalExpr n (.chain recv links)) m)
        (exec (evalExpr (n + links.length) (.chain recv (saturateCalls links))) m)) ∧
    ((exec (evalExpr n (.chain recv (saturateCalls links))) m).1 ≠ .error .outOfFuel →
      Finished Eq (exec (evalExpr n (.chain recv (saturateCalls links))) m)
        (exec (evalExpr n (.chain recv links)) m)) := by
  match n with
  | 0 => simp only [evalExpr, exec_throw]; exact ⟨fun h => absurd rfl h, fun h => absurd rfl h⟩
  | n + 1 =>
    refine ⟨fun hfin => ?_, fun hfin => ?_⟩
    · rw [show n + 1 + links.length = n + links.length + 1 by omega]
      simp only [evalExpr] at hfin ⊢
      have hrecv := (outlasting n (n + links.length) (by omega)).expr recv
      exact hrecv.bind_eq (fun v => outlasted_by_saturateCalls links v n _ (Nat.le_refl _)) m m
        (.refl m) hfin
    · simp only [evalExpr] at hfin ⊢
      have hrecv := (outlasting n n (Nat.le_refl _)).expr recv
      exact hrecv.bind_eq (fun v => saturateCalls_outlasted links v n n (Nat.le_refl _)) m m
        (.refl m) hfin

/-- `[].length` finishes, and so does `[].length()`, alike. -/
theorem length_is_empty_call :
    (exec (evalExpr 4 (.chain (.array []) [.attr "length"])) {}).1 ≠ .error .outOfFuel ∧
      Finished Eq (exec (evalExpr 4 (.chain (.array []) [.attr "length"])) {})
        (exec (evalExpr (4 + [Link.attr "length"].length)
          (.chain (.array []) (saturateCalls [.attr "length"]))) {}) :=
  have hfin :
      (exec (evalExpr 4 (.chain (.array []) [.attr "length"])) {}).1 ≠ .error .outOfFuel := nofun
  ⟨hfin, (attribute_is_empty_call (.array []) [.attr "length"] {} 4).1 hfin⟩

end Arson.Eval
