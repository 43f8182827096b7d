import ExprLang.Eval.Evaluator

/-!
# Attribution of errors

How evaluations compose, and which of them leave an error without a node.

An evaluation is *settled* if each error that it ends with is attributed to a node already.
Attributing a settled evaluation to another node changes nothing, so an attribution around a
sequence of evaluations reaches the last of them only.

* `EvalM.bind_apply`: what a sequence of two evaluations comes to.
* `settled_evalAt`: the evaluation of an expression is settled.
* `EvalM.attributed_bind`: an attribution moves past a settled evaluation.
-/

namespace ExprLang

namespace EvalM

variable {α β : Type}

/-- A sequence of two evaluations: the second runs if the first gives a value. -/
theorem bind_apply
    (m : EvalM α) (f : α → EvalM β) (s : EvalState) :
    (m >>= f) s =
      match m s with
      | (.ok a, t) => f a t
      | (.error stop, t) => (.error stop, t) := by
  show (ExceptT.bind m f) s = _
  simp only [ExceptT.bind, ExceptT.mk, bind, StateT.bind]
  rcases h : m s with ⟨_ | a, t⟩ <;> rfl

/-- A sequence comes to a value if both evaluations do. -/
theorem bind_eq_ok
    {m : EvalM α} {f : α → EvalM β}
    {s t : EvalState} {b : β} :
    (m >>= f) s = (.ok b, t) ↔ ∃ a s', m s = (.ok a, s') ∧ f a s' = (.ok b, t) := by
  rw [bind_apply]
  rcases m s with ⟨_ | a, s'⟩
  · exact ⟨nofun, nofun⟩
  · constructor
    · exact fun h => ⟨a, s', rfl, h⟩
    · rintro ⟨_, _, ⟨⟩, h⟩
      exact h

/-- A sequence fails if the first evaluation does, or the second after the value of the first. -/
theorem bind_eq_error
    {m : EvalM α} {f : α → EvalM β}
    {s t : EvalState} {stop : Stop} :
    (m >>= f) s = (.error stop, t) ↔
      m s = (.error stop, t) ∨ ∃ a s', m s = (.ok a, s') ∧ f a s' = (.error stop, t) := by
  rw [bind_apply]
  rcases m s with ⟨_ | a, s'⟩
  · constructor
    · rintro ⟨⟩
      exact .inl rfl
    · rintro (⟨⟨⟩⟩ | ⟨_, _, ⟨⟩, _⟩)
      rfl
  · constructor
    · exact fun h => .inr ⟨a, s', rfl, h⟩
    · rintro (⟨⟨⟩⟩ | ⟨_, _, ⟨⟩, h⟩)
      exact h

@[simp] theorem pure_apply
    (a : α) (s : EvalState) :
    (pure a : EvalM α) s = (.ok a, s) := rfl

@[simp] theorem fail_apply
    (error : RuntimeError) (s : EvalState) :
    (fail error : EvalM α) s = (.error (.failure error none), s) := rfl

@[simp] theorem ofOutcome_ok
    (a : α) :
    ofOutcome (.ok a) = (pure a : EvalM α) := rfl

@[simp] theorem ofOutcome_error
    (error : RuntimeError) :
    (ofOutcome (.error error) : EvalM α) = fail error := rfl

/-- A report always succeeds. -/
theorem report_apply
    (env : Environment) (event : TraceEvent) (s : EvalState) :
    report env event s = (.ok (), (report env event s).2) := by
  unfold report
  split <;> rfl

/-- Whether every error of an evaluation is attributed to a node. -/
def Settled (m : EvalM α) : Prop :=
  ∀ s error, (m s).1 ≠ .error (.failure error none)

/-- After an attribution no error is left without a node. -/
theorem settled_attributed
    (node : Nat) (m : EvalM α) :
    Settled (attributed node m) := by
  intro s error h
  unfold attributed at h
  rcases hm : m s with ⟨(_ | node') | _, t⟩ <;> rw [hm] at h
  · rename_i e node'
    cases node' <;> simp at h
  · simp at h
  · simp at h

/-- Attributing a settled evaluation changes nothing. -/
theorem attributed_of_settled
    {m : EvalM α}
    (hm : Settled m)
    (node : Nat) :
    attributed node m = m := by
  funext s
  unfold attributed
  have hs := hm s
  rcases h : m s with ⟨stop | a, t⟩
  · cases stop with
    | failure error node' =>
        cases node' with
        | none =>
            exact absurd (by rw [h]) (hs error)
        | some node' => rfl
    | outOfDepth => rfl
  · rfl

/-- A value needs no attribution. -/
@[simp] theorem attributed_pure
    (node : Nat) (a : α) :
    attributed node (pure a : EvalM α) = pure a := rfl

/-- The value that an outcome holds is that of the evaluation. -/
theorem eq_ok_of_outcome
    {m : EvalM α} {s t : EvalState} {o : Outcome α} {a : α}
    (ended : outcome m s = (.ok o, t))
    (isValue : o = .ok a) :
    m s = (.ok a, t) := by
  unfold outcome at ended
  rcases ran : m s with ⟨(_ | _) | b, t'⟩ <;> rw [ran] at ended <;> cases ended <;> cases isValue
  rfl

/-- An attribution keeps values. -/
theorem attributed_eq_ok
    {m : EvalM α} {node : Nat} {s : EvalState} {a : α}
    (ended : (attributed node m s).1 = .ok a) :
    ∃ t, m s = (.ok a, t) := by
  unfold attributed at ended
  rcases ran : m s with ⟨(⟨e, _ | _⟩ | _) | b, t⟩ <;> rw [ran] at ended <;> cases ended
  exact ⟨t, rfl⟩

/-- An attribution keeps the node of an error, if it has one. -/
theorem attributed_eq_error
    {m : EvalM α} {node : Nat} {s : EvalState} {error : RuntimeError} {found : Option Nat}
    (ended : (attributed node m s).1 = .error (.failure error found)) :
    ∃ own t, m s = (.error (.failure error own), t) ∧ found = some (own.getD node) := by
  unfold attributed at ended
  rcases ran : m s with ⟨(⟨e, _ | n⟩ | _) | b, t⟩ <;> rw [ran] at ended <;> cases ended
  · exact ⟨none, t, rfl, rfl⟩
  · exact ⟨some n, t, rfl, rfl⟩

/-- An attribution moves past a settled evaluation. -/
theorem attributed_bind
    {m : EvalM α}
    (hm : Settled m)
    (node : Nat) (f : α → EvalM β) :
    attributed node (m >>= f) = m >>= fun a => attributed node (f a) := by
  funext s
  have hs := hm s
  rw [bind_apply]
  unfold attributed
  simp only [bind_apply]
  rcases h : m s with ⟨stop | a, t⟩
  · cases stop with
    | failure error node' =>
        cases node' with
        | none =>
            exact absurd (by rw [h]) (hs error)
        | some node' => rfl
    | outOfDepth => rfl
  · rfl

end EvalM

namespace Eval

/-- The evaluation of an expression attributes all its errors. -/
theorem settled_evalAt
    (env : Environment) (depth : Nat) (e : Expr) :
    EvalM.Settled (evalAt env depth e) := by
  cases depth with
  | zero =>
      intro s error h
      cases h
  | succ depth =>
      exact EvalM.settled_attributed _ _

end Eval
end ExprLang
