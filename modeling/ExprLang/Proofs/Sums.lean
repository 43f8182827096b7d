import ExprLang.Proofs.Attribution

/-!
# Chains of sums

A chain of sums is evaluated in one step that gathers lists (and strings) before it joins them.
`evalPairwise` is the plain rule: each sum of the chain evaluates its two operands, adds them, and
attributes its own error.

**Invariant.**  A running sum stands for the value of its pieces joined, `RunningSum.sealed`.
Gathering an operand is adding it to that value (`add_sealed_of_gather?`), so that the whole
gathering loop is a loop of additions (`addSteps_eq_addEach`).

**Result.**  `evalAt_sum`: a chain comes to the same value, or to the same error at the same node,
in the same final state, as by the plain rule.
-/

namespace ExprLang
namespace Eval

open EvalM (ofOutcome attributed Settled)

/-- The plain rule for sums: both operands are evaluated and added, and an error of the addition
is attributed to the sum.  The left operand is a sum of the chain itself, or the first operand. -/
def evalPairwise (rec : Expr → EvalM Value) : Expr → EvalM Value
  | .binary m .add left right =>
      attributed m.id do
        let a ← evalPairwise rec left
        let b ← rec right
        ofOutcome (a.add b)
  | e => rec e

/-- Adds operands to a value one by one, each addition at its own node. -/
def addEach (rec : Expr → EvalM Value) : Value → List (Nat × Expr) → EvalM Value
  | v, [] => return v
  | v, (node, e) :: steps => do
      let b ← rec e
      let sum ← attributed node (ofOutcome (v.add b))
      addEach rec sum steps

/-! ### The buffer -/

/-- An operand that is gathered is added to the value that the running sum stands for. -/
theorem add_sealed_of_gather?
    {acc next : RunningSum} {v : Value}
    (h : acc.gather? v = some next) :
    acc.sealed.add v = .ok next.sealed := by
  cases acc with
  | single a =>
      cases a <;> cases v <;> simp [RunningSum.gather?] at h
      · subst h
        simp [RunningSum.sealed, Value.add, String.join]
      · subst h
        simp [RunningSum.sealed, Value.add]
  | items pieces =>
      cases v <;> simp [RunningSum.gather?] at h
      subst h
      simp [RunningSum.sealed, Value.add]
  | text pieces =>
      cases v <;> simp [RunningSum.gather?] at h
      subst h
      simp [RunningSum.sealed, Value.add]

/-- The loop that gathers operands is a loop of additions. -/
theorem addSteps_eq_addEach
    (rec : Expr → EvalM Value)
    (steps : List (Nat × Expr)) :
    ∀ acc : RunningSum,
      addSteps rec acc steps = addEach rec acc.sealed steps := by
  induction steps with
  | nil =>
      intro acc
      rfl
  | cons step steps ih =>
      intro acc
      obtain ⟨node, e⟩ := step
      simp only [addSteps, addEach]
      congr 1
      funext v
      cases hg : acc.gather? v with
      | some next =>
          simp [add_sealed_of_gather? hg, ih]
      | none =>
          simp only [ih]
          rfl

/-! ### The chain -/

/-- Every error of the plain rule is attributed if the operands' errors are. -/
theorem settled_evalPairwise
    {rec : Expr → EvalM Value}
    (hrec : ∀ e, Settled (rec e))
    (e : Expr) :
    Settled (evalPairwise rec e) := by
  unfold evalPairwise
  split
  · exact EvalM.settled_attributed _ _
  · exact hrec _

/-- The plain rule for one sum, with the attribution at the addition. -/
theorem evalPairwise_sum
    {rec : Expr → EvalM Value}
    (hrec : ∀ e, Settled (rec e))
    (m : Mark) (left right : Expr) :
    evalPairwise rec (.binary m .add left right) =
      (do
        let a ← evalPairwise rec left
        let b ← rec right
        attributed m.id (ofOutcome (a.add b))) := by
  rw [evalPairwise, EvalM.attributed_bind (settled_evalPairwise hrec left)]
  congr 1
  funext a
  rw [EvalM.attributed_bind (hrec right)]

/-- Taking a chain apart and adding its operands in turn is the plain rule, whatever is still to be
added after the chain. -/
theorem addEach_sumChainOnto
    {rec : Expr → EvalM Value}
    (hrec : ∀ e, Settled (rec e))
    (e : Expr) (steps : List (Nat × Expr)) :
    (do
        let v ← rec (sumChainOnto e steps).1
        addEach rec v (sumChainOnto e steps).2) =
      (do
        let v ← evalPairwise rec e
        addEach rec v steps) := by
  induction e, steps using sumChainOnto.induct with
  | case1 m left right steps ih =>
      rw [sumChainOnto, ih, evalPairwise_sum hrec]
      simp only [addEach, bind_assoc]
  | case2 e steps hne =>
      rw [sumChainOnto, evalPairwise]
      · exact hne
      · exact hne

/-- Gathering the operands of a chain is the plain rule. -/
theorem evalSum_eq_evalPairwise
    {rec : Expr → EvalM Value}
    (hrec : ∀ e, Settled (rec e))
    (e : Expr) :
    evalSum rec e = evalPairwise rec e := by
  have hchain := addEach_sumChainOnto hrec e []
  simp only [evalSum, addSteps_eq_addEach, RunningSum.sealed]
  simp only [addEach, bind_pure] at hchain
  exact hchain

/-- A chain of sums of any length comes to what the plain rule gives: the same value, or the same
error attributed to the same node, after the same calls of host functions. -/
theorem evalAt_sum
    (env : Environment) (depth : Nat)
    (m : Mark) (left right : Expr) :
    evalAt env (depth + 1) (.binary m .add left right) =
      evalPairwise (evalAt env depth) (.binary m .add left right) := by
  have hrec := settled_evalAt env depth
  rw [evalAt, evalNode, evalSum_eq_evalPairwise hrec]
  exact EvalM.attributed_of_settled (settled_evalPairwise hrec _) _

end Eval
end ExprLang
