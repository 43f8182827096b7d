import ExprLang.Proofs.PrintedMeaning
import ExprLang.Proofs.SoundLibrary

/-!
# Executions come to well-formed values

Literals are well-formed because they were read from source, and variables and the results of functions
because the host is sound.  Each node keeps values well-formed, so that every evaluation on the way of
an execution comes to a well-formed value.

One thing is left to the host: a comprehension counts the positions in a list, which are in range
because no sequence of the host has as many items as there are signed integers above zero.

* `Evaluation.Sound`: evaluations that start from well-formed values.
* `Evaluation.Sound.step`: one node.
* `Evaluation.Sound.wellFormed`, `Evaluation.Sound.makes`: all evaluations on the way.
* `wellFormed_of_execute`: executions of programs.
-/

namespace ExprLang

open Value (WellFormed HostSized)
open ExprLang.Expr (Everywhere)

/-- Whether the value of a literal is well-formed; other nodes have none. -/
def Expr.LiteralWellFormed : Expr → Prop
  | .literal _ v => v.WellFormed
  | _ => True

theorem Value.wellFormed_of_isSourceLiteral
    {v : Value}
    (literal : Expr.IsSourceLiteral v) :
    v.WellFormed := by
  cases v <;> trivial

namespace Eval

open Plan (GoodScopes Closed)

/-- Whether an evaluation starts from well-formed values: those of the literals of its expression, and
those of the variables of the comprehensions around. -/
structure Evaluation.Sound (ev : Evaluation) : Prop where
  literals : Everywhere Expr.LiteralWellFormed ev.expr
  scopes : GoodScopes WellFormed ev.state

/-- Whether all evaluations on the way of an evaluation come to lists, if they come to lists, that the
host can hold. -/
def Evaluation.Sized (env : Environment) (ev : Evaluation) : Prop :=
  ∀ ev', ev.Makes env ev' → ∀ v, ev'.result env = .ok v → v.HostSized

theorem Evaluation.Sized.of_starts
    {env : Environment} {ev ev' : Evaluation}
    (sized : ev.Sized env)
    (started : ev.Starts env ev') :
    ev'.Sized env :=
  fun ev'' made => sized ev'' (.head started made)

variable {env : Environment} {ev : Evaluation}

section Sound

variable (sound : ∀ scope ∈ env.context, scope.Sound)
include sound

/-- Well-formed values are closed under what the language does with them. -/
theorem closed_wellFormed :
    Closed env WellFormed fun v => v.WellFormed ∧ v.HostSized where
  good_of_given _ given := given.1
  bool _ := trivial
  list _ each := Value.wellFormed_list_iff.mpr each
  map := Value.wellFormed_map_nil
  put entries k v key written given given' isKey := by
    have hk := given.1
    rw [Value.asKey_eq_ok isKey, Value.wellFormed_toValue_iff] at hk
    exact Value.wellFormed_putEntry written hk given'.1
  name _ _ found := wellFormed_lookup sound found
  logicalNot _ _ _ result := Value.wellFormed_logicalNot result
  neg _ _ _ result := Value.wellFormed_neg result
  binary _ _ _ _ given given' result := wellFormed_applyBinary given.1 given'.1 result
  member _ _ _ given result := Value.wellFormed_member given.1 result
  index _ _ _ given _ result := Value.wellFormed_index given.1 result
  steps _ _ _ _ given result _ member := wellFormed_stepsOf given.1 given.2 result member

/-- One node: if the evaluations that it starts come to well-formed values, they start from such values
themselves, and the node comes to one. -/
theorem Evaluation.Sound.step
    (hev : ev.Sound)
    (started : ∀ ev', ev.Starts env ev' → ev'.Sound →
      ∀ v, ev'.result env = .ok v → v.WellFormed ∧ v.HostSized) :
    (∀ ev', ev.Starts env ev' → ev'.Sound) ∧ ∀ v, ev.result env = .ok v → v.WellFormed := by
  obtain ⟨depth, e, s⟩ := ev
  cases depth with
  | zero => exact ⟨nofun, nofun⟩
  | succ depth =>
      have inside : ∀ ev' : Evaluation, ev'.expr.Inside e → GoodScopes WellFormed ev'.state →
          ev'.Sound := fun ev' inside scopes =>
        ⟨hev.literals.inside inside, scopes⟩
      have literal : ∀ m v, e = .literal m v → v.WellFormed := by
        rintro m v rfl
        exact hev.literals.root
      have meets := @Plan.meets_node env ⟨WellFormed, _, fun x => x.Inside e⟩ depth
        (closed_wellFormed sound) e literal fun _ inside => inside
      have runs := meets.run (wellFormed_callFunction sound) hev.scopes fun ev' starts part scopes =>
        started ev' ⟨depth, rfl, starts⟩ (inside ev' part scopes)
      refine ⟨?_, fun v result => ?_⟩
      · rintro ev' ⟨_, ⟨⟩, starts⟩
        exact inside ev' (runs.1 ev' starts).1 (runs.1 ev' starts).2
      · rw [Evaluation.result, evalAt_eq_run] at result
        obtain ⟨t, ran⟩ := EvalM.attributed_eq_ok result
        exact runs.2 v t ran

/-- An evaluation that starts from well-formed values comes to one. -/
theorem Evaluation.Sound.wellFormed
    (hev : ev.Sound)
    (sized : ev.Sized env) :
    ∀ v, ev.result env = .ok v → v.WellFormed := by
  obtain ⟨depth, e, s⟩ := ev
  induction e using Expr.induction_inside generalizing depth s with
  | node e ih =>
      refine (hev.step sound fun ev' starts hev' v result => ⟨?_, ?_⟩).2
      · exact ih ev'.expr starts.inside ev'.depth ev'.state hev' (sized.of_starts starts) v result
      · exact sized ev' (.single starts) v result

/-- The evaluations on the way start from well-formed values. -/
theorem Evaluation.Sound.makes
    {ev' : Evaluation}
    (hev : ev.Sound)
    (sized : ev.Sized env)
    (made : ev.Makes env ev') :
    ev'.Sound ∧ ev'.Sized env := by
  induction made with
  | refl => exact ⟨hev, sized⟩
  | tail _ starts ih =>
      obtain ⟨hev, sized⟩ := ih
      refine ⟨(hev.step sound fun ev' starts hev' v result => ⟨?_, ?_⟩).1 _ starts,
        sized.of_starts starts⟩
      · exact hev'.wellFormed sound (sized.of_starts starts) v result
      · exact sized ev' (.single starts) v result

end Sound

end Eval

/-! ### Programs -/

namespace Program

variable {config : Config} {source : List Char} {p : Program} {context : Context}

/-- An execution starts from well-formed values. -/
theorem sound_evaluation
    (compiled : compile config source = .ok p) :
    p.evaluation.Sound where
  literals := by
    have fromSource := fromSource_of_parse (compile_eq_ok_iff.mp compiled).1
    refine fromSource.mono fun x literal => ?_
    cases x <;> first | trivial | exact Value.wellFormed_of_isSourceLiteral literal
  scopes := nofun

/-- In a context that a sound host has made, every execution that comes to a value comes to a
well-formed one, and so does every evaluation on the way.  The host holds the lists that come up on the
way, so that they have less than two to the 63rd items each. -/
theorem wellFormed_of_execute
    (compiled : compile config source = .ok p)
    (built : ∀ scope ∈ context, scope.Built)
    (sized : p.evaluation.Sized (p.environment context)) :
    (∀ v, (p.execute context).result = .ok v → v.WellFormed) ∧
      ∀ ev, p.evaluation.Makes (p.environment context) ev →
        ∀ v, ev.result (p.environment context) = .ok v → v.WellFormed := by
  have sound : ∀ scope ∈ (p.environment context).context, scope.Sound :=
    fun scope member => (built scope member).sound
  have throughout : ∀ ev, p.evaluation.Makes (p.environment context) ev →
      ∀ v, ev.result (p.environment context) = .ok v → v.WellFormed := by
    intro ev made
    obtain ⟨hev, sized'⟩ := (sound_evaluation compiled).makes sound sized made
    exact hev.wellFormed sound sized'
  exact ⟨fun v ended => throughout _ .refl v (result_of_execute_ok ended), throughout⟩

/-- A variable in front of the standard library. -/
def oneVariable : Context :=
  [⟨[("x", .int 1)], []⟩, .standard .epoch]

theorem built_oneVariable :
    ∀ scope ∈ oneVariable, scope.Built := by
  have added : Scope.empty.addVariable "x" (.int 1) = .ok ⟨[("x", .int 1)], []⟩ := rfl
  have sound : (HostObject.int 1).Sound := trivial
  have first : Scope.Built ⟨[("x", .int 1)], []⟩ := .addVariable .empty sound added
  exact List.forall_mem_cons.mpr ⟨first, List.forall_mem_singleton.mpr (built_standard _)⟩

/-- The list of a variable: the evaluations on the way are those of the list and of the variable. -/
theorem sized_list
    (text : List Char) (m m' : Mark) (config : Config) :
    let p : Program := ⟨text, .list m [.ident m' "x"], config⟩
    p.evaluation.Sized (p.environment oneVariable) := by
  intro p ev made v result
  have root : p.evaluation.result (p.environment oneVariable) = .ok (.list [.int 1]) := rfl
  rcases Relation.ReflTransGen.cases_head made with rfl | ⟨item, ⟨depth, same, started⟩, made⟩
  · cases root.symm.trans result
    show (1 : Int) ≤ maxInt
    decide
  cases same
  rcases started with rfl | ⟨_, _, _, ⟨⟩⟩
  rcases Relation.ReflTransGen.cases_head made with rfl | ⟨_, ⟨_, ⟨⟩, ⟨⟩⟩, _⟩
  cases result
  trivial

/-- Whether a program is the list of the variable. -/
def isListOfX : Program → Bool
  | ⟨_, .list _ [.ident _ "x"], _⟩ => true
  | _ => false

theorem wellFormed_of_execute_list :
    ∃ p, compile .standard "[x]".toList = .ok p ∧ (∀ scope ∈ oneVariable, scope.Built) ∧
      p.evaluation.Sized (p.environment oneVariable) ∧
      (∀ v, (p.execute oneVariable).result = .ok v → v.WellFormed) ∧
      ∀ ev, p.evaluation.Makes (p.environment oneVariable) ev →
        ∀ v, ev.result (p.environment oneVariable) = .ok v → v.WellFormed := by
  have isList : compilesTo .standard "[x]".toList isListOfX = true := by decide +kernel
  obtain ⟨p, compiled, isList⟩ := exists_of_compilesTo isList
  unfold isListOfX at isList
  split at isList
  next text m m' config =>
    have sized := sized_list text m m' config
    exact ⟨_, compiled, built_oneVariable, sized,
      wellFormed_of_execute compiled built_oneVariable sized⟩
  · cases isList

end Program
end ExprLang
