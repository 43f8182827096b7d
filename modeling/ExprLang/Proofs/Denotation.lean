import Mathlib.Data.List.Forall2
import ExprLang.Proofs.Marks
import ExprLang.Proofs.StandardCalls

/-!
# Expressions that denote a value

An expression denotes a value to a depth if its evaluation to that depth ends with the value,
however its nodes are marked and whatever state it starts in.  Literals, references to functions,
calls of the functions that read text, lists and maps denote what they say.

* `Denotes`: the predicate.
* `denotes_list`, `denotes_map`: parts that denote values make up a list or a map.
-/

namespace ExprLang
namespace Eval

open ExprLang.Expr (blank erase)

/-- Whether an expression without marks evaluates to a value. -/
def Denotes (env : Environment) (depth : Nat) (t : Expr) (v : Value) : Prop :=
  ∀ e s, e.erase = t → (evalAt env depth e s).1 = .ok v

section Denotes

variable {env : Environment} {depth : Nat}

/-- Attributing errors changes nothing where there is none. -/
theorem attributed_ok
    {α : Type} {m : EvalM α} {a : α} {s : EvalState}
    (h : (m s).1 = .ok a)
    (node : Nat) :
    (EvalM.attributed node m s).1 = .ok a := by
  unfold EvalM.attributed
  cases hm : m s with
  | mk result s' =>
      rw [hm] at h
      dsimp only at h
      subst h
      rfl

/-- A value and what is made of it. -/
theorem bind_ok
    {α β : Type} {m : EvalM α} {f : α → EvalM β} {a : α} {b : β} {s : EvalState}
    (first : (m s).1 = .ok a)
    (second : ∀ s, (f a s).1 = .ok b) :
    ((m >>= f) s).1 = .ok b := by
  rw [EvalM.bind_apply]
  cases hm : m s with
  | mk result s' =>
      rw [hm] at first
      dsimp only at first
      subst first
      exact second s'

/-- What a node evaluates to, it denotes one level further out. -/
theorem denotes_of_evalNode
    {t : Expr} {v : Value}
    (node : ∀ e s, e.erase = t → (evalNode env depth (evalAt env depth) e s).1 = .ok v) :
    Denotes env (depth + 1) t v :=
  fun e s same => attributed_ok (node e s same) e.id

theorem denotes_literal
    (v : Value) :
    Denotes env (depth + 1) (.literal blank v) v := by
  refine denotes_of_evalNode fun e s same => ?_
  cases e <;> simp at same
  subst same
  rfl

/-- A float after a minus sign. -/
theorem denotes_negated
    (f : Float) :
    Denotes env (depth + 2) (.unary blank .neg (.literal blank (.float f))) (.float (-f)) := by
  refine denotes_of_evalNode fun e s same => ?_
  cases e <;> simp at same
  obtain ⟨rfl, same⟩ := same
  exact bind_ok (denotes_literal (.float f) _ s same) fun _ => rfl

/-- Expressions one after the other. -/
theorem evalItems_ok
    {ts : List Expr} {vs : List Value}
    (parts : List.Forall₂ (Denotes env depth) ts vs)
    (es : List Expr)
    (same : es.map erase = ts)
    (s : EvalState) :
    (evalItems (evalAt env depth) es s).1 = .ok vs := by
  induction parts generalizing es s with
  | nil =>
      rw [List.map_eq_nil_iff] at same
      subst same
      rfl
  | cons first others ih =>
      obtain ⟨e, rest, rfl, hFirst, hRest⟩ := List.map_eq_cons_iff.mp same
      refine bind_ok (first e s hFirst) fun s => ?_
      exact bind_ok (ih rest hRest s) fun _ => rfl

theorem denotes_list
    {ts : List Expr} {vs : List Value}
    (parts : List.Forall₂ (Denotes env depth) ts vs) :
    Denotes env (depth + 1) (.list blank ts) (.list vs) := by
  refine denotes_of_evalNode fun e s same => ?_
  cases e <;> simp at same
  exact bind_ok (evalItems_ok parts _ same s) fun _ => rfl

/-- Writing an entry under a key that is not there adds it at the end. -/
theorem putEntry_new
    {entries : List (Key × Value)} {k : Key}
    (new : ∀ e ∈ entries, Key.same e.1 k = false)
    (v : Value) :
    Value.putEntry entries k v = entries ++ [(k, v)] :=
  Assoc.put_new new v

/-- Entries whose keys are distinct are written one behind the other. -/
theorem evalEntries_ok
    {ts : List (Expr × Expr)} {entries : List (Key × Value)}
    (parts : List.Forall₂ (fun t e => Denotes env depth t.1 e.1.toValue ∧
      Denotes env depth t.2 e.2) ts entries)
    (distinct : Assoc.Distinct Key.same entries)
    (kvs : List (Expr × Expr))
    (same : kvs.map (fun (k, v) => (k.erase, v.erase)) = ts)
    (written : List (Key × Value))
    (new : ∀ e ∈ entries, ∀ w ∈ written, Key.same w.1 e.1 = false)
    (s : EvalState) :
    (evalEntries (evalAt env depth) written kvs s).1 = .ok (written ++ entries) := by
  induction parts generalizing kvs written s with
  | nil =>
      rw [List.map_eq_nil_iff] at same
      subst same
      rw [List.append_nil]
      rfl
  | @cons t e ts entries first others ih =>
      obtain ⟨kv, rest, rfl, rfl, hRest⟩ := List.map_eq_cons_iff.mp same
      obtain ⟨key, value⟩ := first
      obtain ⟨apart, distinct⟩ := distinct
      have asKey : e.1.toValue.asKey = .ok e.1 := by
        rw [Value.asKey, Value.toKey?_toValue]
      have put := putEntry_new (fun w member => new e (by simp) w member) e.2
      have later : ∀ s, (evalEntries (evalAt env depth) (written ++ [e]) rest s).1 =
          .ok (written ++ [e] ++ entries) := by
        refine ih distinct rest hRest (written ++ [e]) fun x member w inside => ?_
        rcases List.mem_append.mp inside with inside | inside
        · exact new x (by simp [member]) w inside
        · rw [List.mem_singleton.mp inside]
          exact apart x member
      rw [List.append_assoc, List.singleton_append] at later
      refine bind_ok (key kv.1 s rfl) fun s => ?_
      refine bind_ok (value kv.2 s rfl) fun s => ?_
      rw [asKey, EvalM.ofOutcome_ok, pure_bind, put]
      exact later s

theorem denotes_map
    {ts : List (Expr × Expr)} {entries : List (Key × Value)}
    (parts : List.Forall₂ (fun t e => Denotes env depth t.1 e.1.toValue ∧
      Denotes env depth t.2 e.2) ts entries)
    (distinct : Assoc.Distinct Key.same entries) :
    Denotes env (depth + 1) (.map blank ts) (.map entries) := by
  refine denotes_of_evalNode fun e s same => ?_
  cases e <;> simp at same
  refine bind_ok (evalEntries_ok parts distinct _ same [] (by simp) s) fun _ => rfl

end Denotes

/-! ### Names and calls of the standard library -/

section Standard

variable {now : Time.Timestamp} {debug : Bool} {depth : Nat}

/-- The name of a standard function refers to it. -/
theorem denotes_name
    {name : String}
    (member : name ∈ Stdlib.names) :
    Denotes ⟨[Scope.standard now], debug⟩ (depth + 1) (.ident blank name) (.function name) := by
  have found : Context.hasFunction [Scope.standard now] name = true :=
    hasFunction_standard member
  refine denotes_of_evalNode fun e s same => ?_
  cases e <;> simp at same
  subst same
  simp [evalNode, lookup, valueOf?_standard, found]

/-- A call of a standard function with a string. -/
theorem denotes_call
    {name text : String} {v : Value}
    (member : name ∈ Stdlib.names)
    (called : ∀ site s, (callFunction ⟨[Scope.standard now], debug⟩ (depth + 1) site name
      [.string text] s).1 = .ok v) :
    Denotes ⟨[Scope.standard now], debug⟩ (depth + 2)
      (.call blank name none [.literal blank (.string text)]) v := by
  have found : Context.hasFunction [Scope.standard now] name = true :=
    hasFunction_standard member
  have literal : Denotes ⟨[Scope.standard now], debug⟩ (depth + 1)
      (.literal blank (.string text)) (.string text) :=
    denotes_literal _
  refine denotes_of_evalNode fun e s same => ?_
  cases e <;> simp at same
  obtain ⟨rfl, rfl, a, rfl, same⟩ := same
  have argument := evalItems_ok (.cons literal .nil) [a] (by simp [same])
  simp only [evalNode, evalCall, found, Bool.not_true, Bool.false_eq_true, if_false]
  exact bind_ok (argument s) fun s => called _ s

end Standard

end Eval
end ExprLang
