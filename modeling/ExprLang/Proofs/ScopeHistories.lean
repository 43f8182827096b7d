import ExprLang.Context

/-!
# Calls on nested scopes

Variables are bound, functions registered and scopes nested by calls that come in any order, each on
one of the scopes that are there.  A call is taken step by step here, and what it has written stays
written if it fails afterwards; every check comes before the first write, so that it leaves the tree as
the operations on trees do, which give a new tree or none.

* `ScopeTree.Call.run_bind`, `run_register_described`: calls do what the operations on trees do.
* `ScopeTree.Call.run_of_error`: a call that fails changes nothing.
* `ScopeTree.Call.valueOf?_run`, `overloads?_run`: what a call makes of the bindings.
* `ScopeTree.Reaches.valueOf?`, `Reaches.overloads?`: the bindings after any calls.
* `ScopeTree.context_of_chain`: the context of a scope, from the numbers of the scopes around it.
-/

namespace ExprLang

/-! ### Steps of a call -/

/-- What a scope is given to register: the signature and the body of a function, or a function that is
registered already. -/
inductive Implementation where
  | described (signature : Signature) (body : CallInfo → List HostObject → HostProgram)
  | registered (f : HostFunction)

/-- The function that is registered under a name. -/
def Implementation.function (name : String) :
    Implementation → Except RegistrationError HostFunction
  | described signature body => HostFunction.register name signature body
  | registered f => .ok f

/-- The function that is registered under a name, if it can be registered and the name can be bound. -/
def Implementation.admitted (name : String) (i : Implementation) :
    Except FunctionFault HostFunction := do
  (checkName name).mapError .name
  (i.function name).mapError .registration

/-- The value that an object gives to a name that can be bound. -/
def bindable? (name : String) (object : HostObject) : Option Value :=
  if (checkName name).isOk then object.toValue.toOption else none

namespace ScopeTree

/-- A call on one of the scopes of a tree. -/
inductive Call where
  | bind (n : Nat) (name : String) (object : HostObject)
  | register (n : Nat) (name : String) (implementation : Implementation)
  | nest (n : Nat)

/-- Steps on a tree that may fail.  What is written before that stays written. -/
abbrev Steps (α : Type) := ExceptT FunctionFault (StateM ScopeTree) α

/-- Changes a scope. -/
def write (n : Nat) (change : Scope → Scope) : Steps Unit :=
  modify fun t => t.setScope n (change (t.scope n))

/-- Binds a variable step by step. -/
def bindVariable (n : Nat) (name : String) (object : HostObject) : Steps Unit := do
  ofExcept ((checkName name).mapError FunctionFault.name)
  if (((← get).scope n).valueOf? name).isSome then
    throw (.name ⟨name, .alreadyDefined⟩)
  match object.toValue with
  | .ok v => write n fun s => { s with bindings := s.bindings ++ [(name, v)] }
  | .error e => throw (.name ⟨name, .unconvertible e⟩)

/-- Registers a function step by step.  A name that has no functions yet gets an empty list of them
first. -/
def registerFunction (n : Nat) (name : String) (i : Implementation) : Steps Unit := do
  ofExcept ((checkName name).mapError FunctionFault.name)
  let f ← ofExcept ((i.function name).mapError FunctionFault.registration)
  if (((← get).scope n).overloads? name).isNone then
    write n fun s => { s with functions := s.functions ++ [(name, [])] }
  write n fun s => s.putFunction name f

/-- Functions behind those of a name, if it has any. -/
def appended (old : Option (List HostFunction)) :
    List HostFunction → Option (List HostFunction)
  | [] => old
  | added => some (old.getD [] ++ added)

theorem appended_appended
    (old : Option (List HostFunction)) (fs gs : List HostFunction) :
    appended (appended old fs) gs = appended old (fs ++ gs) := by
  cases fs <;> cases gs <;> simp [appended]

namespace Call

/-- The scope that a call is on. -/
def target : Call → Nat
  | bind n _ _ => n
  | register n _ _ => n
  | nest n => n

/-- The steps of a call. -/
def steps : Call → Steps Unit
  | bind n name object => bindVariable n name object
  | register n name i => registerFunction n name i
  | nest n => modify fun t => (t.newChild n).2

/-- How a call ends, and the tree that it leaves. -/
def run (call : Call) (t : ScopeTree) : Except FunctionFault Unit × ScopeTree :=
  call.steps t

/-- The value that a call gives to a name in a scope, unless it has one there. -/
def binds? (m : Nat) (name : String) : Call → Option Value
  | bind n bound object => if n = m ∧ bound = name then bindable? name object else none
  | _ => none

/-- The function that a call registers under a name in a scope. -/
def registers? (m : Nat) (name : String) : Call → Option HostFunction
  | register n bound i => if n = m ∧ bound = name then (i.admitted name).toOption else none
  | _ => none

end Call

/-! ### Scopes of a tree -/

variable {t u : ScopeTree} {n m : Nat}

@[simp] theorem length_setScope
    (t : ScopeTree) (n : Nat) (s : Scope) :
    (t.setScope n s).nodes.length = t.nodes.length :=
  List.length_modify ..

@[simp] theorem parent?_setScope
    (t : ScopeTree) (n m : Nat) (s : Scope) :
    (t.setScope n s).parent? m = t.parent? m := by
  simp only [parent?, setScope, List.getElem?_modify]
  cases t.nodes[m]? with
  | none => rfl
  | some node => by_cases same : n = m <;> simp [same]

theorem scope_setScope
    (there : n < t.nodes.length)
    (s : Scope) :
    (t.setScope n s).scope m = if n = m then s else t.scope m := by
  simp only [scope, setScope, List.getElem?_modify]
  by_cases same : n = m
  · subst same
    simp [List.getElem?_eq_getElem there]
  · simp [same]

theorem setScope_of_length_le
    (beyond : t.nodes.length ≤ n)
    (s : Scope) :
    t.setScope n s = t := by
  rw [setScope, List.modify_eq_self beyond]

@[simp] theorem setScope_scope
    (t : ScopeTree) (n : Nat) :
    t.setScope n (t.scope n) = t := by
  refine congrArg mk (List.ext_getElem? fun m => ?_)
  rw [List.getElem?_modify]
  cases found : t.nodes[m]? with
  | none => rfl
  | some node =>
      by_cases same : n = m
      · subst same
        simp [scope, found]
      · simp [same]

theorem scope_setScope_of_ne
    (other : n ≠ m)
    (s : Scope) :
    (t.setScope n s).scope m = t.scope m := by
  simp [scope, setScope, other]

/-- Of two changes of a scope the second is one of what the first has made. -/
theorem setScope_setScope
    (t : ScopeTree) (n : Nat) (s : Scope) (change : Scope → Scope) :
    (t.setScope n s).setScope n (change ((t.setScope n s).scope n)) = t.setScope n (change s) := by
  rcases Nat.lt_or_ge n t.nodes.length with there | beyond
  · rw [scope_setScope there, if_pos rfl, setScope, setScope, setScope, List.modify_modify_eq]
    rfl
  · rw [setScope_of_length_le beyond, setScope_of_length_le beyond, setScope_of_length_le beyond]

@[simp] theorem length_newChild
    (t : ScopeTree) (n : Nat) :
    (t.newChild n).2.nodes.length = t.nodes.length + 1 := by
  simp [newChild]

theorem parent?_newChild
    (there : m < t.nodes.length) :
    (t.newChild n).2.parent? m = t.parent? m := by
  simp [parent?, newChild, List.getElem?_append_left there]

@[simp] theorem parent?_newChild_self
    (t : ScopeTree) (n : Nat) :
    (t.newChild n).2.parent? t.nodes.length = some n := by
  simp [parent?, newChild]

@[simp] theorem scope_newChild
    (t : ScopeTree) (n m : Nat) :
    (t.newChild n).2.scope m = t.scope m := by
  simp only [scope, newChild]
  rcases Nat.lt_trichotomy m t.nodes.length with old | new | beyond
  · rw [List.getElem?_append_left old]
  · subst new
    simp
  · rw [List.getElem?_eq_none (by simp; omega), List.getElem?_eq_none (by omega)]

end ScopeTree

/-! ### Operations on scopes -/

/-- Writing under a key that is the last replaces its value. -/
theorem Assoc.put_last
    {κ α : Type}
    {same : κ → κ → Bool}
    {key : κ} {entries : List (κ × α)}
    (new : ∀ e ∈ entries, same e.1 key = false)
    (isSame : same key key = true)
    (old value : α) :
    put same key value (entries ++ [(key, old)]) = entries ++ [(key, value)] := by
  induction entries with
  | nil => simp [put, isSame]
  | cons e entries ih =>
      rw [List.cons_append, put, new e List.mem_cons_self,
        ih fun e member => new e (List.mem_cons_of_mem _ member)]
      rfl

namespace Scope

variable {s : Scope} {name : String}

/-- A variable is bound if its name can be bound to the object and is not bound yet; otherwise the
operation fails. -/
theorem addVariable_cases
    (s : Scope) (name : String) (object : HostObject) :
    (∃ v, bindable? name object = some v ∧ s.valueOf? name = none ∧
        s.addVariable name object = .ok { s with bindings := s.bindings ++ [(name, v)] }) ∨
      ∃ e, s.addVariable name object = .error e ∧
        ((s.valueOf? name).isSome ∨ bindable? name object = none) := by
  unfold addVariable bindable?
  cases checkName name with
  | error e => exact .inr ⟨e, rfl, .inr rfl⟩
  | ok _ =>
      cases bound : s.valueOf? name with
      | some v => exact .inr ⟨_, rfl, .inl rfl⟩
      | none =>
          cases object.toValue with
          | ok v => exact .inl ⟨v, rfl, rfl, rfl⟩
          | error e => exact .inr ⟨_, rfl, .inr rfl⟩

theorem addFunction_eq
    (s : Scope) (name : String) (signature : Signature)
    (body : CallInfo → List HostObject → HostProgram) :
    s.addFunction name signature body =
      ((Implementation.described signature body).admitted name).map (s.putFunction name) := by
  unfold addFunction Implementation.admitted
  cases checkName name with
  | error e => rfl
  | ok _ =>
      show _ = Except.map _ (Except.mapError _ (HostFunction.register name signature body))
      cases HostFunction.register name signature body <;> rfl

/-- A function can be registered in two steps where its name has no functions yet. -/
theorem putFunction_new
    (new : s.overloads? name = none)
    (f : HostFunction) :
    putFunction { s with functions := s.functions ++ [(name, [])] } name f = s.putFunction name f := by
  have others : ∀ e ∈ s.functions, (e.1 == name) = false := fun e member =>
    beq_eq_false_iff_ne.mpr (bne_iff_ne.mp (List.lookup_eq_none_iff.mp new e member)).symm
  have emptied : overloads? { s with functions := s.functions ++ [(name, [])] } name = some [] := by
    rw [overloads?, List.lookup_append, show s.functions.lookup name = none from new]
    simp
  rw [putFunction, putFunction, emptied, new, Assoc.put_new others, Assoc.put_last others (by simp)]
  rfl

theorem valueOf?_bind
    (s : Scope) (name other : String) (v : Value) :
    valueOf? { s with bindings := s.bindings ++ [(name, v)] } other =
      (s.valueOf? other).or (if name = other then some v else none) := by
  rw [valueOf?, List.lookup_append]
  by_cases same : name = other
  · simp [same, valueOf?]
  · simp [same, valueOf?, List.lookup_cons, beq_eq_false_iff_ne.mpr (Ne.symm same)]

theorem overloads?_putFunction
    (s : Scope) (name other : String) (f : HostFunction) :
    (s.putFunction name f).overloads? other =
      if name = other then some ((s.overloads? other).getD [] ++ [f]) else s.overloads? other := by
  by_cases same : name = other
  · subst same
    rw [if_pos rfl]
    exact Assoc.lookup_put_self _
  · rw [if_neg same]
    exact Assoc.lookup_put_other (Ne.symm same) _

end Scope

/-! ### What a call does -/

namespace ScopeTree

/-- How a call ends whose operation gives a new tree or fails. -/
def settled (t : ScopeTree) :
    Except FunctionFault ScopeTree → Except FunctionFault Unit × ScopeTree
  | .ok u => (.ok (), u)
  | .error fault => (.error fault, t)

theorem settled_of_error
    {t : ScopeTree} {ended : Except FunctionFault ScopeTree} {fault : FunctionFault}
    (failed : (t.settled ended).1 = .error fault) :
    (t.settled ended).2 = t := by
  cases ended with
  | ok u => cases failed
  | error e => rfl

namespace Steps

variable {α β : Type}

theorem bind_apply
    (m : Steps α) (f : α → Steps β) (t : ScopeTree) :
    (m >>= f) t =
      match m t with
      | (.ok a, u) => f a u
      | (.error fault, u) => (.error fault, u) := by
  show (match m t with | (a, u) => ExceptT.bindCont f a u) = _
  rcases m t with ⟨_ | _, _⟩ <;> rfl

@[simp] theorem ofExcept_ok_apply
    {ε : Type}
    (wrap : ε → FunctionFault) (a : α) (t : ScopeTree) :
    (ofExcept ((Except.ok a).mapError wrap) : Steps α) t = (.ok a, t) := rfl

@[simp] theorem get_apply
    (t : ScopeTree) :
    (get : Steps ScopeTree) t = (.ok t, t) := rfl

@[simp] theorem write_apply
    (n : Nat) (change : Scope → Scope) (t : ScopeTree) :
    write n change t = (.ok (), t.setScope n (change (t.scope n))) := rfl

end Steps

namespace Call

variable {t : ScopeTree} {call : Call} {m : Nat}

open Steps (bind_apply ofExcept_ok_apply get_apply write_apply)

/-- Binding a variable step by step gives the tree that the operation gives, or leaves the tree as it
is. -/
theorem run_bind
    (t : ScopeTree) (n : Nat) (name : String) (object : HostObject) :
    (bind n name object).run t = t.settled ((t.addVariable n name object).mapError .name) := by
  show bindVariable n name object t = _
  unfold bindVariable ScopeTree.addVariable Scope.addVariable
  rw [bind_apply]
  cases checkName name with
  | error e => rfl
  | ok _ =>
      cases bound : (t.scope n).valueOf? name with
      | some v =>
          simp only [bind_apply, ofExcept_ok_apply, get_apply, bound]
          rfl
      | none =>
          simp only [bind_apply, ofExcept_ok_apply, get_apply, bound]
          cases object.toValue <;> rfl

/-- Registering a function step by step adds the function in one go, or leaves the tree as it is. -/
theorem run_register
    (t : ScopeTree) (n : Nat) (name : String) (i : Implementation) :
    (register n name i).run t =
      t.settled ((i.admitted name).map fun f => t.setScope n ((t.scope n).putFunction name f)) := by
  show registerFunction n name i t = _
  unfold registerFunction Implementation.admitted
  rw [bind_apply]
  cases checkName name with
  | error e => rfl
  | ok _ =>
      cases i.function name with
      | error e => rfl
      | ok f =>
          cases registered : (t.scope n).overloads? name with
          | some fs =>
              simp only [bind_apply, ofExcept_ok_apply, get_apply, registered]
              rfl
          | none =>
              simp only [bind_apply, ofExcept_ok_apply, get_apply, write_apply, registered,
                Option.isNone_none, if_true, setScope_setScope _ _ _ (Scope.putFunction · name f),
                Scope.putFunction_new registered]
              rfl

/-- A call that registers a described function does what the operation does. -/
theorem run_register_described
    (t : ScopeTree) (n : Nat) (name : String) (signature : Signature)
    (body : CallInfo → List HostObject → HostProgram) :
    (register n name (.described signature body)).run t =
      t.settled (t.addFunction n name signature body) := by
  rw [run_register, addFunction, Scope.addFunction_eq]
  cases (Implementation.described signature body).admitted name <;> rfl

theorem run_of_error
    {fault : FunctionFault}
    (failed : (call.run t).1 = .error fault) :
    (call.run t).2 = t := by
  cases call with
  | bind n name object =>
      rw [run_bind] at failed ⊢
      exact settled_of_error failed
  | register n name i =>
      rw [run_register] at failed ⊢
      exact settled_of_error failed
  | nest n => cases failed

theorem binds?_of_ne
    (other : call.target ≠ m)
    (name : String) :
    call.binds? m name = none := by
  cases call with
  | bind n bound object => exact if_neg fun same => other same.1
  | _ => rfl

theorem registers?_of_ne
    (other : call.target ≠ m)
    (name : String) :
    call.registers? m name = none := by
  cases call with
  | register n bound i => exact if_neg fun same => other same.1
  | _ => rfl

/-- A call that does not nest a scope changes the scope that it is on, if any: it binds what is not
bound there, and registers a function behind the others. -/
theorem run_cases
    (call : Call) (t : ScopeTree) :
    (∃ n, call = nest n) ∨
      ∃ s, (call.run t).2 = t.setScope call.target s ∧
        (∀ name, s.valueOf? name =
          ((t.scope call.target).valueOf? name).or (call.binds? call.target name)) ∧
        ∀ name, s.overloads? name =
          appended ((t.scope call.target).overloads? name)
            (call.registers? call.target name).toList := by
  cases call with
  | nest n => exact .inl ⟨n, rfl⟩
  | bind n bound object =>
      right
      rw [run_bind, ScopeTree.addVariable]
      rcases Scope.addVariable_cases (t.scope n) bound object with
        ⟨v, given, -, added⟩ | ⟨e, failed, why⟩
      · rw [added]
        refine ⟨_, rfl, fun name => ?_, fun name => rfl⟩
        rw [Scope.valueOf?_bind]
        by_cases same : bound = name
        · subst same
          simp [binds?, target, given]
        · simp [binds?, target, same]
      · rw [failed]
        refine ⟨t.scope n, (setScope_scope t n).symm, fun name => ?_, fun name => rfl⟩
        by_cases same : bound = name
        · subst same
          rcases why with isBound | never
          · exact (Option.or_of_isSome isBound).symm
          · simp [binds?, target, never]
        · simp [binds?, target, same]
  | register n bound i =>
      right
      rw [run_register]
      cases admitted : i.admitted bound with
      | ok f =>
          refine ⟨_, rfl, fun name => Option.or_none.symm, fun name => ?_⟩
          rw [Scope.overloads?_putFunction]
          by_cases same : bound = name
          · subst same
            simp [registers?, target, admitted, Except.toOption, appended]
          · simp [registers?, target, same, appended]
      | error fault =>
          refine ⟨t.scope n, (setScope_scope t n).symm, fun name => Option.or_none.symm, fun name => ?_⟩
          by_cases same : bound = name
          · subst same
            simp [registers?, target, admitted, Except.toOption, appended]
          · simp [registers?, target, same, appended]

theorem valueOf?_run
    (there : call.target < t.nodes.length)
    (m : Nat) (name : String) :
    ((call.run t).2.scope m).valueOf? name =
      ((t.scope m).valueOf? name).or (call.binds? m name) := by
  rcases run_cases call t with ⟨n, rfl⟩ | ⟨s, changed, values, -⟩
  · show ((t.newChild n).2.scope m).valueOf? name = _
    rw [scope_newChild]
    exact Option.or_none.symm
  · rw [changed]
    by_cases same : call.target = m
    · subst same
      rw [scope_setScope there, if_pos rfl, values]
    · rw [scope_setScope there, if_neg same, binds?_of_ne same, Option.or_none]

theorem overloads?_run
    (there : call.target < t.nodes.length)
    (m : Nat) (name : String) :
    ((call.run t).2.scope m).overloads? name =
      appended ((t.scope m).overloads? name) (call.registers? m name).toList := by
  rcases run_cases call t with ⟨n, rfl⟩ | ⟨s, changed, -, functions⟩
  · show ((t.newChild n).2.scope m).overloads? name = _
    rw [scope_newChild]
    rfl
  · rw [changed]
    by_cases same : call.target = m
    · subst same
      rw [scope_setScope there, if_pos rfl, functions]
    · rw [scope_setScope there, if_neg same, registers?_of_ne same]
      rfl

theorem length_run
    (call : Call) (t : ScopeTree) :
    t.nodes.length ≤ (call.run t).2.nodes.length := by
  rcases run_cases call t with ⟨n, rfl⟩ | ⟨s, changed, -⟩
  · show _ ≤ (t.newChild n).2.nodes.length
    simp
  · simp [changed]

theorem parent?_run
    (call : Call)
    (old : m < t.nodes.length) :
    (call.run t).2.parent? m = t.parent? m := by
  rcases run_cases call t with ⟨n, rfl⟩ | ⟨s, changed, -⟩
  · exact parent?_newChild old
  · simp [changed]

/-- A call changes no scope but the one that it is on. -/
theorem scope_run_of_ne
    (other : call.target ≠ m) :
    (call.run t).2.scope m = t.scope m := by
  rcases run_cases call t with ⟨n, rfl⟩ | ⟨s, changed, -⟩
  · exact scope_newChild t n m
  · rw [changed, scope_setScope_of_ne other]

end Call

/-! ### Contexts of a tree -/

variable {t : ScopeTree} {n : Nat}

/-- Whether every scope comes after the one around it. -/
def Ordered (t : ScopeTree) : Prop :=
  ∀ n outer, t.parent? n = some outer → outer < n

/-- The numbers of a scope and of the scopes around it, the innermost first. -/
inductive Chain (t : ScopeTree) : Nat → List Nat → Prop
  | root
      {n : Nat}
      (there : n < t.nodes.length)
      (outermost : t.parent? n = none) :
      Chain t n [n]
  | inner
      {n outer : Nat} {ns : List Nat}
      (around : t.parent? n = some outer)
      (rest : Chain t outer ns) :
      Chain t n (n :: ns)

theorem lt_of_parent?
    {outer : Nat}
    (around : t.parent? n = some outer) :
    n < t.nodes.length := by
  unfold parent? at around
  cases found : t.nodes[n]? with
  | none => simp [found] at around
  | some node => exact (List.getElem?_eq_some_iff.mp found).1

theorem exists_chain
    (ordered : t.Ordered)
    (there : n < t.nodes.length) :
    ∃ ns, t.Chain n ns := by
  induction n using Nat.strongRecOn with
  | ind n ih =>
      cases around : t.parent? n with
      | none => exact ⟨_, .root there around⟩
      | some outer =>
          have before := ordered n outer around
          obtain ⟨ns, chain⟩ := ih outer before (Nat.lt_trans before there)
          exact ⟨_, .inner around chain⟩

theorem chainFrom_succ
    (there : n < t.nodes.length)
    (fuel : Nat) :
    t.chainFrom (fuel + 1) n =
      t.scope n :: (match t.parent? n with
        | none => []
        | some outer => t.chainFrom fuel outer) := by
  cases around : t.nodes[n].parent <;>
    simp [chainFrom, scope, parent?, List.getElem?_eq_getElem there, around]

/-- The context of a scope is the chain of the scopes around it. -/
theorem context_of_chain
    {ns : List Nat}
    (ordered : t.Ordered)
    (chain : t.Chain n ns) :
    t.context n = ns.map t.scope := by
  suffices enough : ∀ fuel, n < fuel → t.chainFrom fuel n = ns.map t.scope from
    enough (n + 1) n.lt_succ_self
  induction chain with
  | @root n there outermost =>
      intro fuel more
      obtain ⟨fuel, rfl⟩ := Nat.exists_eq_succ_of_ne_zero (Nat.ne_zero_of_lt more)
      rw [Nat.succ_eq_add_one, chainFrom_succ there, outermost]
      rfl
  | @inner n outer ns around rest ih =>
      intro fuel more
      obtain ⟨fuel, rfl⟩ := Nat.exists_eq_succ_of_ne_zero (Nat.ne_zero_of_lt more)
      have before := ordered n outer around
      rw [Nat.succ_eq_add_one, chainFrom_succ (lt_of_parent? around), around, List.map_cons]
      exact congrArg _ (ih fuel (Nat.lt_of_lt_of_le before (Nat.le_of_lt_succ more)))

theorem Chain.lt_length
    {ns : List Nat}
    (chain : t.Chain n ns) :
    n < t.nodes.length := by
  cases chain with
  | root there _ => exact there
  | inner around _ => exact lt_of_parent? around

/-- No scope around a scope comes after it. -/
theorem Chain.le
    {ns : List Nat}
    (ordered : t.Ordered)
    (chain : t.Chain n ns) :
    ∀ m ∈ ns, m ≤ n := by
  induction chain with
  | root => exact fun m member => Nat.le_of_eq (List.mem_singleton.mp member)
  | inner around rest ih =>
      intro m member
      rcases List.mem_cons.mp member with same | outside
      · exact Nat.le_of_eq same
      · exact Nat.le_trans (ih m outside) (Nat.le_of_lt (ordered _ _ around))

/-! ### Any calls -/

/-- Whether calls, one after another and each on a scope that is there, lead from one tree to
another. -/
inductive Reaches (t : ScopeTree) : List Call → ScopeTree → Prop
  | start : Reaches t [] t
  | call
      {calls : List Call} {u : ScopeTree}
      (reached : Reaches t calls u)
      (call : Call)
      (there : call.target < u.nodes.length) :
      Reaches t (calls ++ [call]) (call.run u).2

namespace Call

variable {call : Call}

theorem ordered_run
    (ordered : t.Ordered)
    (there : call.target < t.nodes.length) :
    (call.run t).2.Ordered := by
  rcases run_cases call t with ⟨n, rfl⟩ | ⟨s, changed, -⟩
  · intro m outer around
    rcases Nat.lt_or_ge m t.nodes.length with old | new
    · exact ordered m outer ((parent?_newChild old).symm.trans around)
    · have isNew : m = t.nodes.length := by
        have last : m < (t.newChild n).2.nodes.length := lt_of_parent? around
        rw [length_newChild] at last
        omega
      subst isNew
      cases (parent?_newChild_self t n).symm.trans around
      exact there
  · rw [changed]
    intro m outer around
    exact ordered m outer ((parent?_setScope t _ m s).symm.trans around)

theorem chain_run
    {ns : List Nat}
    (call : Call)
    (chain : t.Chain n ns) :
    (call.run t).2.Chain n ns := by
  induction chain with
  | root there outermost =>
      have still := Nat.lt_of_lt_of_le there (length_run call t)
      exact .root still ((parent?_run call there).trans outermost)
  | inner around rest ih =>
      exact .inner ((parent?_run call (lt_of_parent? around)).trans around) ih

/-- A call is not seen from where the scope that it is on is not around. -/
theorem context_run_of_notMem
    {ns : List Nat}
    (ordered : t.Ordered)
    (there : call.target < t.nodes.length)
    (chain : t.Chain n ns)
    (apart : call.target ∉ ns) :
    (call.run t).2.context n = t.context n := by
  rw [context_of_chain ordered chain, context_of_chain (ordered_run ordered there)
    (chain_run call chain)]
  refine List.map_congr_left fun m member => scope_run_of_ne ?_
  rintro rfl
  exact apart member

/-- A new scope sees what the scope around it sees. -/
theorem context_newChild
    (ordered : t.Ordered)
    (there : n < t.nodes.length) :
    (t.newChild n).2.context t.nodes.length = .empty :: t.context n := by
  obtain ⟨ns, chain⟩ := exists_chain ordered there
  have nested : (t.newChild n).2.Chain t.nodes.length (t.nodes.length :: ns) :=
    .inner (parent?_newChild_self t n) ((nest n).chain_run chain)
  have stillOrdered : (t.newChild n).2.Ordered := @ordered_run t (nest n) ordered there
  rw [context_of_chain ordered chain, context_of_chain stillOrdered nested, List.map_cons]
  congr 1
  · rw [scope_newChild, scope, List.getElem?_eq_none (Nat.le_refl _)]
    rfl
  · exact List.map_congr_left fun m _ => scope_newChild t n m

/-- A call is not seen from the scopes around the one that it is on. -/
theorem context_run_of_around
    {ns : List Nat}
    (ordered : t.Ordered)
    (chain : t.Chain call.target ns)
    (around : m ∈ ns)
    (other : m ≠ call.target) :
    (call.run t).2.context m = t.context m := by
  have there := chain.lt_length
  have before := Nat.lt_of_le_of_ne (chain.le ordered m around) other
  obtain ⟨ms, outwards⟩ := exists_chain ordered (Nat.lt_trans before there)
  refine context_run_of_notMem ordered there outwards fun isAround => ?_
  exact Nat.not_le_of_lt before (outwards.le ordered _ isAround)

end Call

namespace Reaches

variable {calls : List Call}

theorem ordered
    (reached : t.Reaches calls u)
    (ordered : t.Ordered) :
    u.Ordered := by
  induction reached with
  | start => exact ordered
  | call _ call there ih => exact call.ordered_run ih there

/-- A scope stays within the scopes that are around it. -/
theorem chain
    {ns : List Nat}
    (reached : t.Reaches calls u)
    (chain : t.Chain n ns) :
    u.Chain n ns := by
  induction reached with
  | start => exact chain
  | call _ call there ih => exact call.chain_run ih

/-- A name of a scope has the value that it had, or else the first that a call gave to it. -/
theorem valueOf?
    (reached : t.Reaches calls u)
    (m : Nat) (name : String) :
    (u.scope m).valueOf? name =
      ((t.scope m).valueOf? name).or (calls.findSome? (Call.binds? m name)) := by
  induction reached with
  | start => exact Option.or_none.symm
  | call _ call there ih =>
      rw [call.valueOf?_run there, ih, List.findSome?_append, Option.or_assoc]
      simp

/-- A name of a scope has the functions that it had, and behind them those that calls registered, in
order. -/
theorem overloads?
    (reached : t.Reaches calls u)
    (m : Nat) (name : String) :
    (u.scope m).overloads? name =
      appended ((t.scope m).overloads? name) (calls.filterMap (Call.registers? m name)) := by
  induction reached with
  | start => rfl
  | call _ call there ih =>
      rw [call.overloads?_run there, ih, List.filterMap_append, appended_appended, List.filterMap_cons]
      cases call.registers? m name <;> rfl

end Reaches
end ScopeTree
end ExprLang
