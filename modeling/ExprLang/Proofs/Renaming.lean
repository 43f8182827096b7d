import Mathlib.Data.List.Nodup
import ExprLang.Proofs.CoupledCalls
import ExprLang.Proofs.EvaluationPlaces
import ExprLang.Proofs.PrintedMeaning

/-!
# Renaming the variables of a comprehension

A variable of a comprehension can have any name.  `Expr.renamed` renames the variables of one
comprehension and the references to them, which are those in its guard and body that no comprehension
further in binds again.  If the new names are different from each other and from all that are bound or
referred to, every execution comes to the same result.

Two runs, of the tree and of the renamed tree, have different scope stacks.  They correspond as
`Renames` says: each name that is not new has in the first the value that the name it is renamed to has
in the second.

* `Plan.node_renamed`: the plan of a renamed node is the plan of the node, retold.
* `Renames.enter`: comprehensions bind corresponding variables.
* `Program.execute_renamed`: executions of the renamed program.
-/

namespace ExprLang

/-- A renaming of the variables of one comprehension, which is known by its number. -/
structure Renaming where
  node : Nat
  rename : String → String

namespace Renaming

variable (r : Renaming)

/-- What becomes of the variables of the comprehension with a number. -/
def binder (n : Nat) : String → String :=
  if n = r.node then r.rename else id

/-- What becomes of references in the scope of a comprehension, `references` being what becomes of them
outside. -/
def inner (n : Nat) (binders : List String) (references : String → String) : String → String :=
  fun name => if name ∈ binders then r.binder n name else references name

end Renaming

namespace Expr

mutual

/-- A tree with the variables of one comprehension renamed; `references` says what becomes of the
references to the variables around the tree. -/
def renamed (r : Renaming) (references : String → String) : Expr → Expr
  | literal m value => literal m value
  | ident m name => ident m name
  | localRef m name => localRef m (references name)
  | unary m op operand => unary m op (renamed r references operand)
  | binary m op left right => binary m op (renamed r references left) (renamed r references right)
  | ternary m cond ifTrue ifFalse =>
      ternary m (renamed r references cond) (renamed r references ifTrue)
        (renamed r references ifFalse)
  | list m items => list m (renamedItems r references items)
  | map m entries => map m (renamedEntries r references entries)
  | select m operand field => select m (renamed r references operand) field
  | index m operand key => index m (renamed r references operand) (renamed r references key)
  | call m function target args =>
      call m function (renamedOption r references target) (renamedItems r references args)
  | invoke m callee args => invoke m (renamed r references callee) (renamedItems r references args)
  | has m access => has m (renamed r references access)
  | comprehension m kind target binders guard body =>
      comprehension m kind (renamed r references target) (binders.map (r.binder m.id))
        (renamedOption r (r.inner m.id binders references) guard)
        (renamed r (r.inner m.id binders references) body)

/-- A list of trees with variables renamed. -/
def renamedItems (r : Renaming) (references : String → String) : List Expr → List Expr
  | [] => []
  | e :: rest => renamed r references e :: renamedItems r references rest

/-- The entries of a map with variables renamed. -/
def renamedEntries (r : Renaming) (references : String → String) :
    List (Expr × Expr) → List (Expr × Expr)
  | [] => []
  | (k, v) :: rest =>
      (renamed r references k, renamed r references v) :: renamedEntries r references rest

/-- A tree that may be missing with variables renamed. -/
def renamedOption (r : Renaming) (references : String → String) : Option Expr → Option Expr
  | none => none
  | some e => some (renamed r references e)

end

section Shape

variable (r : Renaming) (references : String → String)

theorem renamedItems_eq_map
    (items : List Expr) :
    renamedItems r references items = items.map (renamed r references) := by
  induction items with
  | nil => rfl
  | cons e rest ih => rw [renamedItems, ih, List.map_cons]

theorem renamedEntries_eq_map
    (entries : List (Expr × Expr)) :
    renamedEntries r references entries =
      entries.map (Prod.map (renamed r references) (renamed r references)) := by
  induction entries with
  | nil => rfl
  | cons entry rest ih => rw [renamedEntries, ih, List.map_cons, Prod.map]

theorem renamedOption_eq_map
    (e : Option Expr) :
    renamedOption r references e = e.map (renamed r references) := by
  cases e <;> rfl

theorem id_renamed
    (e : Expr) :
    (e.renamed r references).id = e.id := by
  cases e <;> rfl

theorem isSum_renamed
    (e : Expr) :
    Eval.Plan.isSum (e.renamed r references) = Eval.Plan.isSum e := by
  cases e with
  | binary _ op _ _ => cases op <;> rfl
  | _ => rfl

end Shape

end Expr

/-! ### Plans -/

namespace Eval

/-- How the plan of a node is retold where variables are renamed. -/
def Retelling.ofRenaming (r : Renaming) (references : String → String) (e : Expr) : Retelling where
  reference := references
  binder := r.binder e.id
  operand := Expr.renamed r references
  inner := Expr.renamed r (r.inner e.id e.binders references)

namespace Plan

section Retold

variable {r : Retelling} {depth node : Nat}

theorem retold_binary
    (op : BinaryOp) (left right : Expr)
    (sameForm : isSum (r.operand left) = isSum left) :
    (binary depth op left right).retold r =
      binary depth op (r.operand left) (r.operand right) := by
  cases op <;> simp [binary, sameForm]

theorem retold_invoke
    (callee : Expr) (args : List Expr) :
    (invoke depth node callee args).retold r =
      invoke depth node (r.operand callee) (args.map r.operand) := by
  simp only [invoke, retold_bind, retold_value]
  congr 1
  funext v
  cases v <;> simp [retold]

theorem retold_overSteps
    (kind : Comprehension) (binders : List String) (guard : Option Expr) (body : Expr)
    (steps : List Step) :
    (overSteps depth kind binders guard body steps).retold r =
      overSteps depth kind (binders.map r.binder) (guard.map r.inner) (r.inner body) steps := by
  cases kind <;> simp [overSteps]

end Retold

/-- The plan of a renamed node is the plan of the node, retold. -/
theorem node_renamed
    (r : Renaming) (references : String → String) (env : Environment) (depth : Nat) (e : Expr) :
    node env depth (e.renamed r references) =
      (node env depth e).retold (.ofRenaming r references e) := by
  cases e with
  | literal | ident | localRef => simp [Expr.renamed, node, retold, Retelling.ofRenaming]
  | unary m op operand => cases op <;> simp [Expr.renamed, node, Retelling.ofRenaming]
  | binary m op left right =>
      rw [Expr.renamed, node, node, retold_binary op left right (Expr.isSum_renamed r references left)]
      rfl
  | has m access =>
      cases access <;> simp [Expr.renamed, node, has, retold, Retelling.ofRenaming, Expr.form]
  | invoke m callee args =>
      rw [Expr.renamed, Expr.renamedItems_eq_map, node, node, retold_invoke]
      rfl
  | comprehension m kind target binders guard body =>
      simp [Expr.renamed, Expr.renamedOption_eq_map, node, comprehension, retold_overSteps, retold,
        TraceEvent.withBinders]
      rfl
  | call m function target args =>
      cases declared : env.context.hasFunction function <;>
        simp [Expr.renamed, node, callNamed, declared, retold, Expr.renamedOption_eq_map,
          Expr.renamedItems_eq_map, Option.toList_map, Retelling.ofRenaming]
  | _ => simp [Expr.renamed, node, Retelling.ofRenaming, Expr.renamedItems_eq_map,
      Expr.renamedEntries_eq_map]

end Plan
end Eval

/-! ### Corresponding scopes -/

section Scopes

open Eval (localValue?)

/-- Where `references` says what references have become, two scope stacks correspond if each name that
is not new has in the first the value that it has in the second under its new name.  Only variables that
are bound have become new names. -/
def Renames (new : String → Prop) (references : String → String) (sc sc' : List Bindings) : Prop :=
  ∀ name, ¬new name →
    localValue? sc' (references name) = localValue? sc name ∧
      (references name = name ∨ new (references name) ∧ (localValue? sc name).isSome)

variable {new : String → Prop} {rename references : String → String} {sc sc' : List Bindings}
  {names : List String} {values : List Value} {name : String}

/-- Renamed names have the values of the names, if no two names become the same. -/
theorem lookup_zip_map
    (apart : ∀ other ∈ names, rename other = rename name → other = name) :
    ((names.map rename).zip values).lookup (rename name) = (names.zip values).lookup name := by
  induction names generalizing values with
  | nil => rfl
  | cons first rest ih =>
      obtain ⟨here, apart⟩ := List.forall_mem_cons.mp apart
      cases values with
      | nil => rfl
      | cons v values =>
          rw [List.map_cons, List.zip_cons_cons, List.zip_cons_cons, List.lookup_cons,
            List.lookup_cons, ih apart]
          by_cases same : first = name
          · rw [same]
            simp
          · have differs : rename first ≠ rename name := fun equal => same (here equal)
            rw [beq_false_of_ne (Ne.symm same), beq_false_of_ne (Ne.symm differs)]

/-- A comprehension that renames its variables apart from each other, and apart from what other names
have become, binds corresponding variables. -/
theorem Renames.enter
    (renames : Renames new references sc sc')
    (full : values.length = names.length)
    (apart : ∀ a ∈ names, ∀ b ∈ names, rename a = rename b → a = b)
    (becomes : ∀ a ∈ names, rename a = a ∨ new (rename a))
    (outside : ∀ name, ¬new name → name ∉ names → references name ∉ names.map rename) :
    Renames new (fun name => if name ∈ names then rename name else references name)
      (names.zip values :: sc) ((names.map rename).zip values :: sc') := by
  intro name isOld
  by_cases bound : name ∈ names
  · obtain ⟨v, found⟩ := exists_lookup_zip full bound
    have found' : ((names.map rename).zip values).lookup (rename name) = some v :=
      (lookup_zip_map fun other member => apart other member name bound).trans found
    simp only [bound, if_true, localValue?, List.findSome?_cons, found, found', Option.isSome_some,
      and_true, true_and]
    exact becomes name bound
  · have absent : (names.zip values).lookup name = none := lookup_zip_eq_none bound
    have absent' : ((names.map rename).zip values).lookup (references name) = none :=
      lookup_zip_eq_none (outside name isOld bound)
    simp only [bound, if_false, localValue?, List.findSome?_cons, absent, absent']
    exact renames name isOld

end Scopes

/-! ### Trees -/

/-- The names of the variables that a node refers to or binds. -/
def Expr.variableNames : Expr → List String
  | localRef _ name => [name]
  | e => e.binders

theorem Expr.mem_variableNames_of_binders
    {e : Expr} {name : String}
    (bound : name ∈ e.binders) :
    name ∈ e.variableNames := by
  cases e <;> first | exact bound | cases bound

namespace Renaming

/-- Whether a name is new, for a comprehension with the given variables. -/
def New (r : Renaming) (names : List String) (name : String) : Prop :=
  ∃ a ∈ names, r.rename a = name

/-- Whether a node suits a renaming: no new name is bound or referred to, comprehensions bind one or two
variables, and the comprehension whose variables are renamed binds those that are. -/
structure Suits (r : Renaming) (names : List String) (x : Expr) : Prop where
  old : ∀ name ∈ x.variableNames, ¬r.New names name
  count : x.innerChildren ≠ [] → x.binders.length = 1 ∨ x.binders.length = 2
  same : x.id = r.node → x.binders = names

/-- Whether a tree suits a renaming, `references` being what has become of the variables around it: its
nodes do, they have different numbers, and around the renamed comprehension nothing is renamed. -/
structure Fits (r : Renaming) (names : List String) (references : String → String) (e : Expr) :
    Prop where
  suits : Expr.Everywhere (r.Suits names) e
  distinct : (e.walk.map Expr.id).Nodup
  around : (∃ x ∈ e.walk, x.id = r.node) → references = id

variable {r : Renaming} {names : List String} {references : String → String} {e x : Expr}

theorem Fits.operand
    (fits : r.Fits names references e)
    (operand : x ∈ e.operands) :
    r.Fits names references x := by
  have inside := Expr.inside_of_mem_operands operand
  exact
    { suits := fits.suits.inside inside
      distinct := fits.distinct.sublist ((Expr.walk_sublist_of_inside inside).map Expr.id)
      around := fun ⟨y, member, same⟩ =>
        fits.around ⟨y, Expr.mem_walk_trans inside.mem_walk member, same⟩ }

theorem Fits.inner
    (fits : r.Fits names references e)
    (inner : x ∈ e.innerChildren) :
    r.Fits names (r.inner e.id e.binders references) x := by
  have inside := Expr.inside_of_mem_children (Expr.mem_children_of_inner inner)
  refine
    { suits := fits.suits.inside inside
      distinct := fits.distinct.sublist ((Expr.walk_sublist_of_inside inside).map Expr.id)
      around := ?_ }
  rintro ⟨y, member, same⟩
  have isOther : e.id ≠ r.node := fun isNode =>
    Expr.id_ne_of_inside fits.distinct (inside.trans member) (same.trans isNode.symm)
  rw [fits.around ⟨y, Expr.mem_walk_trans inside.mem_walk member, same⟩]
  funext name
  simp [Renaming.inner, binder, isOther]

/-- Where a fitting tree enters the scope of variables, scopes go on to correspond. -/
theorem Fits.renames_enter
    (fits : r.Fits names references e)
    (injective : ∀ a ∈ names, ∀ b ∈ names, r.rename a = r.rename b → a = b)
    {sc sc' : List Bindings} {values : List Value}
    (renames : Renames (r.New names) references sc sc')
    (full : values.length = e.binders.length) :
    Renames (r.New names) (r.inner e.id e.binders references) (e.binders.zip values :: sc)
      ((e.binders.map (r.binder e.id)).zip values :: sc') := by
  have old : ∀ name ∈ e.binders, ¬r.New names name := fun name bound =>
    fits.suits.root.old name (Expr.mem_variableNames_of_binders bound)
  by_cases isNode : e.id = r.node
  · -- Nothing around is renamed, so that names from outside are old while all variables are new.
    have sameNames := fits.suits.root.same isNode
    have unchanged := fits.around ⟨e, Expr.mem_walk_self e, isNode⟩
    have binder_eq : r.binder e.id = r.rename := if_pos isNode
    unfold Renaming.inner
    rw [sameNames] at full
    rw [binder_eq, sameNames]
    refine renames.enter full injective (fun a member => .inr ⟨a, member, rfl⟩) ?_
    rintro name isOld - member
    rw [unchanged] at member
    obtain ⟨a, isVariable, rfl⟩ := List.mem_map.mp member
    exact isOld ⟨a, isVariable, rfl⟩
  · have binder_eq : r.binder e.id = id := if_neg isNode
    unfold Renaming.inner
    rw [binder_eq]
    refine renames.enter full (fun _ _ _ _ => id) (fun _ _ => .inl rfl) ?_
    intro name isOld isFree member
    rw [List.map_id] at member
    rcases (renames name isOld).2 with same | ⟨isNew, -⟩
    · exact isFree (same ▸ member)
    · exact old _ member isNew

/-- The coupling of runs whose scopes correspond. -/
def coupling (r : Renaming) (names : List String) (references : String → String) : Coupling where
  scopes := Renames (r.New names) references
  traces := False
  failures := True

end Renaming

/-- Host functions that resolve no names. -/
def HostTerms.unresolving : HostTerms where
  resolves _ := False
  reads _ := True
  calls _ := True
  good _ := True
  catches := True

namespace Eval

open Coupling

variable {r : Renaming} {names : List String} {references : String → String} {env : Environment}

theorem hostsAgree_renaming
    (hosts : env.context.HostsWithin .unresolving) :
    (r.coupling names references).HostsAgree .unresolving env env where
  debug _ := rfl
  catches := id
  resolves _ := False.elim
  reads _ _ := ⟨rfl, fun _ _ => trivial⟩
  functions _ _ := .inl rfl
  within name _ := hosts name

/-- A fitting tree and the renamed tree come to the same where scopes correspond. -/
theorem coupled_renamed
    (injective : ∀ a ∈ names, ∀ b ∈ names, r.rename a = r.rename b → a = b)
    (hosts : env.context.HostsWithin .unresolving)
    {e : Expr}
    (fits : r.Fits names references e)
    (depth : Nat) :
    (r.coupling names references).Coupled (fun _ => True) (evalAt env depth e)
      (evalAt env depth (e.renamed r references)) := by
  induction e using Expr.induction_inside generalizing depth references with
  | node e ih =>
      cases depth with
      | zero => exact coupled_throw _
      | succ depth =>
          refine coupled_evalAt_succ ?_ (Expr.id_renamed r references e)
          rw [Plan.node_renamed]
          refine (Plan.abides_placed env depth fits.suits.root.count).coupled (fun name named => ?_)
            (fun depth bindings x asked => ?_) (fun depth callSite function args _ => ?_) False.elim
          · obtain ⟨m, rfl⟩ := named
            have isOld := fits.suits.root.old name List.mem_cons_self
            refine coupled_lookupLocal (fun sc sc' renames => (renames name isOld).1)
              (fun _ _ _ _ _ => trivial) fun sc sc' renames unbound => ?_
            refine (renames name isOld).2.resolve_right fun ⟨_, bound⟩ => ?_
            rw [unbound] at bound
            cases bound
          · have keeps := keepsScopes_evalAt env depth
            cases bindings with
            | none =>
                refine (ih x (Expr.inside_of_mem_operands asked) (fits.operand asked) depth).within
                  (fun _ _ renames => renames) (keeps _) (keeps _)
            | some b =>
                obtain ⟨inner, values, full, rfl⟩ := asked
                have inside := Expr.inside_of_mem_children (Expr.mem_children_of_inner inner)
                refine (ih x inside (fits.inner inner) depth).within ?_ (keeps _) (keeps _)
                intro sc sc' renames
                have entered := fits.renames_enter injective renames full
                rw [List.zip_map_left] at entered
                exact entered
          · exact (hostsAgree_renaming hosts).callFunction depth callSite trivial fun _ _ => trivial

end Eval

/-! ### Programs -/

namespace Program

variable {config : Config} {source : List Char} {p : Program} {context : Context}

/-- A program with the variables of a comprehension renamed. -/
def renamed (p : Program) (r : Renaming) : Program :=
  { p with root := p.root.renamed r id }

/-- The tree of a program fits a renaming to names that are different from each other and from those of
all variables. -/
theorem fits_renaming
    (compiled : compile config source = .ok p)
    {m : Mark} {kind : Comprehension} {target body : Expr} {names : List String} {guard : Option Expr}
    (inTree : .comprehension m kind target names guard body ∈ p.root.walk)
    {rename : String → String}
    (new : ∀ name ∈ names, ∀ x ∈ p.root.walk, rename name ∉ x.variableNames) :
    Renaming.Fits ⟨m.id, rename⟩ names id p.root := by
  have parsed := (compile_eq_ok_iff.mp compiled).1
  have distinct := nodup_of_parse parsed
  refine ⟨fun x member => ⟨?_, ?_, ?_⟩, distinct, fun _ => rfl⟩
  · rintro _ isName ⟨a, isVariable, rfl⟩
    exact new a isVariable x member isName
  · obtain ⟨scopes, occurs⟩ := Expr.exists_occurs member
    exact (wellScoped_of_parse parsed scopes x occurs).length_binders
  · intro same
    cases List.inj_on_of_nodup_map distinct member inTree same
    rfl

/-- The variables of a comprehension can be renamed: to names that are different from each other and
from those of all variables that the program binds or refers to.  Wherever host functions resolve no
names, executions come to the same result, and leave the same notes. -/
theorem execute_renamed
    (compiled : compile config source = .ok p)
    {m : Mark} {kind : Comprehension} {target body : Expr} {names : List String} {guard : Option Expr}
    (inTree : .comprehension m kind target names guard body ∈ p.root.walk)
    {rename : String → String}
    (injective : ∀ a ∈ names, ∀ b ∈ names, rename a = rename b → a = b)
    (new : ∀ name ∈ names, ∀ x ∈ p.root.walk, rename name ∉ x.variableNames)
    (hosts : context.HostsWithin .unresolving) :
    ((p.renamed ⟨m.id, rename⟩).execute context).result = (p.execute context).result ∧
      ((p.renamed ⟨m.id, rename⟩).execute context).journal = (p.execute context).journal := by
  let q := p.renamed ⟨m.id, rename⟩
  have fits := fits_renaming compiled inTree new
  have coupled : (Renaming.coupling ⟨m.id, rename⟩ names id).Coupled (fun _ => True)
      (Eval.evalAt (p.environment context) evaluationDepth p.root)
      (Eval.evalAt (q.environment context) evaluationDepth q.root) :=
    Eval.coupled_renamed injective hosts fits evaluationDepth
  have start : Renames (Renaming.New ⟨m.id, rename⟩ names) id [] [] := fun _ _ => ⟨rfl, .inl rfl⟩
  obtain ⟨result, journal, -⟩ := execute_of_coupled coupled start (.inl trivial)
  exact ⟨result, journal⟩

/-- Whether a program maps a list, with one variable. -/
def maps (name : String) : Program → Bool
  | ⟨_, .comprehension _ .map _ [other] none _, _⟩ => other == name
  | _ => false

/-- The variable further in keeps its name where it hides the one that is renamed. -/
theorem execute_renamed_shadowing :
    ∃ p, compile .standard "[[1], [2]].map(x, x.map(x, x + 1))".toList = .ok p ∧
      (p.renamed ⟨p.root.id, fun _ => "y"⟩).root.print = "[[1], [2]].map(y, y.map(x, x + 1))" ∧
      ((p.renamed ⟨p.root.id, fun _ => "y"⟩).execute []).result = (p.execute []).result ∧
      ((p.renamed ⟨p.root.id, fun _ => "y"⟩).execute []).journal = (p.execute []).journal := by
  have checked : compilesTo .standard "[[1], [2]].map(x, x.map(x, x + 1))".toList (fun p =>
      (p.renamed ⟨p.root.id, fun _ => "y"⟩).root.print == "[[1], [2]].map(y, y.map(x, x + 1))" &&
        (p.root.walk.all (fun x => !x.variableNames.contains "y") && maps "x" p)) = true := by
    decide +kernel
  obtain ⟨p, compiled, checked⟩ := exists_of_compilesTo checked
  rw [Bool.and_eq_true, Bool.and_eq_true] at checked
  obtain ⟨printed, isNew, mapping⟩ := checked
  refine ⟨p, compiled, eq_of_beq printed, ?_⟩
  unfold maps at mapping
  split at mapping
  next source m target other body config =>
    obtain rfl := eq_of_beq mapping
    have injective : ∀ a ∈ ["x"], ∀ b ∈ ["x"], "y" = "y" → a = b := by
      intro a isA b isB _
      rw [List.mem_singleton.mp isA, List.mem_singleton.mp isB]
    have new : ∀ name ∈ ["x"], ∀ x ∈ (Expr.comprehension m .map target ["x"] none body).walk,
        "y" ∉ x.variableNames := fun _ _ x member => by
      simpa using List.all_eq_true.mp isNew x member
    have hosts : Context.HostsWithin .unresolving [] := Context.hostsWithin_of_scopes nofun
    exact execute_renamed compiled (Expr.mem_walk_self _) injective new hosts
  · cases mapping

end Program
end ExprLang
