import ExprLang.Proofs.EvaluationPlaces

/-!
# What host functions are told about names

A name in a program is bound when the program is parsed: each comprehension makes references of the free
names in its guard and body that are its variables.  A host function that resolves a name has the scope
stack searched, and then the context.

The two agree.  Whatever a host function resolves, also one that is called by another, it is told what
an identifier of that name comes to where the call stands.  Where the call stands is known by the
variables around it: not every call leaves room for an identifier in the source, as a guard that is
an identifier would be taken for a second variable.

* `Evaluation.Resolves`: the names that the host functions of an evaluation resolve, and what they are
  told.
* `Evaluation.Resolves.found_eq`: they are told what the names mean in the scopes of the evaluation.
* `Expr.boundBy`: an expression, bound as parsing binds it in the scope of variables.
* `Evaluation.Placed.result_name`: what an identifier comes to in its place.
* `Program.resolves_as_written`: both, in the executions of a program.
-/

namespace ExprLang
namespace Eval

open EvalM (KeepsScopes)

/-! ### Names for host functions -/

/-- What a host function is told about a name, given the bindings of the comprehensions around the
call. -/
def meaning (env : Environment) (scopes : List Bindings) (name : String) : Outcome Value :=
  match localValue? scopes name with
  | some v => .ok v
  | none => lookup env name

section Names

variable {env : Environment} {scopes : List Bindings} {name : String}

theorem outcome_resolve
    (env : Environment) (name : String) (s : EvalState) :
    EvalM.outcome (resolve env name) s = (.ok (meaning env s.scopes name), s) := by
  unfold EvalM.outcome meaning
  rw [resolve_apply]
  cases localValue? s.scopes name with
  | some v => rfl
  | none => cases lookup env name <;> rfl

/-- A name without a meaning is undeclared. -/
theorem error_of_meaning
    {e : RuntimeError}
    (unknown : meaning env scopes name = .error e) :
    e = .undeclaredReference name := by
  unfold meaning lookup at unknown
  split at unknown
  · cases unknown
  split at unknown
  · cases unknown
  split at unknown <;> cases unknown
  rfl

end Names

/-! ### Resolved names -/

section Resolving

variable (env : Environment) (name : String) (found : Outcome Value)

/-- Whether a host function resolves a name and is told what is found, itself or in the calls that it
makes. -/
def ProgramResolves (call : String → List Value → EvalM Value)
    (calls : String → List Value → EvalState → Prop) : HostProgram → EvalState → Prop
  | .finish _, _ => False
  | .raise _, _ => False
  | .fail _, _ => False
  | .note entry next, s => ProgramResolves call calls next (EvalM.note entry s).2
  | .resolve other next, s =>
      ∃ answer t, EvalM.outcome (resolve env other) s = (.ok answer, t) ∧
        ((other = name ∧ answer = found) ∨ ProgramResolves call calls (next answer) t)
  | .variable other next, s => ProgramResolves call calls (next (env.context.valueOf? other)) s
  | .call function args next, s =>
      calls function args s ∨
        ∃ answer t, EvalM.outcome (call function args) s = (.ok answer, t) ∧
          ProgramResolves call calls (next answer) t

/-- Whether the name is resolved during a call. -/
def CallResolves : Nat → Option Nat → String → List Value → EvalState → Prop
  | 0, _, _, _, _ => False
  | depth + 1, callSite, function, args, s =>
      ∃ functions f converted, env.context.overloads? function = some functions ∧
        HostFunction.choose function functions args callSite = .ok (f, converted) ∧
        ProgramResolves env name found (callFunction env depth callSite) (CallResolves depth callSite)
          (f.body ⟨function, callSite⟩ converted)
          (EvalM.report env (.call function (args.map Value.typeName)) s).2

/-- Whether the name is resolved during a call that a plan makes. -/
def Plan.Resolves {α : Type} : Plan α → EvalState → Prop
  | .done _, _ => False
  | .fail _, _ => False
  | .binder other next, s => ∃ v t, lookupLocal other s = (.ok v, t) ∧ Resolves (next v) t
  | .call depth node function args next, s =>
      CallResolves env name found depth (some node) function args s ∨
        ∃ v t, callFunction env depth (some node) function args s = (.ok v, t) ∧ Resolves (next v) t
  | .report event next, s => Resolves next (EvalM.report env event s).2
  | .ask depth bindings e next, s =>
      ∃ v t, within bindings (evalAt env depth e) s = (.ok v, t) ∧ Resolves (next v) t

/-- Whether the name is resolved by a function that the node of an evaluation calls, or by one that is
called in turn. -/
def Evaluation.Resolves (ev : Evaluation) : Prop :=
  ∃ depth, ev.depth = depth + 1 ∧ (Plan.node env depth ev.expr).Resolves env name found ev.state

end Resolving

section Found

variable {env : Environment} {name : String} {found : Outcome Value} {s : EvalState}

/-- A host function is told the meaning of a name in the scopes in which it runs, if that is so for the
functions that it calls. -/
theorem ProgramResolves.found_eq
    {call : String → List Value → EvalM Value}
    {calls : String → List Value → EvalState → Prop}
    (keeps : ∀ function args, KeepsScopes (call function args))
    (each : ∀ function args s, calls function args s → found = meaning env s.scopes name)
    {program : HostProgram}
    (resolves : ProgramResolves env name found call calls program s) :
    found = meaning env s.scopes name := by
  induction program generalizing s with
  | finish result => exact resolves.elim
  | raise exception => exact resolves.elim
  | fail error => exact resolves.elim
  | note entry next ih =>
      rw [← EvalM.keepsScopes_note entry s]
      exact ih resolves
  | resolve other next ih =>
      obtain ⟨answer, t, resolved, here⟩ := resolves
      rw [outcome_resolve] at resolved
      cases resolved
      rcases here with ⟨rfl, rfl⟩ | resolves
      · rfl
      · exact ih _ resolves
  | «variable» other next ih => exact ih _ resolves
  | call function args next ih =>
      rcases resolves with inner | ⟨answer, t, called, resolves⟩
      · exact each function args s inner
      · rw [← (keeps function args).outcome.scopes_eq called]
        exact ih _ resolves

theorem CallResolves.found_eq
    {depth : Nat} {callSite : Option Nat} {function : String} {args : List Value}
    (resolves : CallResolves env name found depth callSite function args s) :
    found = meaning env s.scopes name := by
  induction depth generalizing function args s with
  | zero => exact resolves.elim
  | succ depth ih =>
      obtain ⟨functions, f, converted, -, -, resolves⟩ := resolves
      rw [← EvalM.keepsScopes_report env (.call function (args.map Value.typeName)) s]
      exact resolves.found_eq (keepsScopes_callFunction env depth callSite) fun _ _ _ => ih

theorem Plan.Resolves.found_eq
    {α : Type} {p : Plan α}
    (resolves : p.Resolves env name found s) :
    found = meaning env s.scopes name := by
  induction p generalizing s with
  | done a => exact resolves.elim
  | fail error => exact resolves.elim
  | report event next ih =>
      rw [← EvalM.keepsScopes_report env event s]
      exact ih resolves
  | binder other next ih =>
      obtain ⟨v, t, looked, resolves⟩ := resolves
      rw [← (keepsScopes_lookupLocal other).scopes_eq looked]
      exact ih v resolves
  | call depth node function args next ih =>
      rcases resolves with inner | ⟨v, t, called, resolves⟩
      · exact inner.found_eq
      · rw [← (keepsScopes_callFunction env depth _ function args).scopes_eq called]
        exact ih v resolves
  | ask depth bindings e next ih =>
      obtain ⟨v, t, evaluated, resolves⟩ := resolves
      rw [← (keepsScopes_within (keepsScopes_evalAt env depth e) bindings).scopes_eq evaluated]
      exact ih v resolves

/-- The host functions of an evaluation are told what names mean in the scopes of the evaluation. -/
theorem Evaluation.Resolves.found_eq
    {ev : Evaluation}
    (resolves : ev.Resolves env name found) :
    found = meaning env ev.state.scopes name :=
  let ⟨_, _, resolves⟩ := resolves
  resolves.found_eq

end Found
end Eval

/-! ### Written names -/

namespace Expr

variable {scopes outer : List (List String)} {e : Expr}

/-- What parsing makes of an expression in the scope of variables, those of the innermost comprehension
first: one comprehension after the other binds its variables. -/
def boundBy (scopes : List (List String)) (e : Expr) : Expr :=
  scopes.foldl (fun e names => bindLocals names e) e

theorem WellScoped.boundBy
    (wellScoped : WellScoped outer e) :
    WellScoped (outer ++ scopes) (e.boundBy scopes) := by
  induction scopes generalizing outer e with
  | nil => rwa [List.append_nil]
  | cons names scopes ih =>
      rw [List.append_cons]
      exact ih (wellScoped.bindLocals names)

/-- A bound identifier fits its place: it is a reference if a comprehension around it binds its name. -/
theorem fits_boundBy
    (scopes : List (List String)) (m : Mark) (name : String) :
    ((ident m name).boundBy scopes).Fits scopes := by
  have free : WellScoped [] (ident m name) :=
    Grammar.wellScoped_node (List.forall_mem_nil _) rfl (List.forall_mem_nil _)
  exact free.boundBy [] _ .root

theorem occurrenceName?_boundBy
    (scopes : List (List String)) (e : Expr) :
    (e.boundBy scopes).occurrenceName? = e.occurrenceName? := by
  induction scopes generalizing e with
  | nil => rfl
  | cons names scopes ih => exact (ih _).trans (occurrenceName?_bindLocals names e)

theorem id_boundBy
    (scopes : List (List String)) (e : Expr) :
    (e.boundBy scopes).id = e.id := by
  induction scopes generalizing e with
  | nil => rfl
  | cons names scopes ih => exact (ih _).trans (id_bindLocals names e)

end Expr

namespace Eval

open Lexical (Frame)

theorem localValue?_eq_none
    {frames : List Frame} {name : String}
    (free : ∀ f ∈ frames, name ∉ f.names) :
    localValue? (frames.map Frame.bindings) name = none := by
  simp only [localValue?, List.findSome?_map, List.findSome?_eq_none_iff]
  exact fun f member => lookup_zip_eq_none (free f member)

/-- An identifier that fits the place of an evaluation comes to the meaning of its name there. -/
theorem Evaluation.Placed.result_name
    {env : Environment} {root x : Expr} {frames : List Frame} {ev : Evaluation} {name : String}
    {depth : Nat}
    (placed : ev.Placed root frames)
    (positive : ev.depth = depth + 1)
    (fits : x.Fits (frames.map Frame.names))
    (named : x.occurrenceName? = some name) :
    ({ ev with expr := x } : Evaluation).result env =
      (meaning env ev.state.scopes name).mapError fun e => .failure e (some x.id) := by
  unfold Evaluation.result meaning
  rw [placed.scopes, positive]
  cases x with
  | ident m other =>
      cases named
      have unbound := localValue?_eq_none fun f member => fits _ (List.mem_map_of_mem member)
      rw [unbound]
      show (EvalM.attributed m.id (EvalM.ofOutcome (lookup env name)) ev.state).1 = _
      cases lookup env name <;> rfl
  | localRef m other =>
      cases named
      obtain ⟨_, isFrame, bound⟩ := fits
      obtain ⟨f, member, rfl⟩ := List.mem_map.mp isFrame
      obtain ⟨v, -, value⟩ := localValue?_eq_value? placed.full ⟨f, member, bound⟩
      rw [value]
      show (EvalM.attributed m.id (lookupLocal name) ev.state).1 = _
      unfold EvalM.attributed
      rw [lookupLocal_apply, placed.scopes, value]
      rfl
  | _ => cases named

end Eval

/-! ### Programs -/

namespace Program

open Eval (Evaluation)

variable {config : Config} {source : List Char} {p : Program} {context : Context}

/-- What a host function is told about a name is what an identifier of that name comes to where the call
stands.  The identifier is bound by the comprehensions around the call: so does every program bind an
identifier in the scope of comprehensions with the same variables. -/
theorem resolves_as_written
    (compiled : compile config source = .ok p)
    {ev : Evaluation} {name : String} {found : Outcome Value}
    (made : p.evaluation.Makes (p.environment context) ev)
    (resolves : ev.Resolves (p.environment context) name found)
    {scopes : List (List String)}
    (place : p.root.Occurs scopes ev.expr) :
    (∀ m, ({ ev with expr := (Expr.ident m name).boundBy scopes } : Evaluation).result
        (p.environment context) = found.mapError fun e => .failure e (some m.id)) ∧
    (∀ config' source' p' x, compile config' source' = .ok p' → p'.root.Occurs scopes x →
      x.occurrenceName? = some name →
        ({ ev with expr := x } : Evaluation).result (p.environment context) =
          found.mapError fun e => .failure e (some x.id)) ∧
    ∀ e, found = .error e → e = .undeclaredReference name := by
  obtain ⟨frames, rfl, placed⟩ := placed_of_makes compiled made place
  obtain rfl := resolves.found_eq
  obtain ⟨depth, positive, -⟩ := resolves
  refine ⟨fun m => ?_, fun config' source' p' x compiled' place' named => ?_, fun e unknown => ?_⟩
  · have named := Expr.occurrenceName?_boundBy (frames.map Lexical.Frame.names) (.ident m name)
    rw [placed.result_name positive (Expr.fits_boundBy _ m name) named, Expr.id_boundBy]
    rfl
  · have fits := wellScoped_of_parse (compile_eq_ok_iff.mp compiled').1 _ _ place'
    rw [List.append_nil] at fits
    exact placed.result_name positive fits named
  · exact Eval.error_of_meaning unknown

/-- A variable of the context, and a function that resolves its name. -/
def resolvingContext : Context :=
  [⟨[("x", .int 100)], [("f", [⟨"f", [], 0, none, true, fun _ _ => .resolve "x" .ofOutcome⟩])]⟩]

/-- Whether a program maps the list of an integer, calling a function without arguments. -/
def mapsCall (n : Int) (name function : String) : Program → Bool
  | ⟨_, .comprehension _ .map (.list _ [.literal _ (.int m)]) [other] none (.call _ called none []),
      ⟨_, debug, _⟩⟩ => m == n && other == name && called == function && !debug
  | _ => false

/-- A function that is called in the body of a comprehension sees the variable of the comprehension. -/
theorem resolves_as_written_hiding :
    ∃ p ev, compile .standard "[1].map(x, f())".toList = .ok p ∧
      p.evaluation.Makes (p.environment resolvingContext) ev ∧
      ev.Resolves (p.environment resolvingContext) "x" (.ok (.int 1)) ∧
      p.root.Occurs [["x"]] ev.expr ∧
      ∀ m, ({ ev with expr := .localRef m "x" } : Evaluation).result (p.environment resolvingContext) =
        .ok (.int 1) := by
  have checked : compilesTo .standard "[1].map(x, f())".toList (mapsCall 1 "x" "f") = true := by
    decide +kernel
  obtain ⟨p, compiled, checked⟩ := exists_of_compilesTo checked
  unfold mapsCall at checked
  split at checked
  next source m m' m'' n other callMark called limit debug size =>
    simp only [Bool.and_eq_true, beq_iff_eq, Bool.not_eq_true'] at checked
    obtain ⟨⟨⟨rfl, rfl⟩, rfl⟩, rfl⟩ := checked
    let inBody : EvalState := ⟨[[("x", .int 1)]], [], []⟩
    let p : Program := ⟨source, .comprehension m .map (.list m' [.literal m'' (.int 1)]) ["x"] none
      (.call callMark "f" none []), ⟨limit, false, size⟩⟩
    let ev : Evaluation := ⟨1999, .call callMark "f" none [], inBody⟩
    have made : p.evaluation.Makes (p.environment resolvingContext) ev :=
      .single ⟨1999, rfl, .inr ⟨.list [.int 1], .initial, rfl, .inl rfl⟩⟩
    have resolves : ev.Resolves (p.environment resolvingContext) "x" (.ok (.int 1)) :=
      ⟨1998, rfl, .inl ⟨_, _, [], rfl, rfl, .ok (.int 1), inBody, rfl, .inl ⟨rfl, rfl⟩⟩⟩
    have place : p.root.Occurs [["x"]] ev.expr := .inner .root (List.mem_singleton_self _)
    exact ⟨p, ev, compiled, made, resolves, place,
      (resolves_as_written compiled made resolves place).1⟩
  · cases checked

end Program
end ExprLang
