import ExprLang.Proofs.StartedEvaluations
import ExprLang.Proofs.WellFormedValues
import ExprLang.Stdlib.Library

/-!
# Hosts that keep values well-formed

A host is asked for one thing: the values that it hands over as such are well-formed.  Whatever else it
hands over is checked on the way in.  The functions of such a host give well-formed results, also where
they call one another.

* `HostObject.Sound`, `HostProgram.Sound`: objects whose values are well-formed, and programs that end
  with such objects.
* `wellFormed_toValue`, `sound_convert?`: objects become well-formed values, and values become such
  objects.
* `Scope.Built`, `Scope.Built.sound`: scopes that are made by binding variables and registering
  functions.
* `wellFormed_runProgram`, `wellFormed_callFunction`: calls of functions.
-/

namespace ExprLang

open Value (WellFormed)

/-! ### Objects -/

namespace HostObject

mutual

/-- Whether all values inside an object are well-formed. -/
def Sound : HostObject → Prop
  | list items => SoundItems items
  | tuple items => SoundItems items
  | dict entries => SoundEntries entries
  | value v => v.WellFormed
  | _ => True

/-- Whether all values inside the objects of a sequence are well-formed. -/
def SoundItems : List HostObject → Prop
  | [] => True
  | a :: rest => a.Sound ∧ SoundItems rest

/-- Whether all values inside the keys and items of a dictionary are well-formed. -/
def SoundEntries : List (HostObject × HostObject) → Prop
  | [] => True
  | (k, a) :: rest => k.Sound ∧ a.Sound ∧ SoundEntries rest

end

theorem soundEntries_iff
    {entries : List (HostObject × HostObject)} :
    SoundEntries entries ↔ ∀ e ∈ entries, e.1.Sound ∧ e.2.Sound := by
  induction entries with
  | nil => exact ⟨nofun, fun _ => trivial⟩
  | cons e rest ih => rw [SoundEntries, ih, List.forall_mem_cons, and_assoc]

theorem soundEntries_putEntry
    {entries : List (HostObject × HostObject)} {key item : HostObject}
    (written : SoundEntries entries)
    (hkey : key.Sound)
    (hitem : item.Sound) :
    SoundEntries (putEntry entries key item) :=
  soundEntries_iff.mpr (Assoc.forall_mem_put (soundEntries_iff.mp written) hkey hitem)

mutual

/-- The value of an object is well-formed if the values inside the object are. -/
theorem wellFormed_toValue
    (o : HostObject) {v : Value}
    (sound : o.Sound)
    (result : o.toValue = .ok v) :
    v.WellFormed := by
  cases o with
  | int n =>
      unfold toValue at result
      split at result
      next inRange =>
        cases result
        exact inRange
      · cases result
  | list items | tuple items =>
      obtain ⟨vs, values, ⟨⟩⟩ := except_bind_eq_ok.mp result
      exact Value.wellFormed_list_iff.mpr (wellFormed_toValues items sound values)
  | dict entries =>
      obtain ⟨written, values, ⟨⟩⟩ := except_bind_eq_ok.mp result
      exact wellFormed_toEntries entries Value.wellFormed_map_nil sound values
  | value w =>
      cases result
      exact sound
  | _ =>
      cases result
      try trivial

theorem wellFormed_toValues
    (items : List HostObject) {vs : List Value}
    (sound : SoundItems items)
    (result : toValues items = .ok vs) :
    ∀ v ∈ vs, v.WellFormed := by
  cases items with
  | nil =>
      cases result
      exact nofun
  | cons a rest =>
      obtain ⟨v, first, result⟩ := except_bind_eq_ok.mp result
      obtain ⟨others, after, ⟨⟩⟩ := except_bind_eq_ok.mp result
      exact List.forall_mem_cons.mpr
        ⟨wellFormed_toValue a sound.1 first, wellFormed_toValues rest sound.2 after⟩

theorem wellFormed_toEntries
    (entries : List (HostObject × HostObject)) {written out : List (Key × Value)}
    (start : (Value.map written).WellFormed)
    (sound : SoundEntries entries)
    (result : toEntries written entries = .ok out) :
    (Value.map out).WellFormed := by
  cases entries with
  | nil =>
      cases result
      exact start
  | cons e rest =>
      obtain ⟨k, a⟩ := e
      obtain ⟨key, first, result⟩ := except_bind_eq_ok.mp result
      obtain ⟨v, second, result⟩ := except_bind_eq_ok.mp result
      obtain ⟨k', isKey, result⟩ := except_bind_eq_ok.mp result
      have hkey := wellFormed_toValue k sound.1 first
      rw [Value.asKey_eq_ok isKey, Value.wellFormed_toValue_iff] at hkey
      exact wellFormed_toEntries rest
        (Value.wellFormed_putEntry start hkey (wellFormed_toValue a sound.2.1 second)) sound.2.2 result

end

end HostObject

namespace Value

open HostObject (Sound SoundItems SoundEntries)

theorem sound_keyToHost
    (k : Key) :
    k.toHost.Sound := by
  cases k <;> trivial

mutual

/-- The object of a value holds no values, but perhaps references to functions. -/
theorem sound_toHost
    (v : Value) :
    v.toHost.Sound := by
  cases v with
  | list items => exact sound_toHostItems items
  | map entries => exact sound_toHostEntries entries trivial
  | _ => trivial

theorem sound_toHostItems
    (items : List Value) :
    SoundItems (toHostItems items) := by
  cases items with
  | nil => trivial
  | cons v rest => exact ⟨sound_toHost v, sound_toHostItems rest⟩

theorem sound_toHostEntries
    (entries : List (Key × Value))
    {written : List (HostObject × HostObject)}
    (start : SoundEntries written) :
    SoundEntries (toHostEntries written entries) := by
  cases entries with
  | nil => exact start
  | cons e rest =>
      obtain ⟨k, v⟩ := e
      exact sound_toHostEntries rest
        (HostObject.soundEntries_putEntry start (sound_keyToHost k) (sound_toHost v))

end

end Value

/-! ### Arguments -/

namespace ParamType

open HostObject (Sound SoundItems SoundEntries)

variable {convert? convertKey? : Value → Option HostObject}

theorem sound_convertItems?
    (sound : ∀ {v o}, v.WellFormed → convert? v = some o → o.Sound)
    {vs : List Value} {os : List HostObject}
    (wellFormed : ∀ v ∈ vs, v.WellFormed)
    (result : convertItems? convert? vs = some os) :
    SoundItems os := by
  induction vs generalizing os with
  | nil =>
      cases result
      trivial
  | cons v rest ih =>
      obtain ⟨hv, wellFormed⟩ := List.forall_mem_cons.mp wellFormed
      obtain ⟨a, first, result⟩ := Option.bind_eq_some_iff.mp result
      obtain ⟨others, after, ⟨⟩⟩ := Option.bind_eq_some_iff.mp result
      exact ⟨sound hv first, ih wellFormed after⟩

theorem sound_convertEntries?
    (soundKey : ∀ {v o}, v.WellFormed → convertKey? v = some o → o.Sound)
    (sound : ∀ {v o}, v.WellFormed → convert? v = some o → o.Sound)
    {entries : List (Key × Value)} {written out : List (HostObject × HostObject)}
    (wellFormed : ∀ e ∈ entries, Value.keyInRange e.1 ∧ e.2.WellFormed)
    (start : SoundEntries written)
    (result : convertEntries? convertKey? convert? written entries = some out) :
    SoundEntries out := by
  induction entries generalizing written with
  | nil =>
      cases result
      exact start
  | cons e rest ih =>
      obtain ⟨k, v⟩ := e
      obtain ⟨⟨hk, hv⟩, wellFormed⟩ := List.forall_mem_cons.mp wellFormed
      obtain ⟨key, first, result⟩ := Option.bind_eq_some_iff.mp result
      obtain ⟨item, second, result⟩ := Option.bind_eq_some_iff.mp result
      exact ih wellFormed (HostObject.soundEntries_putEntry start
        (soundKey (Value.wellFormed_toValue_iff.mpr hk) first) (sound hv second)) result

mutual

/-- A well-formed value is handed over as an object whose values are well-formed. -/
theorem sound_convert?
    (t : ParamType) {v : Value} {o : HostObject}
    (wellFormed : v.WellFormed)
    (result : t.convert? v = some o) :
    o.Sound := by
  cases t with
  | any | undeclared =>
      cases result
      exact Value.sound_toHost v
  | anyValue =>
      cases result
      exact wellFormed
  | variant name =>
      unfold ParamType.convert? at result
      split at result <;> cases result
      exact wellFormed
  | union members => exact sound_convertAmong? members wellFormed result
  | list item | sequence item | tuple item =>
      cases v with
      | list vs =>
          obtain ⟨os, converted, rfl⟩ := Option.map_eq_some_iff.mp result
          exact sound_convertItems? (sound_convert? item) (Value.wellFormed_list_iff.mp wellFormed)
            converted
      | _ => cases result
  | dict key item | mapping key item =>
      cases v with
      | map entries =>
          obtain ⟨os, converted, rfl⟩ := Option.map_eq_some_iff.mp result
          exact sound_convertEntries? (sound_convert? key) (sound_convert? item)
            (Value.wellFormed_map_iff.mp wellFormed).2 (show SoundEntries [] from trivial) converted
      | _ => cases result
  | _ => cases v <;> cases result <;> trivial

theorem sound_convertAmong?
    (ts : List ParamType) {v : Value} {o : HostObject}
    (wellFormed : v.WellFormed)
    (result : convertAmong? ts v = some o) :
    o.Sound := by
  cases ts with
  | nil => cases result
  | cons t rest =>
      rw [convertAmong?] at result
      cases taken : t.convert? v with
      | some o' =>
          rw [taken] at result
          cases result
          exact sound_convert? t wellFormed taken
      | none =>
          rw [taken] at result
          exact sound_convertAmong? rest wellFormed result

end

end ParamType

/-! ### Programs of the host -/

namespace HostProgram

/-- Whether a program ends with a sound object, if it ends with one.  Of what comes back from a
function it may assume that it is well-formed where it passed well-formed values. -/
def Sound : HostProgram → Prop
  | .finish result => result.Sound
  | .raise _ => True
  | .fail _ => True
  | .note _ next => Sound next
  | .resolve _ next => ∀ found, (∀ v, found = .ok v → v.WellFormed) → Sound (next found)
  | .variable _ next => ∀ found, (∀ v, found = some v → v.WellFormed) → Sound (next found)
  | .call _ args next =>
      ∀ found, ((∀ a ∈ args, a.WellFormed) → ∀ v, found = .ok v → v.WellFormed) →
        Sound (next found)

end HostProgram

/-- Whether the body of a function is sound on arguments that are. -/
def SoundBody (body : CallInfo → List HostObject → HostProgram) : Prop :=
  ∀ info args, (∀ a ∈ args, a.Sound) → (body info args).Sound

namespace HostFunction

variable {f : HostFunction} {args : List Value} {converted : List HostObject}

theorem sound_convertArgs
    {place : Nat}
    (wellFormed : ∀ v ∈ args, v.WellFormed)
    (result : f.convertArgs place args = .ok converted) :
    ∀ a ∈ converted, a.Sound := by
  induction args generalizing place converted with
  | nil =>
      cases result
      exact nofun
  | cons v rest ih =>
      obtain ⟨hv, wellFormed⟩ := List.forall_mem_cons.mp wellFormed
      rw [convertArgs] at result
      split at result
      · cases result
      split at result
      · cases result
      next taken =>
      obtain ⟨others, after, ⟨⟩⟩ := except_bind_eq_ok.mp result
      exact List.forall_mem_cons.mpr ⟨ParamType.sound_convert? _ hv taken, ih wellFormed after⟩

theorem sound_bind
    (wellFormed : ∀ v ∈ args, v.WellFormed)
    (result : f.bind args = .ok converted) :
    ∀ a ∈ converted, a.Sound := by
  unfold HostFunction.bind at result
  split at result
  · cases result
  · exact sound_convertArgs wellFormed result

theorem sound_select
    {fs : List HostFunction}
    (wellFormed : ∀ v ∈ args, v.WellFormed)
    (result : select args fs = some (f, converted)) :
    f ∈ fs ∧ ∀ a ∈ converted, a.Sound := by
  induction fs with
  | nil => cases result
  | cons g rest ih =>
      rw [select] at result
      split at result
      next taken =>
        cases result
        exact ⟨List.mem_cons_self, sound_bind wellFormed taken⟩
      · exact ⟨List.mem_cons_of_mem _ (ih result).1, (ih result).2⟩

/-- The function that serves a call is one of those of the name, and its arguments are sound. -/
theorem sound_choose
    {fs : List HostFunction} {name : String} {callSite : Option Nat}
    (wellFormed : ∀ v ∈ args, v.WellFormed)
    (result : choose name fs args callSite = .ok (f, converted)) :
    f ∈ fs ∧ ∀ a ∈ converted, a.Sound := by
  unfold choose at result
  split at result
  next g =>
    obtain ⟨_, taken, ⟨⟩⟩ := except_bind_eq_ok.mp result
    exact ⟨List.mem_singleton_self _, sound_bind wellFormed taken⟩
  · split at result
    next taken =>
      cases result
      exact sound_select wellFormed taken
    · cases result

theorem wellFormed_resultValue
    {o : HostObject} {v : Value}
    (sound : o.Sound)
    (result : f.resultValue o = .ok v) :
    v.WellFormed := by
  unfold resultValue at result
  split at result
  next isValue =>
    cases result
    exact HostObject.wellFormed_toValue o sound isValue
  · cases result
  · cases result

end HostFunction

/-! ### Scopes -/

/-- Whether all variables of a scope are well-formed and all its functions are sound. -/
structure Scope.Sound (s : Scope) : Prop where
  bindings : ∀ x ∈ s.bindings, x.2.WellFormed
  functions : ∀ x ∈ s.functions, ∀ f ∈ x.2, SoundBody f.body

/-- Scopes that are made by binding variables to objects and registering functions, all of them
sound. -/
inductive Scope.Built : Scope → Prop
  | empty : Built .empty
  | addVariable {s s' name object} :
      Built s → object.Sound → s.addVariable name object = .ok s' → Built s'
  | addFunction {s s' name signature body} :
      Built s → SoundBody body → s.addFunction name signature body = .ok s' → Built s'

namespace Scope

variable {s s' : Scope} {name : String}

theorem Sound.addVariable
    {object : HostObject}
    (sound : s.Sound)
    (hobject : object.Sound)
    (added : s.addVariable name object = .ok s') :
    s'.Sound := by
  unfold Scope.addVariable at added
  cases checked : checkName name with
  | error e =>
      rw [checked] at added
      cases added
  | ok _ =>
      rw [checked] at added
      simp only [bind, Except.bind] at added
      split at added
      · cases added
      split at added
      next v isValue =>
        cases added
        refine ⟨List.forall_mem_append.mpr ⟨sound.bindings, ?_⟩, sound.functions⟩
        simpa using HostObject.wellFormed_toValue object hobject isValue
      · cases added

theorem Sound.overloads
    {fs : List HostFunction}
    (sound : s.Sound)
    (found : s.overloads? name = some fs) :
    ∀ f ∈ fs, SoundBody f.body :=
  sound.functions _ (mem_of_lookup_eq_some found)

/-- Registering a function keeps its body. -/
theorem body_of_register
    {signature : Signature} {body : CallInfo → List HostObject → HostProgram} {f : HostFunction}
    (registered : HostFunction.register name signature body = .ok f) :
    f.body = body := by
  unfold HostFunction.register at registered
  split at registered <;> cases registered
  rfl

theorem Sound.addFunction
    {signature : Signature} {body : CallInfo → List HostObject → HostProgram}
    (sound : s.Sound)
    (hbody : SoundBody body)
    (added : s.addFunction name signature body = .ok s') :
    s'.Sound := by
  unfold Scope.addFunction at added
  split at added
  · cases added
  split at added
  · cases added
  next f registered =>
  cases added
  have new : SoundBody f.body := by rwa [body_of_register registered]
  have all : ∀ g ∈ (s.overloads? name).getD [] ++ [f], SoundBody g.body := by
    refine List.forall_mem_append.mpr ⟨?_, by simpa using new⟩
    cases found : s.overloads? name with
    | none => exact nofun
    | some fs => exact sound.overloads found
  refine ⟨sound.bindings, fun x member => ?_⟩
  exact (@Assoc.forall_mem_put _ _ _ (fun _ => True) (fun fs => ∀ g ∈ fs, SoundBody g.body) _ _ _
    (fun x member => ⟨trivial, sound.functions x member⟩) trivial all x member).2

/-- What is made of sound parts is sound. -/
theorem Built.sound
    (built : s.Built) :
    s.Sound := by
  induction built with
  | empty => exact ⟨nofun, nofun⟩
  | addVariable _ hobject added ih => exact ih.addVariable hobject added
  | addFunction _ hbody added ih => exact ih.addFunction hbody added

end Scope

/-! ### Contexts -/

namespace Context

variable {c : Context} {name : String}

theorem wellFormed_valueOf?
    {v : Value}
    (sound : ∀ s ∈ c, s.Sound)
    (found : c.valueOf? name = some v) :
    v.WellFormed := by
  obtain ⟨s, member, inScope⟩ := List.exists_of_findSome?_eq_some found
  exact (sound s member).bindings _ (mem_of_lookup_eq_some inScope)

theorem sound_overloads?
    {fs : List HostFunction}
    (sound : ∀ s ∈ c, s.Sound)
    (found : c.overloads? name = some fs) :
    ∀ f ∈ fs, SoundBody f.body := by
  obtain ⟨s, member, inScope⟩ := List.exists_of_findSome?_eq_some found
  exact (sound s member).overloads inScope

end Context

namespace Eval

open EvalM (KeepsScopes bind_eq_ok)
open Plan (GoodScopes GoodCalls)

variable {env : Environment} {s t : EvalState} {v : Value}

theorem wellFormed_lookup
    {name : String}
    (sound : ∀ scope ∈ env.context, scope.Sound)
    (found : lookup env name = .ok v) :
    v.WellFormed := by
  unfold lookup at found
  split at found
  next isBound =>
    cases found
    exact Context.wellFormed_valueOf? sound isBound
  · split at found <;> cases found
    trivial

theorem wellFormed_resolve
    {name : String}
    (sound : ∀ scope ∈ env.context, scope.Sound)
    (scopes : GoodScopes WellFormed s)
    (found : resolve env name s = (.ok v, t)) :
    v.WellFormed := by
  rw [resolve_apply] at found
  cases isBound : localValue? s.scopes name with
  | some w =>
      rw [isBound] at found
      cases found
      exact Plan.good_of_localValue? scopes isBound
  | none =>
      rw [isBound] at found
      cases known : lookup env name <;> rw [known] at found <;> cases found
      exact wellFormed_lookup sound known

section Calls

variable (sound : ∀ scope ∈ env.context, scope.Sound)
include sound

/-- A sound program gives a well-formed value if the calls that it makes do. -/
theorem wellFormed_runProgram
    {call : String → List Value → EvalM Value}
    (keeps : ∀ name args, KeepsScopes (call name args))
    (calls : ∀ name args s v t, (∀ a ∈ args, a.WellFormed) → GoodScopes WellFormed s →
      call name args s = (.ok v, t) → v.WellFormed)
    (f : HostFunction) :
    ∀ (program : HostProgram) {s v t}, program.Sound → GoodScopes WellFormed s →
      runProgram env call f program s = (.ok v, t) → v.WellFormed
  | .finish o, s, v, t, hprogram, _, ran => by
      rw [runProgram] at ran
      cases result : f.resultValue o <;> rw [result] at ran <;> cases ran
      exact HostFunction.wellFormed_resultValue hprogram result
  | .raise e, s, v, t, _, _, ran => by
      obtain ⟨_, _, _, ran⟩ := bind_eq_ok.mp ran
      cases ran
  | .fail e, s, v, t, _, _, ran => by cases ran
  | .note entry next, s, v, t, hprogram, scopes, ran => by
      obtain ⟨_, t', noted, ran⟩ := bind_eq_ok.mp ran
      have scopes' := scopes.of_keepsScopes (EvalM.keepsScopes_note entry) noted
      exact wellFormed_runProgram keeps calls f next hprogram scopes' ran
  | .resolve name next, s, v, t, hprogram, scopes, ran => by
      obtain ⟨found, t', resolved, ran⟩ := bind_eq_ok.mp ran
      have scopes' := scopes.of_keepsScopes (keepsScopes_resolve env name).outcome resolved
      refine wellFormed_runProgram keeps calls f _ (hprogram found fun w isValue => ?_) scopes' ran
      exact wellFormed_resolve sound scopes (EvalM.eq_ok_of_outcome resolved isValue)
  | .variable name next, s, v, t, hprogram, scopes, ran =>
      wellFormed_runProgram keeps calls f _
        (hprogram _ fun w found => Context.wellFormed_valueOf? sound found) scopes ran
  | .call function args next, s, v, t, hprogram, scopes, ran => by
      obtain ⟨found, t', called, ran⟩ := bind_eq_ok.mp ran
      have scopes' := scopes.of_keepsScopes (keeps function args).outcome called
      refine wellFormed_runProgram keeps calls f _ (hprogram found fun hargs w isValue => ?_)
        scopes' ran
      exact calls function args s w t' hargs scopes (EvalM.eq_ok_of_outcome called isValue)

/-- Calls with well-formed arguments give well-formed values. -/
theorem wellFormed_callFunction :
    GoodCalls env WellFormed := by
  intro depth callSite
  induction depth with
  | zero => exact fun _ _ _ _ _ _ _ ran => nomatch ran
  | succ depth ih =>
      intro name args s v t hargs scopes ran
      rw [callFunction] at ran
      rcases found : env.context.overloads? name with _ | functions <;> rw [found] at ran
      · cases ran
      obtain ⟨_, s₁, reported, ran⟩ := bind_eq_ok.mp ran
      have scopes₁ := scopes.of_keepsScopes (EvalM.keepsScopes_report env _) reported
      obtain ⟨⟨f, converted⟩, s₂, chosen, ran⟩ := bind_eq_ok.mp ran
      have scopes₂ := scopes₁.of_keepsScopes (EvalM.keepsScopes_ofOutcome _) chosen
      cases served : HostFunction.choose name functions args callSite <;>
        rw [served] at chosen <;> cases chosen
      obtain ⟨member, hconverted⟩ := HostFunction.sound_choose hargs served
      exact wellFormed_runProgram sound (keepsScopes_callFunction env depth callSite)
        (fun name args s v t => ih name args s v t) f _
        (Context.sound_overloads? sound found f member _ converted hconverted) scopes₂ ran

end Calls

end Eval
end ExprLang
