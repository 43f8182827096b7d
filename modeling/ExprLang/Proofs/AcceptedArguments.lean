import Mathlib.Data.Nat.Find
import ExprLang.Proofs.CoupledCalls

/-!
# The arguments that functions accept

A parameter type stands for the values that it takes, by recursion on the type.  A function takes
arguments if there are as many as its signature asks for and each is among the values of the type of its
parameter; otherwise the number of the arguments is reported, or the first argument that is not.  Of
several functions under one name the first that takes the arguments serves a call.

* `ParamType.Takes`, `isSome_convert?_iff`: a value is converted if and only if the type takes it.
* `convertArgs_of_takes`, `convertArgs_of_refuses`: arguments one by one.
* `Declaration.bindsBy_function`: arguments that are bound, and the errors of those that are not.
* `select_of_first`, `choose_of_refuse`: the choice among several functions.
* `functions_accept_by_type`: registration, binding and calls.
-/

namespace ExprLang

/-! ### The values of a type -/

namespace ParamType

mutual

/-- Whether a value is one of the values that a type stands for. -/
def Takes : ParamType → Value → Prop
  | any, _ => True
  | undeclared, _ => True
  | anyValue, _ => True
  | bool, v => ∃ b, v = .bool b
  | int, v => (∃ n, v = .int n) ∨ ∃ n, v = .uint n
  | float, v => ∃ f, v = .float f
  | text, v => ∃ s, v = .string s
  | octets, v => ∃ data, v = .bytes data
  | none, v => v = .null
  | timestamp, v => ∃ t, v = .timestamp t
  | duration, v => ∃ d, v = .duration d
  | pattern, v => ∃ source, v = .regex source
  | list item, v => ∃ vs, v = .list vs ∧ ∀ w ∈ vs, item.Takes w
  | sequence item, v => ∃ vs, v = .list vs ∧ ∀ w ∈ vs, item.Takes w
  | tuple item, v => ∃ vs, v = .list vs ∧ ∀ w ∈ vs, item.Takes w
  | dict key item, v =>
      ∃ entries, v = .map entries ∧ ∀ e ∈ entries, key.Takes e.1.toValue ∧ item.Takes e.2
  | mapping key item, v =>
      ∃ entries, v = .map entries ∧ ∀ e ∈ entries, key.Takes e.1.toValue ∧ item.Takes e.2
  | variant name, v => v.typeName = name
  | union members, v => TakenAmong members v
  | unsupported _, _ => False

/-- Whether a value is one of the values that one of several types stands for. -/
def TakenAmong : List ParamType → Value → Prop
  | [], _ => False
  | t :: rest, v => t.Takes v ∨ TakenAmong rest v

end

variable {convert? convertKey? : Value → Option HostObject} {P Q : Value → Prop} {t : ParamType}
  {ts : List ParamType} {v : Value}

theorem takenAmong_iff :
    TakenAmong ts v ↔ ∃ t ∈ ts, t.Takes v := by
  induction ts with
  | nil => simp [TakenAmong]
  | cons t ts ih => rw [TakenAmong, ih, List.exists_mem_cons_iff]

theorem isSome_convertItems?_iff
    (each : ∀ v, (convert? v).isSome ↔ P v)
    (vs : List Value) :
    (convertItems? convert? vs).isSome ↔ ∀ v ∈ vs, P v := by
  induction vs with
  | nil => exact ⟨nofun, fun _ => rfl⟩
  | cons v vs ih =>
      rw [List.forall_mem_cons, ← ih, ← each, convertItems?]
      cases convert? v <;> cases convertItems? convert? vs <;> simp

theorem isSome_convertEntries?_iff
    (eachKey : ∀ v, (convertKey? v).isSome ↔ P v)
    (each : ∀ v, (convert? v).isSome ↔ Q v)
    (entries : List (Key × Value))
    (written : List (HostObject × HostObject)) :
    (convertEntries? convertKey? convert? written entries).isSome ↔
      ∀ e ∈ entries, P e.1.toValue ∧ Q e.2 := by
  induction entries generalizing written with
  | nil => exact ⟨nofun, fun _ => rfl⟩
  | cons e entries ih =>
      obtain ⟨k, v⟩ := e
      rw [List.forall_mem_cons, ← eachKey, ← each, convertEntries?]
      cases convertKey? k.toValue with
      | none => simp
      | some key =>
          cases convert? v with
          | none => simp
          -- Whether the rest is converted does not depend on what is written.
          | some item => simpa using ih (HostObject.putEntry written key item)

mutual

/-- A value is converted if and only if the type takes it. -/
theorem isSome_convert?_iff
    (t : ParamType) (v : Value) :
    (t.convert? v).isSome ↔ t.Takes v := by
  cases t with
  | any | undeclared | anyValue => exact ⟨fun _ => trivial, fun _ => rfl⟩
  | list item | sequence item | tuple item =>
      cases v with
      | list vs =>
          have items := isSome_convertItems?_iff (isSome_convert?_iff item) vs
          simpa [convert?, Takes] using items
      | _ => simp [convert?, Takes]
  | dict key item | mapping key item =>
      cases v with
      | map entries =>
          have written := isSome_convertEntries?_iff (isSome_convert?_iff key)
            (isSome_convert?_iff item) entries []
          simpa [convert?, Takes] using written
      | _ => simp [convert?, Takes]
  | variant name => simp [convert?, Takes]
  | union members => exact isSome_convertAmong?_iff members v
  | _ => cases v <;> simp [convert?, Takes]

theorem isSome_convertAmong?_iff
    (ts : List ParamType) (v : Value) :
    (convertAmong? ts v).isSome ↔ TakenAmong ts v := by
  cases ts with
  | nil => simp [convertAmong?, TakenAmong]
  | cons t rest =>
      rw [convertAmong?, TakenAmong, ← isSome_convert?_iff t v, ← isSome_convertAmong?_iff rest v]
      cases t.convert? v <;> simp

end

theorem convert?_eq_none_iff :
    t.convert? v = Option.none ↔ ¬t.Takes v := by
  rw [← isSome_convert?_iff, Option.not_isSome_iff_eq_none]

theorem unsupportedAmong?_eq_none_iff :
    unsupportedAmong? ts = Option.none ↔ ∀ t ∈ ts, t.unsupported? = Option.none := by
  induction ts with
  | nil => exact ⟨nofun, fun _ => rfl⟩
  | cons t ts ih =>
      rw [List.forall_mem_cons, ← ih, unsupportedAmong?]
      cases t.unsupported? <;> simp

end ParamType

/-! ### The arguments of a signature -/

namespace Signature

variable {s : Signature} {args : List Value} {place : Nat} {v : Value}

/-- How many arguments must be given. -/
def required (s : Signature) : Nat :=
  s.params.length - s.optional

/-- Whether a function with this signature can be registered. -/
def Supported (s : Signature) : Prop :=
  (∀ t ∈ s.params ++ s.rest.toList, t.unsupported? = none) ∧ s.namedOnly = none

/-- Whether so many arguments can be given. -/
def Fits (s : Signature) (count : Nat) : Prop :=
  s.required ≤ count ∧ (s.rest = none → count ≤ s.params.length)

/-- The type of the parameter that takes the argument at a place, counted from zero. -/
def paramAt? (s : Signature) (place : Nat) : Option ParamType :=
  s.params[place]?.or s.rest

/-- Whether the argument at a place, if there is one, is taken by its parameter. -/
def TakesAt (s : Signature) (args : List Value) (place : Nat) : Prop :=
  ∀ v, args[place]? = some v → ∃ t, s.paramAt? place = some t ∧ t.Takes v

/-- Whether these arguments can be given. -/
def Accepts (s : Signature) (args : List Value) : Prop :=
  s.Fits args.length ∧ ∀ place, s.TakesAt args place

/-- Whether the argument at a place is the first that its parameter does not take. -/
def RefusesFirst (s : Signature) (args : List Value) (place : Nat) (t : ParamType) (v : Value) :
    Prop :=
  args[place]? = some v ∧ s.paramAt? place = some t ∧ ¬t.Takes v ∧
    ∀ earlier < place, s.TakesAt args earlier

/-- Where as many arguments as fit are given, each has a parameter. -/
theorem exists_paramAt?
    (fits : s.Fits args.length)
    (here : args[place]? = some v) :
    ∃ t, s.paramAt? place = some t := by
  obtain ⟨inside, -⟩ := List.getElem?_eq_some_iff.mp here
  cases rest : s.rest with
  | some t => exact ⟨_, by rw [paramAt?, rest, Option.or_some]⟩
  | none =>
      have inside : place < s.params.length := inside.trans_le (fits.2 rest)
      exact ⟨s.params[place], by rw [paramAt?, List.getElem?_eq_getElem inside, Option.some_or]⟩

/-- Arguments that are not accepted although as many fit have a first one that is refused. -/
theorem exists_refusesFirst
    (fits : s.Fits args.length)
    (refused : ¬s.Accepts args) :
    ∃ place t v, s.RefusesFirst args place t v := by
  have somewhere : ∃ place, ¬s.TakesAt args place := by
    by_contra nowhere
    exact refused ⟨fits, not_exists_not.mp nowhere⟩
  obtain ⟨place, refusedHere, first⟩ : ∃ place, ¬s.TakesAt args place ∧
      ∀ earlier < place, s.TakesAt args earlier := by
    classical
    exact ⟨Nat.find somewhere, Nat.find_spec somewhere, fun earlier before =>
      not_not.mp (Nat.find_min somewhere before)⟩
  simp only [TakesAt, not_forall, not_exists, not_and] at refusedHere
  obtain ⟨v, here, refuses⟩ := refusedHere
  obtain ⟨t, param⟩ := exists_paramAt? fits here
  exact ⟨place, t, v, here, param, refuses t param, first⟩

end Signature

namespace HostFunction

variable {f : HostFunction} {args : List Value} {place : Nat}

/-- Arguments are converted if each of them is taken by its parameter. -/
theorem convertArgs_of_takes
    (takes : ∀ i v, args[i]? = some v → ∃ t, f.paramAt? (place + i) = some t ∧ t.Takes v) :
    ∃ converted, f.convertArgs place args = .ok converted := by
  induction args generalizing place with
  | nil => exact ⟨[], rfl⟩
  | cons v vs ih =>
      obtain ⟨t, param, takes'⟩ := takes 0 v rfl
      obtain ⟨a, isConverted⟩ := Option.isSome_iff_exists.mp
        ((ParamType.isSome_convert?_iff t v).mpr takes')
      have rest : ∀ i w, vs[i]? = some w →
          ∃ u, f.paramAt? (place + 1 + i) = some u ∧ u.Takes w := fun i w here => by
        rw [Nat.add_assoc, Nat.add_comm 1 i]
        exact takes (i + 1) w here
      obtain ⟨others, areConverted⟩ := ih rest
      refine ⟨a :: others, ?_⟩
      rw [convertArgs, show f.paramAt? place = some t from param]
      simp only [isConverted, areConverted]
      rfl

/-- The first argument that its parameter does not take is reported with its place. -/
theorem convertArgs_of_refuses
    {i : Nat} {t : ParamType} {v : Value}
    (here : args[i]? = some v)
    (param : f.paramAt? (place + i) = some t)
    (refuses : ¬t.Takes v)
    (before : ∀ j < i, ∀ w, args[j]? = some w →
      ∃ u, f.paramAt? (place + j) = some u ∧ u.Takes w) :
    f.convertArgs place args =
      .error (.typeMismatch t.expected v.typeName (some ⟨place + i + 1, f.name⟩)) := by
  induction args generalizing place i with
  | nil => cases here
  | cons w ws ih =>
      cases i with
      | zero =>
          cases here
          rw [convertArgs, show f.paramAt? place = some t from param]
          simp only [ParamType.convert?_eq_none_iff.mpr refuses, Nat.add_zero]
      | succ i =>
          obtain ⟨u, first, takes⟩ := before 0 (Nat.succ_pos i) w rfl
          obtain ⟨a, isConverted⟩ := Option.isSome_iff_exists.mp
            ((ParamType.isSome_convert?_iff u w).mpr takes)
          have shift : ∀ j, place + 1 + j = place + (j + 1) := fun j => by omega
          have later : f.convertArgs (place + 1) ws = .error (.typeMismatch t.expected v.typeName
              (some ⟨place + 1 + i + 1, f.name⟩)) :=
            ih here (shift i ▸ param) fun j less w here =>
              shift j ▸ before (j + 1) (Nat.succ_lt_succ less) w here
          rw [convertArgs, show f.paramAt? place = some u from first]
          simp only [isConverted, later, shift]
          rfl

/-- How a function that is declared with a signature binds arguments. -/
structure BindsBy (f : HostFunction) (s : Signature) : Prop where
  /-- Arguments are bound if and only if they are accepted. -/
  accepted (args : List Value) :
    (∃ converted, f.bind args = .ok converted) ↔ s.Accepts args
  /-- Where their number does not fit, it is reported. -/
  miscounted (args : List Value) (noFit : ¬s.Fits args.length) :
    f.bind args = .error (.arityMismatch f.name f.arity args.length)
  /-- Else the first that is refused is reported, with its place counted from one. -/
  refused (args : List Value) (fits : s.Fits args.length) (unaccepted : ¬s.Accepts args) :
    ∃ place t v, s.RefusesFirst args place t v ∧
      f.bind args = .error (.typeMismatch t.expected v.typeName (some ⟨place + 1, f.name⟩))

end HostFunction

/-- A function as it is declared: its parameters and what it does. -/
structure Declaration where
  signature : Signature
  body : CallInfo → List HostObject → HostProgram

namespace Declaration

/-- The function that is declared, under a name. -/
def function (d : Declaration) (name : String) : HostFunction where
  name := name
  params := d.signature.params
  required := d.signature.required
  rest := d.signature.rest
  wantsCall := d.signature.wantsCall
  body := d.body

variable {d : Declaration} {args : List Value}

theorem register_eq_function
    (supported : d.signature.Supported)
    (name : String) :
    HostFunction.register name d.signature d.body = .ok (d.function name) := by
  rw [HostFunction.register, ParamType.unsupportedAmong?_eq_none_iff.mpr supported.1, supported.2]
  rfl

theorem bind_of_fits
    (name : String)
    (fits : d.signature.Fits args.length) :
    (d.function name).bind args = (d.function name).convertArgs 0 args := by
  refine if_neg ?_
  rintro (few | ⟨noRest, many⟩)
  · exact not_lt.mpr fits.1 few
  · exact not_lt.mpr (fits.2 (Option.isNone_iff_eq_none.mp noRest)) many

theorem bind_of_not_fits
    (name : String)
    (noFit : ¬d.signature.Fits args.length) :
    (d.function name).bind args =
      .error (.arityMismatch name (d.function name).arity args.length) := by
  refine if_pos ?_
  rw [Signature.Fits, not_and_or, not_le, Classical.not_imp, not_le] at noFit
  exact noFit.imp_right fun many => ⟨Option.isNone_iff_eq_none.mpr many.1, many.2⟩

theorem bind_of_accepts
    (name : String)
    (accepts : d.signature.Accepts args) :
    ∃ converted, (d.function name).bind args = .ok converted := by
  rw [bind_of_fits name accepts.1]
  refine HostFunction.convertArgs_of_takes fun i v here => ?_
  rw [Nat.zero_add]
  exact accepts.2 i v here

theorem bind_of_refusesFirst
    {place : Nat} {t : ParamType} {v : Value}
    (name : String)
    (fits : d.signature.Fits args.length)
    (first : d.signature.RefusesFirst args place t v) :
    (d.function name).bind args =
      .error (.typeMismatch t.expected v.typeName (some ⟨place + 1, name⟩)) := by
  obtain ⟨here, param, refuses, before⟩ := first
  have reported : (d.function name).convertArgs 0 args =
      .error (.typeMismatch t.expected v.typeName (some ⟨0 + place + 1, name⟩)) :=
    HostFunction.convertArgs_of_refuses here (by rwa [Nat.zero_add]) refuses
      fun j less w here => by
        rw [Nat.zero_add]
        exact before j less w here
  rw [Nat.zero_add] at reported
  exact (bind_of_fits name fits).trans reported

theorem bindsBy_function
    (d : Declaration)
    (name : String) :
    (d.function name).BindsBy d.signature where
  accepted args := by
    refine ⟨?_, bind_of_accepts name⟩
    rintro ⟨converted, bound⟩
    by_contra unaccepted
    by_cases fits : d.signature.Fits args.length
    · obtain ⟨place, t, v, first⟩ := Signature.exists_refusesFirst fits unaccepted
      cases bound.symm.trans (bind_of_refusesFirst name fits first)
    · cases bound.symm.trans (bind_of_not_fits name fits)
  miscounted _ := bind_of_not_fits name
  refused args fits unaccepted := by
    obtain ⟨place, t, v, first⟩ := Signature.exists_refusesFirst fits unaccepted
    exact ⟨place, t, v, first, bind_of_refusesFirst name fits first⟩

theorem refuses_function
    (name : String)
    (unaccepted : ¬d.signature.Accepts args) :
    ∀ converted, (d.function name).bind args ≠ .ok converted :=
  fun converted bound => unaccepted (((bindsBy_function d name).accepted args).mp ⟨converted, bound⟩)

end Declaration

/-! ### The choice among several functions -/

namespace HostFunction

variable {f : HostFunction} {fs before after : List HostFunction} {args : List Value}
  {converted : List HostObject} {name : String} {callSite : Option Nat}

/-- Functions that do not take the arguments are passed over. -/
theorem select_append_of_refuse
    (refuse : ∀ g ∈ before, ∀ converted, g.bind args ≠ .ok converted)
    (fs : List HostFunction) :
    select args (before ++ fs) = select args fs := by
  induction before with
  | nil => rfl
  | cons g before ih =>
      obtain ⟨here, others⟩ := List.forall_mem_cons.mp refuse
      rw [List.cons_append, select]
      cases taken : g.bind args with
      | ok converted => exact absurd taken (here converted)
      | error e => exact ih others

theorem select_of_first
    (refuse : ∀ g ∈ before, ∀ converted, g.bind args ≠ .ok converted)
    (bound : f.bind args = .ok converted) :
    select args (before ++ f :: after) = some (f, converted) := by
  rw [select_append_of_refuse refuse, select, bound]

theorem select_of_refuse
    (refuse : ∀ g ∈ fs, ∀ converted, g.bind args ≠ .ok converted) :
    select args fs = none := by
  rw [← List.append_nil fs, select_append_of_refuse refuse, select]

/-- Where none of several functions takes the arguments, the types of the arguments are reported. -/
theorem choose_of_refuse
    (several : fs.length ≠ 1)
    (refuse : ∀ g ∈ fs, ∀ converted, g.bind args ≠ .ok converted) :
    choose name fs args callSite = .error (.noSuchOverload name (args.map Value.typeName) callSite) := by
  unfold choose
  split
  -- A function that stands alone would report its own error.
  · exact absurd rfl several
  · rw [select_of_refuse refuse]

end HostFunction

/-! ### Registration, binding and calls -/

namespace Eval

open EvalM (fail)

variable {env : Environment} {name : String} {fs : List HostFunction} {args : List Value}
  {callSite : Option Nat} {f : HostFunction} {converted : List HostObject}

/-- A call runs the function that is chosen, with the arguments converted. -/
theorem callFunction_of_choose
    (visible : env.context.overloads? name = some fs)
    (isChosen : HostFunction.choose name fs args callSite = .ok (f, converted))
    (depth : Nat) :
    callFunction env (depth + 1) callSite name args = (do
      EvalM.report env (.call name (args.map Value.typeName))
      runProgram env (callFunction env depth callSite) f (f.body ⟨name, callSite⟩ converted)) := by
  rw [callFunction, visible]
  simp only [isChosen]
  rfl

/-- A call for which no function is chosen runs none. -/
theorem callFunction_of_choose_error
    {error : RuntimeError}
    (visible : env.context.overloads? name = some fs)
    (failed : HostFunction.choose name fs args callSite = .error error)
    (depth : Nat) :
    callFunction env (depth + 1) callSite name args = (do
      EvalM.report env (.call name (args.map Value.typeName))
      fail error) := by
  rw [callFunction, visible]
  simp only [failed]
  rfl

/-- How the calls of a name are served in an environment where functions are registered under it in
the order in which they are declared. -/
structure ServesCalls (env : Environment) (name : String) (declared : List Declaration) : Prop where
  /-- The first function that accepts the arguments is run. -/
  first
    (depth : Nat) (callSite : Option Nat) (args : List Value)
    (before : List Declaration) (d : Declaration) (after : List Declaration)
    (inOrder : declared = before ++ d :: after)
    (refuse : ∀ e ∈ before, ¬e.signature.Accepts args)
    (accepts : d.signature.Accepts args) :
    ∃ converted, (d.function name).bind args = .ok converted ∧
      callFunction env (depth + 1) callSite name args = (do
        EvalM.report env (.call name (args.map Value.typeName))
        runProgram env (callFunction env depth callSite) (d.function name)
          (d.body ⟨name, callSite⟩ converted))
  /-- Where there are several and none accepts the arguments, none is run. -/
  none
    (depth : Nat) (callSite : Option Nat) (args : List Value)
    (several : declared.length ≠ 1)
    (refuse : ∀ d ∈ declared, ¬d.signature.Accepts args) :
    callFunction env (depth + 1) callSite name args = (do
      EvalM.report env (.call name (args.map Value.typeName))
      fail (.noSuchOverload name (args.map Value.typeName) callSite))
  /-- A function that stands alone reports its own error. -/
  alone
    (depth : Nat) (callSite : Option Nat) (args : List Value)
    (d : Declaration)
    (error : RuntimeError)
    (only : declared = [d])
    (failed : (d.function name).bind args = .error error) :
    callFunction env (depth + 1) callSite name args = (do
      EvalM.report env (.call name (args.map Value.typeName))
      fail error)

theorem servesCalls
    {declared : List Declaration}
    (visible : env.context.overloads? name = some (declared.map fun d => d.function name)) :
    ServesCalls env name declared where
  first depth callSite args before d after inOrder refuse accepts := by
    obtain ⟨converted, bound⟩ := Declaration.bind_of_accepts name accepts
    refine ⟨converted, bound, callFunction_of_choose visible (HostFunction.choose_eq_ok.mpr ?_) depth⟩
    rw [inOrder, List.map_append, List.map_cons]
    refine HostFunction.select_of_first ?_ bound
    exact List.forall_mem_map.mpr fun e member => Declaration.refuses_function name (refuse e member)
  none depth callSite args several refuse := by
    refine callFunction_of_choose_error visible (HostFunction.choose_of_refuse ?_ ?_) depth
    · rwa [List.length_map]
    · exact List.forall_mem_map.mpr fun d member => Declaration.refuses_function name (refuse d member)
  alone depth callSite args d error only failed := by
    subst only
    refine callFunction_of_choose_error visible ?_ depth
    rw [List.map_singleton, HostFunction.choose, failed]
    rfl

end Eval

/-- Functions whose parameters have supported types are registered.  Each binds arguments if and only if
there are as many as fit its signature and each is among the values of the type of its parameter, and
reports their number, or else the first that is not.  A call by a name that several functions have is
served by the first that accepts the arguments. -/
theorem functions_accept_by_type
    (name : String)
    (declared : List Declaration)
    (supported : ∀ d ∈ declared, d.signature.Supported) :
    (∀ d ∈ declared, HostFunction.register name d.signature d.body = .ok (d.function name) ∧
      (d.function name).BindsBy d.signature) ∧
    ∀ env : Environment,
      env.context.overloads? name = some (declared.map fun d => d.function name) →
      Eval.ServesCalls env name declared :=
  ⟨fun d member => ⟨Declaration.register_eq_function (supported d member) name, d.bindsBy_function name⟩,
    fun _ visible => Eval.servesCalls visible⟩

/-- Two functions under one name, one with a parameter that may be left out, one with any number more. -/
theorem functions_accept_by_type_mixed :
    let ofList : Declaration :=
      ⟨⟨[.list .int, .union [.text, .none]], 1, none, false, none⟩, fun _ _ => .finish .none⟩
    let ofMap : Declaration :=
      ⟨⟨[.dict .text .anyValue], 0, some .bool, true, none⟩, fun info _ => .finish (.text info.name)⟩
    let f := [ofList.function "f", ofMap.function "f"]
    let env : Environment := ⟨[⟨[], [("f", f)]⟩], false⟩
    let entries := Value.map [(.string "a", .bytes [])]
    ofList.signature.Accepts [.list [.int 1, .uint 2], .null] ∧
      ¬ofList.signature.Accepts [entries, .bool true] ∧
      (∃ place t v, ofList.signature.RefusesFirst [.list [.int 1, .null], .int 2] place t v ∧
        (ofList.function "f").bind [.list [.int 1, .null], .int 2] =
          .error (.typeMismatch t.expected v.typeName (some ⟨place + 1, "f"⟩))) ∧
      Eval.callFunction env 1 none "f" [entries, .bool true] =
        (do EvalM.report env (.call "f" ["map", "bool"])
            Eval.runProgram env (Eval.callFunction env 0 none) (ofMap.function "f")
              (.finish (.text "f"))) ∧
      Eval.callFunction env 1 none "f" [entries, .null] =
        (do EvalM.report env (.call "f" ["map", "null"])
            EvalM.fail (.noSuchOverload "f" ["map", "null"] none)) := by
  intro ofList ofMap f env entries
  have supported : ∀ d ∈ [ofList, ofMap], d.signature.Supported :=
    List.forall_mem_cons.mpr ⟨⟨ParamType.unsupportedAmong?_eq_none_iff.mp rfl, rfl⟩,
      List.forall_mem_singleton.mpr ⟨ParamType.unsupportedAmong?_eq_none_iff.mp rfl, rfl⟩⟩
  obtain ⟨functions, calls⟩ := functions_accept_by_type "f" [ofList, ofMap] supported
  obtain ⟨⟨-, list⟩, others⟩ := List.forall_mem_cons.mp functions
  obtain ⟨-, map⟩ := List.forall_mem_singleton.mp others
  have served := calls env rfl
  have noList : ∀ v, ¬ofList.signature.Accepts [entries, v] := by
    intro v accepts
    obtain ⟨converted, bound⟩ := (list.accepted _).mpr accepts
    cases bound
  have noMap : ¬ofMap.signature.Accepts [entries, .null] := by
    intro accepts
    obtain ⟨converted, bound⟩ := (map.accepted _).mpr accepts
    cases bound
  refine ⟨(list.accepted _).mp ⟨_, rfl⟩, noList _, list.refused _ ⟨by decide, fun _ => by decide⟩ ?_,
    ?_, ?_⟩
  · intro accepts
    obtain ⟨converted, bound⟩ := (list.accepted _).mpr accepts
    cases bound
  · obtain ⟨converted, -, called⟩ := served.first 0 none [entries, .bool true] [ofList] ofMap [] rfl
      (List.forall_mem_singleton.mpr (noList _)) ((map.accepted _).mp ⟨_, rfl⟩)
    exact called
  · exact served.none 0 none [entries, .null] (by decide) (List.forall_mem_cons.mpr
      ⟨noList _, List.forall_mem_singleton.mpr noMap⟩)

end ExprLang
