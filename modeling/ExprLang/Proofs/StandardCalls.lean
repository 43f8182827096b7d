import ExprLang.Program
import ExprLang.Proofs.Attribution
import ExprLang.Proofs.DurationReading
import ExprLang.Proofs.TimestampReading
import ExprLang.Stdlib.Library

/-!
# Calls of standard functions

Every name of the standard library stands for one function, which is found under it, and a call of
that function gives what its body ends with.

* `overloads?_standard`: the function of a name.
* `Yields`: what an evaluation ends with, wherever it starts.
* `yields_entry`, `callFunction_standard`: a call of a standard function.
* `callFunction_timestamp`, `callFunction_duration`, `callFunction_regex` and
  `callFunction_double`: the functions that read a value from its text.
* `yields_string`: the function that writes it.
-/

namespace ExprLang
namespace Stdlib

/-! ### Registration -/

/-- The names of the standard functions. -/
def names : List String := [
  "size", "length", "contains", "starts_with", "startsWith", "ends_with", "endsWith", "matches",
  "max", "min", "String", "string", "Bytes", "bytes", "Float", "double", "Int", "int", "UInt",
  "uint", "Regex", "Duration", "duration", "Timestamp", "timestamp", "year", "getFullYear",
  "month", "getMonth", "getDayOfYear", "getDayOfMonth", "getDate", "getDayOfWeek", "getHours",
  "getMinutes", "seconds", "getSeconds", "milliseconds", "getMilliseconds", "unix", "now"]

theorem map_fst_entries
    (now : Time.Timestamp) :
    (entries now).map (·.1) = names := by
  rfl

theorem nodup_names : names.Nodup := by
  decide +kernel

theorem checkName_of_mem_names :
    ∀ name ∈ names, (checkName name).isOk = true := by
  decide +kernel

/-- The parameters of every standard function are supported. -/
theorem register_entries
    (now : Time.Timestamp) :
    (entries now).all (fun e =>
      (ParamType.unsupportedAmong? (e.2.signature.params ++ e.2.signature.rest.toList)).isNone &&
        e.2.signature.namedOnly.isNone) = true := by
  rfl

/-- The function that an entry becomes. -/
def Entry.function (entry : Entry) (name : String) : HostFunction where
  name := name
  params := entry.signature.params
  required := entry.signature.params.length - entry.signature.optional
  rest := entry.signature.rest
  wantsCall := entry.signature.wantsCall
  body := entry.body

/-- Registering an entry under a name that is valid adds its function there. -/
theorem addEntry_eq
    {name : String} {entry : Entry}
    (valid : (checkName name).isOk = true)
    (supported : ParamType.unsupportedAmong?
      (entry.signature.params ++ entry.signature.rest.toList) = none)
    (noNamed : entry.signature.namedOnly = none)
    (scope : Scope) :
    addEntry scope name entry = scope.putFunction name (entry.function name) := by
  have register : HostFunction.register name entry.signature entry.body =
      .ok (entry.function name) := by
    simp [HostFunction.register, supported, noNamed, Entry.function]
  rw [addEntry, Scope.addFunction]
  cases check : checkName name with
  | error e => simp [check, Except.isOk, Except.toBool] at valid
  | ok _ => simp [register]

/-- Adds entries to a scope one after another. -/
def addEntries (scope : Scope) (listed : List (String × Entry)) : Scope :=
  listed.foldl (fun scope (name, entry) => addEntry scope name entry) scope

theorem addEntries_cons
    (scope : Scope)
    (name : String)
    (entry : Entry)
    (rest : List (String × Entry)) :
    addEntries scope ((name, entry) :: rest) = addEntries (addEntry scope name entry) rest := by
  rfl

/-- Whether entries can be registered under their names. -/
def Registrable (listed : List (String × Entry)) : Prop :=
  ∀ name entry, (name, entry) ∈ listed → ∀ scope : Scope,
    addEntry scope name entry = scope.putFunction name (entry.function name)

theorem registrable_entries
    (now : Time.Timestamp) :
    Registrable (entries now) := by
  intro name entry member scope
  have valid : name ∈ names := by
    rw [← map_fst_entries now]
    exact List.mem_map_of_mem (f := (·.1)) member
  have supported := List.all_eq_true.mp (register_entries now) _ member
  rw [Bool.and_eq_true, Option.isNone_iff_eq_none, Option.isNone_iff_eq_none] at supported
  exact addEntry_eq (checkName_of_mem_names name valid) supported.1 supported.2 scope

/-- Entries of other names leave the functions of a name as they are. -/
theorem overloads?_addEntries_other
    {name : String} {listed : List (String × Entry)}
    (registrable : Registrable listed)
    (absent : name ∉ listed.map (·.1))
    (scope : Scope) :
    (addEntries scope listed).overloads? name = scope.overloads? name := by
  induction listed generalizing scope with
  | nil => rfl
  | cons e listed ih =>
      obtain ⟨other, entry⟩ := e
      simp only [List.map_cons, List.mem_cons, not_or] at absent
      rw [addEntries_cons, ih (fun name entry h => registrable name entry (by simp [h])) absent.2,
        registrable other entry (by simp)]
      exact Assoc.lookup_put_other absent.1 _

/-- Under a name that had no function the one of its entry is found. -/
theorem overloads?_addEntries
    {name : String} {entry : Entry} {listed : List (String × Entry)}
    (registrable : Registrable listed)
    (distinct : (listed.map (·.1)).Nodup)
    (member : (name, entry) ∈ listed)
    {scope : Scope}
    (unused : scope.overloads? name = none) :
    (addEntries scope listed).overloads? name = some [entry.function name] := by
  induction listed generalizing scope with
  | nil => cases member
  | cons e listed ih =>
      obtain ⟨other, first⟩ := e
      have rest : Registrable listed := fun name entry h => registrable name entry (by simp [h])
      simp only [List.map_cons, List.nodup_cons] at distinct
      have added := registrable other first (by simp) scope
      rw [addEntries_cons, added]
      rcases List.mem_cons.mp member with same | later
      · cases same
        rw [overloads?_addEntries_other rest distinct.1, Scope.putFunction, unused]
        exact Assoc.lookup_put_self _
      · have differs : name ≠ other := by
          rintro rfl
          exact distinct.1 (List.mem_map_of_mem (f := (·.1)) later)
        exact ih rest distinct.2 later ((Assoc.lookup_put_other differs _).trans unused)

/-- Adding entries binds no variable. -/
theorem bindings_addEntries
    {listed : List (String × Entry)}
    (registrable : Registrable listed)
    (scope : Scope) :
    (addEntries scope listed).bindings = scope.bindings := by
  induction listed generalizing scope with
  | nil => rfl
  | cons e listed ih =>
      obtain ⟨name, entry⟩ := e
      rw [addEntries_cons, ih (fun name entry h => registrable name entry (by simp [h])),
        registrable name entry (by simp)]
      rfl

end Stdlib

open Stdlib

variable {now : Time.Timestamp}

theorem standard_eq_addEntries
    (now : Time.Timestamp) :
    Scope.standard now = addEntries .empty (entries now) := by
  rfl

/-- The function of a name of the standard library. -/
theorem overloads?_standard
    {name : String} {entry : Entry}
    (member : (name, entry) ∈ entries now) :
    Context.overloads? [Scope.standard now] name = some [entry.function name] := by
  have distinct : ((entries now).map (·.1)).Nodup := by
    rw [map_fst_entries]
    exact nodup_names
  have unused : Scope.empty.overloads? name = none := rfl
  have found := overloads?_addEntries (registrable_entries now) distinct member unused
  simp [Context.overloads?, standard_eq_addEntries, found]

theorem hasFunction_standard
    {name : String}
    (member : name ∈ names) :
    Context.hasFunction [Scope.standard now] name = true := by
  rw [← map_fst_entries now] at member
  obtain ⟨⟨_, entry⟩, listed, rfl⟩ := List.mem_map.mp member
  rw [Context.hasFunction, overloads?_standard listed]
  rfl

theorem valueOf?_standard
    (name : String) :
    Context.valueOf? [Scope.standard now] name = none := by
  have none : (addEntries .empty (entries now)).bindings = [] :=
    bindings_addEntries (registrable_entries now) .empty
  simp [Context.valueOf?, Scope.valueOf?, standard_eq_addEntries, none]

namespace Eval

/-! ### What an evaluation yields -/

/-- Whether an evaluation yields an outcome, whatever state it starts in and whichever node an
error is attributed to. -/
def Yields
    {α : Type}
    (m : EvalM α)
    (outcome : Outcome α) : Prop :=
  ∀ s, ∃ node, (m s).1 = outcome.mapError (.failure · node)

namespace Yields

variable {α β : Type}

theorem eq_ok
    {m : EvalM α} {a : α}
    (h : Yields m (.ok a))
    (s : EvalState) :
    (m s).1 = .ok a := by
  obtain ⟨_, same⟩ := h s
  exact same

/-- An evaluation yields no two outcomes. -/
theorem unique
    {m : EvalM α} {x y : Outcome α}
    (first : Yields m x)
    (second : Yields m y) :
    x = y := by
  obtain ⟨_, one⟩ := first .initial
  obtain ⟨_, other⟩ := second .initial
  have same := one.symm.trans other
  cases x <;> cases y <;> simp_all [Except.mapError]

theorem ofOutcome
    (outcome : Outcome α) :
    Yields (EvalM.ofOutcome outcome) outcome := by
  intro s
  refine ⟨none, ?_⟩
  cases outcome <;> rfl

/-- A sequence yields what the second evaluation does for the value of the first, if there is
one. -/
theorem bind
    {m : EvalM α} {f : α → EvalM β} {x : Outcome α} {g : α → Outcome β}
    (first : Yields m x)
    (second : ∀ a, x = .ok a → Yields (f a) (g a)) :
    Yields (m >>= f) (x >>= g) := by
  intro s
  obtain ⟨node, same⟩ := first s
  rw [EvalM.bind_apply]
  rcases ran : m s with ⟨result, s'⟩
  rw [ran] at same
  obtain rfl : result = _ := same
  cases x with
  | error e => exact ⟨node, rfl⟩
  | ok a => exact second a rfl s'

/-- A sequence yields what the second evaluation does for the value of the first. -/
theorem bind_ok
    {m : EvalM α} {f : α → EvalM β} {a : α} {x : Outcome β}
    (first : Yields m (.ok a))
    (second : Yields (f a) x) :
    Yields (m >>= f) x := by
  have both : Yields (m >>= f) ((.ok a : Outcome α) >>= fun _ => x) := by
    refine first.bind fun b same => ?_
    cases same
    exact second
  exact both

theorem attributed
    {m : EvalM α} {x : Outcome α}
    (h : Yields m x)
    (node : Nat) :
    Yields (EvalM.attributed node m) x := by
  intro s
  obtain ⟨place, same⟩ := h s
  unfold EvalM.attributed
  rcases ran : m s with ⟨result, s'⟩
  rw [ran] at same
  obtain rfl : result = _ := same
  cases x with
  | ok a => exact ⟨none, rfl⟩
  | error e =>
      -- The attribution names a node only where there was none; the error is the same.
      cases place with
      | none => exact ⟨some node, rfl⟩
      | some place => exact ⟨some place, rfl⟩

theorem report
    (env : Environment)
    (event : TraceEvent) :
    Yields (EvalM.report env event) (.ok ()) := by
  intro s
  rw [EvalM.report_apply]
  exact ⟨none, rfl⟩

variable {env : Environment} {call : String → List Value → EvalM Value} {f : HostFunction}

theorem finish
    {result : HostObject} {v : Value}
    (value : result.toValue = .ok v) :
    Yields (runProgram env call f (.finish result)) (.ok v) := by
  have given : f.resultValue result = .ok v := by
    rw [HostFunction.resultValue, value]
  rw [runProgram, given]
  exact ofOutcome (.ok v)

theorem fail
    (e : RuntimeError) :
    Yields (runProgram env call f (.fail e)) (.error e) := by
  rw [runProgram]
  exact ofOutcome (.error e)

theorem raise
    (e : HostException) :
    Yields (runProgram env call f (.raise e)) (.error (.functionError f.name e.detail)) := by
  rw [runProgram]
  exact (report env _).bind_ok (ofOutcome (.error _))

end Yields

/-! ### Calls -/

/-- A call of a function that stands alone under its name yields what the body does. -/
theorem yields_callFunction
    {env : Environment} {name : String} {f : HostFunction} {args : List Value}
    {converted : List HostObject} {site : Option Nat} {depth : Nat} {outcome : Outcome Value}
    (found : env.context.overloads? name = some [f])
    (bound : f.bind args = .ok converted)
    (body : Yields (runProgram env (callFunction env depth site) f (f.body ⟨name, site⟩ converted))
      outcome) :
    Yields (callFunction env (depth + 1) site name args) outcome := by
  have chosen : HostFunction.choose name [f] args site = .ok (f, converted) := by
    rw [HostFunction.choose, bound]
    rfl
  rw [callFunction]
  simp only [found, chosen, EvalM.ofOutcome_ok, pure_bind]
  exact (Yields.report env _).bind_ok body

/-- A call of the function of an entry whose body ends with an object yields the value of the
object. -/
theorem yields_entry
    {env : Environment} {name : String} {entry : Entry} {args : List Value} {v : Value}
    {site : Option Nat}
    (converted : List HostObject)
    (result : HostObject)
    (found : env.context.overloads? name = some [entry.function name])
    (bound : (entry.function name).bind args = .ok converted)
    (ends : entry.body ⟨name, site⟩ converted = .finish result)
    (value : result.toValue = .ok v)
    (depth : Nat) :
    Yields (callFunction env (depth + 1) site name args) (.ok v) := by
  have run : (entry.function name).body ⟨name, site⟩ converted = .finish result := ends
  refine yields_callFunction found bound ?_
  rw [run]
  exact .finish value

/-- A call of a standard function whose body ends with an object gives the value of the object. -/
theorem callFunction_standard
    {name : String} {entry : Entry} {args : List Value} {v : Value} {debug : Bool}
    {site : Option Nat}
    (converted : List HostObject)
    (result : HostObject)
    (member : (name, entry) ∈ entries now)
    (bound : (entry.function name).bind args = .ok converted)
    (ends : entry.body ⟨name, site⟩ converted = .finish result)
    (value : result.toValue = .ok v)
    (depth : Nat)
    (s : EvalState) :
    (callFunction ⟨[Scope.standard now], debug⟩ (depth + 1) site name args s).1 = .ok v :=
  (yields_entry converted result (overloads?_standard member) bound ends value depth).eq_ok s

/-- Whether a call of a standard function with some arguments comes to an outcome, wherever it is
made. -/
def Answers
    (now : Time.Timestamp)
    (name : String)
    (args : List Value)
    (outcome : Outcome Value) : Prop :=
  ∀ debug depth site,
    Yields (callFunction ⟨[Scope.standard now], debug⟩ (depth + 1) site name args) outcome

/-- A standard function whose body ends with an outcome comes to it. -/
theorem answers_of_outcome
    {name : String} {entry : Entry} {args : List Value} {outcome : Outcome Value}
    {converted : List HostObject}
    (member : (name, entry) ∈ entries now)
    (bound : (entry.function name).bind args = .ok converted)
    (ends : ∀ site, entry.body ⟨name, site⟩ converted = .ofOutcome outcome) :
    Answers now name args outcome := by
  intro debug depth site
  refine yields_callFunction (overloads?_standard member) bound ?_
  show Yields (runProgram _ _ _ (entry.body ⟨name, site⟩ converted)) outcome
  rw [ends]
  cases outcome with
  | ok v => exact .finish rfl
  | error e => exact .fail e

/-! ### Functions between values and their texts -/

section Texts

variable {debug : Bool} {site : Option Nat}

/-- The timestamp that a text denotes. -/
theorem yields_timestamp
    {env : Environment} {text : String} {t : Time.Timestamp}
    (found : env.context.overloads? "timestamp" = some [timestampEntry.function "timestamp"])
    (reads : Time.Timestamp.read text = .ok t)
    (depth : Nat) :
    Yields (callFunction env (depth + 1) site "timestamp" [.string text]) (.ok (.timestamp t)) := by
  refine yields_entry [.value (.string text)] (.timestamp t) found rfl ?_ rfl depth
  change toTimestamp text = _
  rw [toTimestamp, reads]

/-- A text that denotes no timestamp is an error of the function, which says why. -/
theorem yields_timestamp_refused
    {env : Environment} {text : String} {e : Time.TimestampError}
    (found : env.context.overloads? "timestamp" = some [timestampEntry.function "timestamp"])
    (refused : Time.Timestamp.read text = .error e)
    (depth : Nat) :
    Yields (callFunction env (depth + 1) site "timestamp" [.string text])
      (.error (.functionError "timestamp" e.message)) := by
  have raises : (timestampEntry.function "timestamp").body ⟨"timestamp", site⟩
      [.value (.string text)] = .raise (valueException e.message) := by
    change toTimestamp text = _
    rw [toTimestamp, refused]
  have detail : (valueException e.message).detail = e.message := by
    simp [valueException, HostException.detail, HostException.shownText, e.message_ne_empty]
  have bound : (timestampEntry.function "timestamp").bind [.string text] =
      .ok [.value (.string text)] := rfl
  have raised : Yields (runProgram env (callFunction env depth site)
      (timestampEntry.function "timestamp") (.raise (valueException e.message)))
      (.error (.functionError "timestamp" (valueException e.message).detail)) := .raise _
  rw [detail] at raised
  refine yields_callFunction found bound ?_
  rw [raises]
  exact raised

/-- The duration that a text denotes. -/
theorem yields_duration
    {env : Environment} {text : String} {d : Time.Duration}
    (found : env.context.overloads? "duration" = some [durationEntry.function "duration"])
    (reads : Time.Duration.read text = .ok d)
    (depth : Nat) :
    Yields (callFunction env (depth + 1) site "duration" [.string text]) (.ok (.duration d)) := by
  refine yields_entry [.value (.string text)] (.duration d) found rfl ?_ rfl depth
  change toDuration text = _
  rw [toDuration, reads]

/-- The text of a value. -/
theorem yields_string
    {env : Environment} {text : String} {v : Value}
    (found : env.context.overloads? "string" = some [textEntry.function "string"])
    (written : textOf v = some text)
    (depth : Nat) :
    Yields (callFunction env (depth + 1) site "string" [v]) (.ok (.string text)) := by
  refine yields_entry [.value v] (.text text) found rfl ?_ rfl depth
  change toText _ v = _
  rw [toText, written]

theorem callFunction_timestamp
    {text : String} {t : Time.Timestamp}
    (reads : Time.Timestamp.read text = .ok t)
    (depth : Nat)
    (s : EvalState) :
    (callFunction ⟨[Scope.standard now], debug⟩ (depth + 1) site "timestamp" [.string text] s).1 =
      .ok (.timestamp t) := by
  have member : ("timestamp", timestampEntry) ∈ entries now := by simp [entries]
  exact (yields_timestamp (overloads?_standard member) reads depth).eq_ok s

theorem callFunction_duration
    {text : String} {d : Time.Duration}
    (reads : Time.Duration.read text = .ok d)
    (depth : Nat)
    (s : EvalState) :
    (callFunction ⟨[Scope.standard now], debug⟩ (depth + 1) site "duration" [.string text] s).1 =
      .ok (.duration d) := by
  have member : ("duration", durationEntry) ∈ entries now := by simp [entries]
  exact (yields_duration (overloads?_standard member) reads depth).eq_ok s

theorem callFunction_regex
    {pattern : String} {regex : Regex.Pattern}
    (reads : Regex.parsePattern pattern.toList = .ok regex)
    (depth : Nat)
    (s : EvalState) :
    (callFunction ⟨[Scope.standard now], debug⟩ (depth + 1) site "Regex" [.string pattern] s).1 =
      .ok (.regex pattern) := by
  have member : ("Regex", regexEntry) ∈ entries now := by simp [entries]
  refine callFunction_standard [.text pattern] (.pattern pattern) member rfl ?_ rfl depth s
  change makeRegex pattern = _
  rw [makeRegex, reads]

theorem callFunction_double
    {text : String} {f : Float}
    (reads : Number.readFloat? text.toList = some f)
    (depth : Nat)
    (s : EvalState) :
    (callFunction ⟨[Scope.standard now], debug⟩ (depth + 1) site "double" [.string text] s).1 =
      .ok (.float f) := by
  have member : ("double", floatEntry) ∈ entries now := by simp [entries]
  refine callFunction_standard [.value (.string text)] (.float f) member rfl ?_ rfl depth s
  change toFloat _ (.string text) = _
  simp only [toFloat, reads]

end Texts

end Eval
end ExprLang
