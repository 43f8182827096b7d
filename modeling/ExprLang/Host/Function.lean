import ExprLang.Host.ParamType

/-!
# Host functions

A host function takes converted arguments and runs a `HostProgram`: it may look at the evaluation
that called it, call functions in its turn, leave notes in the journal of the run, and ends with an
object, an exception of the host, or an error of the language.
-/

namespace ExprLang

/-- An exception of the host: the name of its class and its text, if it has one. -/
structure HostException where
  className : String
  text : Option String
deriving DecidableEq, Repr, Inhabited

namespace HostException

/-- The text of an exception; a key error shows its text quoted. -/
def shownText (e : HostException) : String :=
  match e.text with
  | none => ""
  | some text => if e.className = "KeyError" then Text.Quoted.text text else text

/-- What an exception says: its text, or its class where that is empty. -/
def detail (e : HostException) : String :=
  if e.shownText = "" then e.className else e.shownText

/-- An exception with its arguments. -/
def describe (e : HostException) : String :=
  e.className ++ "(" ++ ((e.text.map Text.Quoted.text).getD "") ++ ")"

end HostException

/-- What a host function does, step by step. -/
inductive HostProgram where
  /-- Ends with an object. -/
  | finish (result : HostObject)
  /-- Ends with an exception of the host. -/
  | raise (exception : HostException)
  /-- Ends with an error of the language. -/
  | fail (error : RuntimeError)
  /-- Leaves a note in the journal. -/
  | note (entry : String) (next : HostProgram)
  /-- Looks up a name as an expression at the call site would. -/
  | resolve (name : String) (next : Outcome Value → HostProgram)
  /-- Looks up a variable of the context. -/
  | variable (name : String) (next : Option Value → HostProgram)
  /-- Calls a function by name. -/
  | call (function : String) (args : List Value) (next : Outcome Value → HostProgram)

namespace HostProgram

/-- Ends with a value, or with the error that came in its place. -/
def ofOutcome : Outcome Value → HostProgram
  | .ok v => finish (.value v)
  | .error e => fail e

/-- Calls a function that is given as an object, by name or by reference.  No other object is the
name of a function. -/
def callObject (function : HostObject) (args : List HostObject) : HostProgram :=
  match HostObject.toValues args with
  | .error e => fail e
  | .ok values =>
      match function with
      | .text name => call name values ofOutcome
      | .value (.function name) => call name values ofOutcome
      | .value v =>
          if v.isHashable then fail (.undeclaredReference v.describe)
          else raise ⟨"TypeError", some "unhashable type: 'Map'"⟩
      | .list _ => raise ⟨"TypeError", some "unhashable type: 'list'"⟩
      | .dict _ => raise ⟨"TypeError", some "unhashable type: 'dict'"⟩
      | other => fail (.undeclaredReference other.shownText)

end HostProgram

/-- What a host function can know about the call it serves. -/
structure CallInfo where
  name : String
  callSite : Option Nat
deriving DecidableEq, Repr

/-- The error that a host function signals for itself. -/
def CallInfo.error (info : CallInfo) (detail : String) : RuntimeError :=
  .functionError info.name detail

/-- The parameters of a host function: positional ones, of which the last `optional` may be left
out, and perhaps any number more. -/
structure Signature where
  params : List ParamType
  optional : Nat
  rest : Option ParamType
  /-- Whether the function asks for the call it serves. -/
  wantsCall : Bool
  /-- A parameter that can be given by name only and has no default. -/
  namedOnly : Option String

/-- Why a host function cannot be registered. -/
inductive RegistrationError where
  | unsupportedType (shown : String)
  | namedOnly (function parameter : String)
deriving DecidableEq, Repr

/-- The wording of an error. -/
def RegistrationError.message : RegistrationError → String
  | unsupportedType shown => "Unsupported parameter annotation: " ++ shown
  | namedOnly function parameter =>
      function ++ ": keyword-only parameter '" ++ parameter ++ "' needs a default"

/-- A registered host function. -/
structure HostFunction where
  name : String
  params : List ParamType
  required : Nat
  rest : Option ParamType
  wantsCall : Bool
  body : CallInfo → List HostObject → HostProgram

namespace HostFunction

/-- Registers a function under a name, if its parameters are supported. -/
def register (name : String) (s : Signature) (body : CallInfo → List HostObject → HostProgram) :
    Except RegistrationError HostFunction :=
  match ParamType.unsupportedAmong? (s.params ++ s.rest.toList), s.namedOnly with
  | some shown, _ => .error (.unsupportedType shown)
  | none, some parameter => .error (.namedOnly name parameter)
  | none, none => .ok ⟨name, s.params, s.params.length - s.optional, s.rest, s.wantsCall, body⟩

/-- How many arguments a function takes. -/
def arity (f : HostFunction) : String :=
  if f.rest.isSome then "at least " ++ Number.natText f.required
  else if f.required = f.params.length then Number.natText f.required
  else Number.natText f.required ++ " to " ++ Number.natText f.params.length

/-- A function inside messages. -/
def describe (f : HostFunction) : String :=
  "<NativeFunction " ++ f.name ++ "/" ++ f.arity ++ ">"

/-- The type of the parameter that takes the argument at a place, counted from zero. -/
def paramAt? (f : HostFunction) (place : Nat) : Option ParamType :=
  f.params[place]?.or f.rest

/-- Converts arguments one by one; `place` is the place of the first, counted from zero. -/
def convertArgs (f : HostFunction) : Nat → List Value → Outcome (List HostObject)
  | _, [] => .ok []
  | place, v :: vs =>
      match f.paramAt? place with
      | none => .error (.arityMismatch f.name f.arity (place + 1 + vs.length))
      | some t =>
          match t.convert? v with
          | none =>
              .error (.typeMismatch t.expected v.typeName (some ⟨place + 1, f.name⟩))
          | some a => do
              let others ← convertArgs f (place + 1) vs
              pure (a :: others)

/-- Checks the number of arguments and converts them. -/
def bind (f : HostFunction) (args : List Value) : Outcome (List HostObject) :=
  if args.length < f.required ∨ (f.rest.isNone ∧ f.params.length < args.length) then
    .error (.arityMismatch f.name f.arity args.length)
  else
    f.convertArgs 0 args

/-- The first of several functions that takes the arguments, with the arguments converted. -/
def select (args : List Value) : List HostFunction → Option (HostFunction × List HostObject)
  | [] => none
  | f :: rest =>
      match f.bind args with
      | .ok converted => some (f, converted)
      | .error _ => select args rest

/-- The function that serves a call.  A function that stands alone reports what is wrong with the
arguments; of several the first that takes them is chosen. -/
def choose (name : String) (functions : List HostFunction) (args : List Value)
    (callSite : Option Nat) : Outcome (HostFunction × List HostObject) :=
  match functions with
  | [f] => do
      let converted ← f.bind args
      pure (f, converted)
  | fs =>
      match select args fs with
      | some chosen => .ok chosen
      | none => .error (.noSuchOverload name (args.map Value.typeName) callSite)

/-- The value of what a function returned.  An integer out of range is reported as it is; any other
object without a value is the function's fault. -/
def resultValue (f : HostFunction) (result : HostObject) : Outcome Value :=
  match result.toValue with
  | .ok v => .ok v
  | .error (.overflow op operands) => .error (.overflow op operands)
  | .error e =>
      .error (.functionError f.name ("cannot convert return value: " ++ e.message))

end HostFunction
end ExprLang
