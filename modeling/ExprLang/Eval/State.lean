import ExprLang.Context

/-!
# The state of an evaluation

An evaluation keeps a stack of the variables that comprehensions have bound, a journal of the notes
that host functions left, and a trace of what it did if it is asked to keep one.  It ends with a
value, with a failure, or because expressions nest more deeply than it may go.
-/

namespace ExprLang

/-- What an evaluation reports of its doings. -/
inductive TraceEvent where
  | call (function : String) (types : List String)
  | comprehension (name target : String) (binders : List String)
  | raised (function : String) (exception : HostException)
  | compileFailed (count : Nat)
deriving DecidableEq, Repr

namespace TraceEvent

/-- The wording of a report. -/
def message : TraceEvent → String
  | call function types =>
      "[DBG] call " ++ function ++ " argc " ++ Number.natText types.length ++ " types " ++
        Value.describeList (types.map Text.Quoted.text)
  | comprehension name target binders =>
      "[DBG] macro " ++ name ++ " target " ++ target ++ " vars " ++
        Value.describeTuple (binders.map Text.Quoted.text)
  | raised function exception =>
      "native function " ++ Text.Quoted.text function ++ " raised " ++ exception.describe
  | compileFailed count => "compile failed with " ++ Number.natText count ++ " error(s)"

/-- The part of the engine that a report comes from. -/
def source : TraceEvent → String
  | call .. => "bel.bel_interpreter"
  | comprehension .. => "bel.bel_interpreter"
  | raised .. => "bel.bel_functions"
  | compileFailed _ => "bel.bel_runtime"

end TraceEvent

/-- The bindings that one step of a comprehension makes. -/
abbrev Bindings := List (String × Value)

/-- The state of an evaluation: the bindings of the comprehensions around the expression, the
innermost first, and the journal and the trace, the newest entry first. -/
structure EvalState where
  scopes : List Bindings
  journal : List String
  trace : List TraceEvent

/-- The state in which an evaluation starts. -/
def EvalState.initial : EvalState := ⟨[], [], []⟩

/-- How an evaluation ends without a value: with an error, at the node that it is attributed to,
or for lack of depth. -/
inductive Stop where
  | failure (error : RuntimeError) (node : Option Nat)
  | outOfDepth

/-- An evaluation with a result of type `α`. -/
abbrev EvalM (α : Type) := ExceptT Stop (StateM EvalState) α

/-- What an evaluation is run with. -/
structure Environment where
  context : Context
  debug : Bool

namespace EvalM

/-- Ends with an error that is not yet attributed to a node. -/
def fail {α : Type} (error : RuntimeError) : EvalM α :=
  throw (.failure error none)

/-- The value of an outcome, or its error. -/
def ofOutcome {α : Type} : Outcome α → EvalM α
  | .ok a => pure a
  | .error e => fail e

/-- Attributes the error of an evaluation to a node, unless it is attributed already. -/
def attributed {α : Type} (node : Nat) (m : EvalM α) : EvalM α := fun s =>
  match m s with
  | (.error (.failure error none), s') => (.error (.failure error (some node)), s')
  | result => result

/-- The outcome of an evaluation as a value of its own.  Lack of depth is passed on. -/
def outcome {α : Type} (m : EvalM α) : EvalM (Outcome α) := fun s =>
  match m s with
  | (.ok a, s') => (.ok (.ok a), s')
  | (.error (.failure error _), s') => (.ok (.error error), s')
  | (.error .outOfDepth, s') => (.error .outOfDepth, s')

/-- Runs an evaluation with one more set of bindings, which is gone afterwards whatever the
evaluation ended with. -/
def withBindings {α : Type} (bindings : Bindings) (m : EvalM α) : EvalM α := fun s =>
  let (result, s') := m { s with scopes := bindings :: s.scopes }
  (result, { s' with scopes := s'.scopes.tail })

/-- Leaves a note in the journal. -/
def note (entry : String) : EvalM Unit :=
  modify fun s => { s with journal := entry :: s.journal }

/-- Reports an event if a trace is kept. -/
def report (env : Environment) (event : TraceEvent) : EvalM Unit :=
  if env.debug then modify fun s => { s with trace := event :: s.trace } else pure ()

end EvalM
end ExprLang
