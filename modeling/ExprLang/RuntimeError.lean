import ExprLang.Value.Describe

/-!
# Errors of evaluation

Each way in which an evaluation can fail is a constructor of `RuntimeError` that carries what the
failure is about.  `RuntimeError.message` is the one place where failures are put into words,
`RuntimeError.kind` names their kind and `RuntimeError.title` heads them in a report.
-/

namespace ExprLang

/-- What an overflowing operation was applied to. -/
inductive Operand where
  | number (n : Int)
  | moment (t : Time.Timestamp)
  | length (d : Time.Duration)
  | value (v : Value)
  | nothing

/-- An operand inside a message. -/
def Operand.describe : Operand → String
  | number n => Number.intText n
  | moment t => Value.describeTimestamp t
  | length d => Time.describeLength d.micros
  | value v => v.describe
  | nothing => "None"

/-- Where a value of the wrong type was met: an argument, counted from one, of a function. -/
structure ArgumentPosition where
  position : Nat
  function : String
deriving DecidableEq, Repr

/-- The causes of a failing evaluation. -/
inductive RuntimeError where
  | undeclaredReference (name : String)
  | typeMismatch (expected got : String) (argument : Option ArgumentPosition)
  | arityMismatch (function expected : String) (got : Nat)
  | noSuchOverload (function : String) (argumentTypes : List String) (callSite : Option Nat)
  | divisionByZero (op : String) (dividend : Int)
  | overflow (op : String) (operands : List Operand)
  | indexOutOfRange (index : Int) (size : Nat)
  | noSuchField (name : String)
  | noSuchKey (key : Key)
  | unsupportedOperation (op : String) (types : List String)
  | valuesNotComparable (left right : Value)
  | unsupportedKeyType (type : String)
  | functionError (function detail : String)
  | evaluationDepthExceeded

namespace RuntimeError

/-- The wording of an error. -/
def message : RuntimeError → String
  | undeclaredReference name => "Undeclared reference to '" ++ name ++ "'"
  | typeMismatch expected got none => "Expected " ++ expected ++ ", got " ++ got
  | typeMismatch expected got (some argument) =>
      "Expected " ++ expected ++ " for argument " ++ Number.natText argument.position ++
        (if argument.function = "" then "" else " of '" ++ argument.function ++ "'") ++
        ", got " ++ got
  | arityMismatch function expected got =>
      "Function '" ++ function ++ "' expected " ++ expected ++ " arguments, got " ++
        Number.natText got
  | noSuchOverload function types callSite =>
      "No such overload for '" ++ function ++ "(" ++ ", ".intercalate types ++ ")'" ++
        (match callSite with
          | some node => " at expression #" ++ Number.natText node
          | none => "")
  | divisionByZero op dividend =>
      (if op = "%" then "Remainder" else "Division") ++ " by zero of " ++ Number.intText dividend
  | overflow op operands =>
      "Overflow from operator '" ++ op ++ "': " ++ " ".intercalate (operands.map Operand.describe)
  | indexOutOfRange index size =>
      "Index " ++ Number.intText index ++ " out of range for size " ++ Number.natText size
  | noSuchField name => "No such key: " ++ name
  | noSuchKey key => "No such key: " ++ Value.describeKey key
  | unsupportedOperation op types =>
      "Unsupported operator '" ++ op ++ "' for " ++ ", ".intercalate types
  | valuesNotComparable left right =>
      "Values not comparable: " ++ left.describe ++ " and " ++ right.describe
  | unsupportedKeyType type => "Unsupported key type: " ++ type
  | functionError function detail =>
      "Error executing function '" ++ function ++ "': " ++ detail
  | evaluationDepthExceeded => "Evaluation exceeded the maximum recursion depth"

/-- The kind of an error, as hosts tell errors apart. -/
def kind : RuntimeError → String
  | undeclaredReference _ => "undeclared-reference"
  | typeMismatch .. => "type-mismatch"
  | arityMismatch .. => "arity-mismatch"
  | noSuchOverload .. => "no-such-overload"
  | divisionByZero .. => "division-by-zero"
  | overflow .. => "overflow"
  | indexOutOfRange .. => "index-out-of-range"
  | noSuchField _ => "no-such-key"
  | noSuchKey _ => "no-such-key"
  | unsupportedOperation .. => "unsupported-operation"
  | valuesNotComparable .. => "values-not-comparable"
  | unsupportedKeyType _ => "unsupported-key-type"
  | functionError .. => "function-error"
  | evaluationDepthExceeded => "evaluation-depth-exceeded"

/-- The heading of an error in a report. -/
def title : RuntimeError → String
  | undeclaredReference _ => "UndeclaredReference"
  | typeMismatch .. => "TypeMismatch"
  | arityMismatch .. => "ArityMismatch"
  | noSuchOverload .. => "NoSuchOverload"
  | divisionByZero .. => "DivisionByZero"
  | overflow .. => "Overflow"
  | indexOutOfRange .. => "IndexOutOfRange"
  | noSuchField _ => "NoSuchKey"
  | noSuchKey _ => "NoSuchKey"
  | unsupportedOperation .. => "UnsupportedOperation"
  | valuesNotComparable .. => "ValuesNotComparable"
  | unsupportedKeyType _ => "UnsupportedKeyType"
  | functionError .. => "FunctionError"
  | evaluationDepthExceeded => "EvaluationDepthExceeded"

end RuntimeError

/-- A value, or the cause of a failure. -/
abbrev Outcome (α : Type) := Except RuntimeError α

end ExprLang
