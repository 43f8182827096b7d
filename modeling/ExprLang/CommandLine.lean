import ExprLang.Config.Environment
import ExprLang.Runner
import ExprLang.Value.Printer

/-!
# The command line

Without arguments, lines are read and answered one after another until `exit` or the end of the
input.  With the name of a file, the expression in the file is evaluated.  Values go to the output,
errors and the trace to the error stream.
-/

namespace ExprLang
namespace CommandLine

/-- A piece of text for one of the two streams. -/
inductive Emission where
  | out (text : String)
  | err (text : String)
deriving DecidableEq, Repr

/-- What goes to the output. -/
def outText (es : List Emission) : String :=
  String.join (es.map fun e =>
    match e with
    | .out text => text
    | .err _ => "")

/-- What goes to the error stream. -/
def errText (es : List Emission) : String :=
  String.join (es.map fun e =>
    match e with
    | .out _ => ""
    | .err text => text)

/-- What is said at the start of a conversation. -/
def greeting : String :=
  "BEL REPL\nType 'exit' or press Ctrl+D to quit.\n"

/-- What asks for a line. -/
def prompt : String := ">> "

/-- What is said at the end of the input. -/
def farewell : String := "\nExiting.\n"

/-- What a report says: its trace, and then the value or the error. -/
def ofReport (r : Report) : List Emission :=
  r.trace.map (fun e => .err ("DEBUG:" ++ e.source ++ ":" ++ e.message ++ "\n")) ++
    match r.result with
    | .ok v => [.out (v.print .standard 0 ++ "\n")]
    | .error _ => [.err (r.format ++ "\n")]

/-- The answer to a line, and the runner to go on with; there is none after `exit`. -/
def answer (context : Context) (r : Runner) (line : List Char) :
    Except HostException (List Emission × Option Runner) :=
  let source := Text.strip line
  if source.isEmpty then .ok ([], some r)
  else if source = "exit".toList then .ok ([], none)
  else
    match r.run context source with
    | (.ok report, r) => .ok (ofReport report, some r)
    | (.error e, _) => .error e

/-- A conversation over the lines of an input. -/
def converse (context : Context) (r : Runner) :
    List (List Char) → Except HostException (List Emission)
  | [] => .ok [.out prompt, .out farewell]
  | line :: rest => do
      let (said, next) ← answer context r line
      match next with
      | none => pure (.out prompt :: said)
      | some r => do
          let more ← converse context r rest
          pure (.out prompt :: said ++ more)

/-- The lines of an input; a break at its end begins no further line. -/
def linesOf (cs : List Char) : List (List Char) :=
  match cs with
  | [] => []
  | c :: rest =>
      if c = '\n' then [] :: linesOf rest
      else
        match linesOf rest with
        | [] => [[c]]
        | line :: more => (c :: line) :: more

/-- What is said about a file that is missing. -/
def missingFile (path : String) : List Emission :=
  [.err ("Error: file not found: " ++ path ++ "\n")]

/-- What the expression in a file comes to, and the exit code. -/
def evaluateFile (context : Context) (r : Runner) (content : String) :
    Except HostException (List Emission × Nat) :=
  match r.run context (Text.unifyBreaks content.toList) with
  | (.ok report, _) => .ok (ofReport report, if report.result.toOption.isSome then 0 else 1)
  | (.error e, _) => .error e

/-- The file that the arguments name: the first argument, unless it starts with a dash. -/
def fileOf? : List String → Option String
  | [] => none
  | first :: _ => if first.startsWith "-" then none else some first

/-- Everything that is said, and the exit code, given the arguments, what the named file holds if it
exists, and the input. -/
def run (config : Config) (context : Context) (arguments : List String)
    (file : Option String) (input : String) : Except HostException (List Emission × Nat) :=
  let r := Runner.start config
  match fileOf? arguments with
  | some path =>
      match file with
      | none => .ok (missingFile path, 1)
      | some content => evaluateFile context r content
  | none => do
      let said ← converse context r (linesOf input.toList)
      pure (.out greeting :: said, 0)

end CommandLine
end ExprLang
