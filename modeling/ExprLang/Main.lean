import ExprLang.CommandLine
import ExprLang.Stdlib.Library
import Std.Time.DateTime.Timestamp

/-!
# The program

Reads the settings from the environment, then evaluates a file or holds a conversation over the
standard streams.
-/

namespace ExprLang
namespace Terminal

/-- Writes to both streams. -/
def emit (said : List CommandLine.Emission) : IO Unit := do
  let output ← IO.getStdout
  let errors ← IO.getStderr
  for e in said do
    match e with
    | .out text => output.putStr text
    | .err text =>
        output.flush
        errors.putStr text
        errors.flush
  output.flush

/-- Ends with an exception of the host. -/
def stopWith (className text : String) : IO UInt32 := do
  emit [.err (className ++ ": " ++ text ++ "\n")]
  pure 1

/-- The instant that the clock of the system shows. -/
def readClock : IO Time.Timestamp := do
  let now ← Std.Time.Timestamp.now
  let micros := now.toNanosecondsSinceUnixEpoch.val / 1000
  pure ((Time.Timestamp.ofEpochMicros? micros).getD .epoch)

/-- Answers lines until the conversation ends. -/
partial def converse (context : Context) (r : Runner) (input : IO.FS.Stream) : IO UInt32 := do
  emit [.out CommandLine.prompt]
  let line ← input.getLine
  if line.isEmpty then
    emit [.out CommandLine.farewell]
    pure 0
  else
    match CommandLine.answer context r line.toList with
    | .error e => stopWith e.className e.shownText
    | .ok (said, next) => do
        emit said
        match next with
        | some r => converse context r input
        | none => pure 0

/-- The variables of the environment that hold settings. -/
def readVariables : IO Variables := do
  let names := ["BEL_DEBUG", "BEL_MAX_NESTING_DEPTH", "BEL_PROGRAM_CACHE_SIZE"]
  let found ← names.mapM fun name => do pure ((← IO.getEnv name).map fun content => (name, content))
  pure found.reduceOption

/-- What a file holds, if it can be read. -/
def readNamed (path : String) : IO (Option String) :=
  try
    pure (some (← IO.FS.readFile path))
  catch _ =>
    pure none

/-- Runs the program with its arguments, and gives the exit code. -/
def start (arguments : List String) : IO UInt32 := do
  match Config.standard.override (← readVariables) with
  | .error fault => stopWith "ValueError" fault.message
  | .ok config => do
      let context : Context := [.standard (← readClock)]
      let r := Runner.start config
      match CommandLine.fileOf? arguments with
      | none => do
          emit [.out CommandLine.greeting]
          converse context r (← IO.getStdin)
      | some path =>
          match ← readNamed path with
          | none => do
              emit (CommandLine.missingFile path)
              pure 1
          | some content =>
              match CommandLine.evaluateFile context r content with
              | .error e => stopWith e.className e.shownText
              | .ok (said, code) => do
                  emit said
                  pure code.toUInt32

end Terminal
end ExprLang

def main (arguments : List String) : IO UInt32 :=
  ExprLang.Terminal.start arguments
