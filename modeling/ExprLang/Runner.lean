import ExprLang.Program

/-!
# Runners

A runner compiles and executes source texts one after another.  It keeps the programs that were
used last, the least recently used first, and reports every outcome instead of stopping.
-/

namespace ExprLang

/-- Programs by their source text, the least recently used first. -/
abbrev ProgramCache := List (List Char × Program)

namespace ProgramCache

/-- The program of a source text. -/
def find? (cache : ProgramCache) (source : List Char) : Option Program :=
  cache.lookup source

/-- Makes the program of a source text the last used one. -/
def touch (cache : ProgramCache) (source : List Char) (p : Program) : ProgramCache :=
  cache.filter (fun entry => entry.1 != source) ++ [(source, p)]

/-- Drops the programs that were not used for longest, so that at most `size` remain. -/
def trim (cache : ProgramCache) (size : Nat) : ProgramCache :=
  cache.drop (cache.length - size)

/-- The source texts of the cached programs. -/
def sources (cache : ProgramCache) : List String :=
  cache.map fun entry => String.ofList entry.1

end ProgramCache

/-- Why a runner has no program for a source text. -/
inductive CompileFailure where
  | problems (found : List Problem)
  /-- The cache was asked to give up a program when it held none, as happens if it may hold less
  than nothing. -/
  | cacheExhausted

/-- The exception that stands for an exhausted cache. -/
def cacheExhaustedException : HostException :=
  ⟨"KeyError", some "dictionary is empty"⟩

/-- A runner: its settings and its cache. -/
structure Runner where
  config : Config
  cache : ProgramCache

namespace Runner

/-- A runner that has run nothing. -/
def start (config : Config) : Runner := ⟨config, []⟩

/-- The program of a source text, from the cache or compiled and cached. -/
def compile (r : Runner) (source : List Char) : Except CompileFailure Program × Runner :=
  match r.cache.find? source with
  | some p => (.ok p, { r with cache := r.cache.touch source p })
  | none =>
      match Program.compile r.config source with
      | .error found => (.error (.problems found), r)
      | .ok p =>
          if r.config.programCacheSize < 0 then
            (.error .cacheExhausted, { r with cache := [] })
          else
            let cache := (r.cache.touch source p).trim r.config.programCacheSize.toNat
            (.ok p, { r with cache := cache })

end Runner

/-- What went wrong with a source text. -/
inductive ReportError where
  | compile (problems : List Problem)
  | execute (failure : Failure)

/-- What came of a source text. -/
structure Report where
  source : List Char
  result : Except ReportError Value
  /-- The part of the source that the error is about, if it is known. -/
  span : Option Text.Span
  journal : List String
  trace : List TraceEvent

namespace Report

/-- The report of an error, with its line, column and a caret where they are known. -/
def format (r : Report) : String :=
  match r.result with
  | .ok _ => ""
  | .error (.compile problems) => renderProblems r.source problems
  | .error (.execute failure) =>
      let text := failure.error.title ++ ": " ++ failure.error.message
      match r.span with
      | none => text
      | some span =>
          let (line, col) := Text.lineCol r.source span.start
          let head := "Error on line " ++ Number.natText line ++ ", col " ++ Number.natText col ++
            ": " ++ text
          let context := Text.excerpt r.source line (some col) 0
          if context = "" then head else head ++ "\n" ++ context

/-- The report of a source text that does not compile. -/
def ofProblems (config : Config) (source : List Char) (problems : List Problem) : Report where
  source := source
  result := .error (.compile problems)
  span := problems.head?.map (·.span)
  journal := []
  trace := if config.debug then [.compileFailed problems.length] else []

/-- The report of an execution. -/
def ofExecution (p : Program) (e : Execution) : Report where
  source := p.source
  result := e.result.mapError .execute
  span := match e.result with
    | .ok _ => none
    | .error failure => p.spanOf? failure.node
  journal := e.journal
  trace := e.trace

end Report

namespace Runner

/-- Compiles and executes a source text in a context.  Only an exhausted cache leaves it without a
report. -/
def run (r : Runner) (context : Context) (source : List Char) :
    Except HostException Report × Runner :=
  match r.compile source with
  | (.ok p, r) => (.ok (.ofExecution p (p.execute context)), r)
  | (.error (.problems found), r) => (.ok (.ofProblems r.config source found), r)
  | (.error .cacheExhausted, r) => (.error cacheExhaustedException, r)

end Runner
end ExprLang
