import ExprLang.Proofs.PrintedMeaning
import ExprLang.Proofs.StandardCalls

/-!
# Times that are read back from their texts

A program writes a variable as a text, reads the text by the function of its type, and compares what
comes back with the variable.  For durations the two are always equal.  The text of a timestamp has
the seconds of its offset where they are not zero, which are not read; so timestamps are read back
where the offset is a whole number of minutes, and the text of any other timestamp is refused.

* `yields_readBack`: the comparison of a value with what is read from its text.
* `exists_readBack`: a program that makes it.
* `duration_readBack`, `timestamp_readBack`: durations and timestamps.
* `timestamp_not_readBack`: a timestamp that its text does not give back.
-/

namespace ExprLang

open Time Stdlib

/-! ### Comparing a value with what is read from its text -/

namespace Eval

variable {env : Environment} {depth : Nat}

theorem yields_ident
    {name : String} {v : Value}
    (bound : env.context.valueOf? name = some v)
    (m : Mark) :
    Yields (evalAt env (depth + 1) (.ident m name)) (.ok v) := by
  have found : lookup env name = .ok v := by
    rw [lookup, bound]
  refine Yields.attributed ?_ _
  rw [evalNode, found]
  exact .ofOutcome (.ok v)

/-- A call of a function with one argument. -/
theorem yields_call
    {name : String} {a : Expr} {v : Value} {outcome : Outcome Value} {m : Mark}
    (declared : env.context.hasFunction name = true)
    (argument : Yields (evalAt env depth a) (.ok v))
    (called : Yields (callFunction env depth (some m.id) name [v]) outcome) :
    Yields (evalAt env (depth + 1) (.call m name none [a])) outcome := by
  have items : Yields (evalItems (evalAt env depth) [a]) (.ok [v]) :=
    argument.bind_ok (Yields.ofOutcome (.ok [v]))
  refine Yields.attributed ?_ _
  simp only [evalNode, evalCall, declared, Bool.not_true, Bool.false_eq_true, if_false]
  exact items.bind_ok called

/-- The comparison of a value with what a function makes of its text, whatever expressions the value
comes from. -/
theorem yields_readBack
    {name text : String} {v : Value} {outcome : Outcome Value}
    {compared called written : Mark} {a b : Expr}
    (first : Yields (evalAt env (depth + 1) a) (.ok v))
    (second : Yields (evalAt env (depth + 3) b) (.ok v))
    (found : env.context.overloads? "string" = some [textEntry.function "string"])
    (hasText : textOf v = some text)
    (declared : env.context.hasFunction name = true)
    (reads : Yields (callFunction env (depth + 2) (some called.id) name [.string text]) outcome) :
    Yields
      (evalAt env (depth + 4) (.binary compared .eq
        (.call called name none [.call written "string" none [a]]) b))
      (outcome.map fun w => .bool (w.equals v)) := by
  have hasString : env.context.hasFunction "string" = true := by
    rw [Context.hasFunction, found]
    rfl
  have string := yields_call (m := written) hasString first (yields_string found hasText depth)
  have left := yields_call declared string reads
  refine Yields.attributed ?_ _
  exact left.bind fun w _ => second.bind_ok (.ofOutcome (.ok _))

end Eval

/-! ### Programs that read a variable back -/

section ReadBack

variable {now : Timestamp}

/-- The standard library with a variable. -/
def withVariable (now : Timestamp) (v : Value) : Scope :=
  { Scope.standard now with bindings := [("x", v)] }

theorem addVariable_standard
    {object : HostObject} {v : Value}
    (value : object.toValue = .ok v) :
    (Scope.standard now).addVariable "x" object = .ok (withVariable now v) := by
  have none : (Scope.standard now).bindings = [] :=
    bindings_addEntries (registrable_entries now) .empty
  have valid : checkName "x" = .ok () := by rfl
  simp [Scope.addVariable, Scope.valueOf?, none, valid, value, withVariable]

theorem overloads?_withVariable
    {name : String} {entry : Entry}
    (member : (name, entry) ∈ entries now)
    (v : Value) :
    Context.overloads? [withVariable now v] name = some [entry.function name] :=
  overloads?_standard member

/-- Whether a program compares the variable with what a function makes of its text. -/
def readsBack (function : String) (p : Program) : Bool :=
  match p.root with
  | .binary _ .eq (.call _ name none [.call _ "string" none [.ident _ "x"]]) (.ident _ "x") =>
      name == function
  | _ => false

/-- What evaluating the tree of a program yields, the program comes to. -/
theorem execute_of_yields
    {p : Program} {context : Context} {outcome : Outcome Value}
    (evaluated : Eval.Yields
      (Eval.evalAt ⟨context, p.config.debug⟩ Program.evaluationDepth p.root) outcome) :
    (p.execute context).result.mapError (·.error) = outcome := by
  obtain ⟨node, same⟩ := evaluated .initial
  rw [Program.execute]
  rcases ran : Eval.evalAt ⟨context, p.config.debug⟩ Program.evaluationDepth p.root .initial with
    ⟨result, s⟩
  rw [ran] at same
  obtain rfl : result = _ := same
  cases outcome <;> rfl

/-- A program that reads a variable back comes to the comparison, or to the error of reading. -/
theorem execute_readBack
    {p : Program} {function text : String} {entry : Entry} {v : Value} {outcome : Outcome Value}
    (shape : readsBack function p = true)
    (member : (function, entry) ∈ entries now)
    (hasText : textOf v = some text)
    (reads : ∀ debug site, Eval.Yields
      (Eval.callFunction ⟨[withVariable now v], debug⟩ (Program.evaluationDepth - 2) site function
        [.string text]) outcome) :
    (p.execute [withVariable now v]).result.mapError (·.error) =
      outcome.map fun w => .bool (w.equals v) := by
  have string : ("string", textEntry) ∈ entries now := by simp [entries]
  have declared : Context.hasFunction [withVariable now v] function = true := by
    rw [Context.hasFunction, overloads?_withVariable member]
    rfl
  refine execute_of_yields ?_
  unfold readsBack at shape
  split at shape
  next name _ inner outer root =>
    obtain rfl : name = function := eq_of_beq shape
    rw [root]
    exact Eval.yields_readBack (Eval.yields_ident rfl inner) (Eval.yields_ident rfl outer)
      (overloads?_withVariable string v) hasText declared (reads p.config.debug _)
  · cases shape

/-- A text of this form compiles, a variable can be bound beside the standard library, and there the
program comes to the comparison or to the error of reading. -/
theorem exists_readBack
    {source : List Char} {function text : String} {entry : Entry} {v : Value}
    {outcome : Outcome Value}
    (object : HostObject)
    (compiles : compilesTo .standard source (readsBack function) = true)
    (member : (function, entry) ∈ entries now)
    (value : object.toValue = .ok v)
    (hasText : textOf v = some text)
    (reads : ∀ debug site, Eval.Yields
      (Eval.callFunction ⟨[withVariable now v], debug⟩ (Program.evaluationDepth - 2) site function
        [.string text]) outcome) :
    ∃ p scope, Program.compile .standard source = .ok p ∧
      (Scope.standard now).addVariable "x" object = .ok scope ∧
      (p.execute [scope]).result.mapError (·.error) =
        outcome.map fun w => .bool (w.equals v) := by
  obtain ⟨p, compiled, shape⟩ := exists_of_compilesTo compiles
  exact ⟨p, _, compiled, addVariable_standard value, execute_readBack shape member hasText reads⟩

end ReadBack

/-! ### Durations -/

/-- Any number of days up to 999999999 either way, of seconds of a day and of microseconds of a
second make up a duration. -/
theorem Time.Duration.exists_of_parts
    {days seconds micros : Int}
    (daysBounded : -999999999 ≤ days ∧ days ≤ 999999999)
    (secondsBounded : 0 ≤ seconds ∧ seconds < 86400)
    (microsBounded : 0 ≤ micros ∧ micros < 1000000) :
    ∃ d : Duration, d.micros = (days * 86400 + seconds) * 1000000 + micros := by
  refine ⟨⟨(days * 86400 + seconds) * 1000000 + micros, ?_, ?_⟩, rfl⟩
  · unfold minMicros
    omega
  · unfold maxMicros
    omega

/-- A duration of any days, seconds and microseconds is read back from its text, and a program that
writes it, reads it and compares the two finds them equal. -/
theorem duration_readBack
    {days seconds micros : Int}
    (daysBounded : -999999999 ≤ days ∧ days ≤ 999999999)
    (secondsBounded : 0 ≤ seconds ∧ seconds < 86400)
    (microsBounded : 0 ≤ micros ∧ micros < 1000000)
    (now : Timestamp) :
    ∃ d : Duration, d.micros = (days * 86400 + seconds) * 1000000 + micros ∧
      Duration.read d.text = .ok d ∧
      ∃ p scope, Program.compile .standard "duration(string(x)) == x".toList = .ok p ∧
        (Scope.standard now).addVariable "x" (.duration d) = .ok scope ∧
        (p.execute [scope]).result.mapError (·.error) = .ok (.bool true) := by
  obtain ⟨d, length⟩ := Duration.exists_of_parts daysBounded secondsBounded microsBounded
  have reads : Duration.read d.text = .ok d := Duration.read_text d
  have compiles : compilesTo .standard "duration(string(x)) == x".toList
      (readsBack "duration") = true := by decide +kernel
  have member : ("duration", durationEntry) ∈ entries now := by simp [entries]
  have same : (Value.duration d).equals (.duration d) = true := by
    simp [Value.equals]
  obtain ⟨p, scope, compiled, bound, result⟩ := exists_readBack (.duration d)
    compiles member rfl rfl fun debug site =>
      Eval.yields_duration (overloads?_withVariable member _) reads _
  rw [Except.map, same] at result
  exact ⟨d, length, reads, p, scope, compiled, bound, result⟩

/-- One microsecond before zero is a day before it, and all of a day but a microsecond. -/
theorem duration_readBack_beforeZero :
    ((-999999999 : Int) ≤ -1 ∧ (-1 : Int) ≤ 999999999) ∧
      ((0 : Int) ≤ 86399 ∧ (86399 : Int) < 86400) ∧
      ((0 : Int) ≤ 999999 ∧ (999999 : Int) < 1000000) ∧
      ∃ d : Duration, d.micros = (-1 * 86400 + 86399) * 1000000 + 999999 ∧
        Duration.read d.text = .ok d ∧
        ∃ p scope, Program.compile .standard "duration(string(x)) == x".toList = .ok p ∧
          (Scope.standard .epoch).addVariable "x" (.duration d) = .ok scope ∧
          (p.execute [scope]).result.mapError (·.error) = .ok (.bool true) :=
  ⟨by decide, by decide, by decide,
    duration_readBack (by decide) (by decide) (by decide) .epoch⟩

/-! ### Timestamps -/

/-- The text of a timestamp is read back where its offset is a whole number of minutes, and a program
that writes it, reads it and compares the two finds them equal.  Any other text is refused. -/
theorem timestamp_readBack
    (t now : Timestamp) :
    (Timestamp.read t.text = if t.offset % 60000000 = 0 then .ok t else .error (.invalid t.text)) ∧
      ∃ p scope, Program.compile .standard "timestamp(string(x)) == x".toList = .ok p ∧
        (Scope.standard now).addVariable "x" (.timestamp t) = .ok scope ∧
        (p.execute [scope]).result.mapError (·.error) =
          if t.offset % 60000000 = 0 then .ok (.bool true)
          else .error (.functionError "timestamp" (TimestampError.invalid t.text).message) := by
  have compiles : compilesTo .standard "timestamp(string(x)) == x".toList
      (readsBack "timestamp") = true := by decide +kernel
  have member : ("timestamp", timestampEntry) ∈ entries now := by simp [entries]
  have found := overloads?_withVariable member (.timestamp t)
  by_cases wholeMinutes : t.offset % 60000000 = 0
  · have reads : Timestamp.read t.text = .ok t := Timestamp.read_text wholeMinutes
    have same : (Value.timestamp t).equals (.timestamp t) = true := by
      simp [Value.equals]
    obtain ⟨p, scope, compiled, bound, result⟩ := exists_readBack (.timestamp t)
      compiles member rfl rfl fun debug site => Eval.yields_timestamp found reads _
    rw [Except.map, same] at result
    rw [if_pos wholeMinutes, if_pos wholeMinutes]
    exact ⟨reads, p, scope, compiled, bound, result⟩
  · have refused : Timestamp.read t.text = .error (.invalid t.text) :=
      Timestamp.read_text_of_partialMinutes wholeMinutes
    obtain ⟨p, scope, compiled, bound, result⟩ := exists_readBack (.timestamp t)
      compiles member rfl rfl fun debug site =>
        Eval.yields_timestamp_refused found refused _
    rw [if_neg wholeMinutes, if_neg wholeMinutes]
    exact ⟨refused, p, scope, compiled, bound, result⟩

/-- New Year's Day of 2023 at an offset of an hour and thirty seconds. -/
def newYearWithSeconds : Timestamp :=
  ⟨63808128000000000, 3630000000, by decide, by decide, by decide, by decide⟩

/-- The seconds of an offset are written, and not read. -/
theorem timestamp_not_readBack :
    newYearWithSeconds.text = "2023-01-01T00:00:00+01:00:30" ∧
      ¬∃ t, Timestamp.read newYearWithSeconds.text = .ok t := by
  have written : newYearWithSeconds.text = "2023-01-01T00:00:00+01:00:30" := by decide +kernel
  have refused : Timestamp.read newYearWithSeconds.text =
      .error (.invalid newYearWithSeconds.text) :=
    Timestamp.read_text_of_partialMinutes (by decide)
  refine ⟨written, ?_⟩
  rintro ⟨t, reads⟩
  rw [refused] at reads
  cases reads

end ExprLang
