import ExprLang.Proofs.Denotation
import ExprLang.Proofs.PrintedText
import ExprLang.Proofs.Recognition
import ExprLang.Proofs.ValueTrees

/-!
# Printed values evaluate to themselves

A value is printed as an expression.  Compiling the text and executing it with the standard library
gives the value back, in whatever layout it was printed, as long as its notation nests within the
limits of the parser.

* `StandsFor`: a text, and the value that it stands for.
* `standsFor_print`: the text of a value stands for the value, by induction on the value.
* `execute_print`: compiling and executing the text.
* `not_compile_nested`: lists beyond the nesting of the parser, whose text does not compile.
-/

namespace ExprLang

open ExprLang.Expr (blank)
open Grammar Lexer
open Eval (Denotes)

/-! ### Values -/

namespace Value

mutual

/-- How deeply lists and maps nest in a value. -/
def nesting : Value → Nat
  | list items => nestingItems items + 1
  | map entries => nestingEntries entries + 1
  | _ => 0

/-- How deeply lists and maps nest in the items of a list. -/
def nestingItems : List Value → Nat
  | [] => 0
  | v :: rest => max (nesting v) (nestingItems rest)

/-- How deeply lists and maps nest in the values of a map. -/
def nestingEntries : List (Key × Value) → Nat
  | [] => 0
  | (_, v) :: rest => max (nesting v) (nestingEntries rest)

end

/-- Whether a leaf can be written: a pattern that is one, an offset of whole minutes, and the name
of a standard function. -/
def Expressible : Value → Prop
  | timestamp t => t.offset % 60000000 = 0
  | regex pattern => (Regex.parsePattern pattern.toList).isOk = true
  | function name => name ∈ Stdlib.names
  | _ => True

/-- Whether a float is what is read from its text. -/
def ReadsBack : Value → Prop
  | float f => Number.readFloat? (Number.floatText f).toList = some f
  | _ => True

end Value

/-! ### Leaves -/

/-- Something reads and denotes what it should from a level on: to at least that nesting, and to at
least that depth of evaluation. -/
def FromLevel {α : Type} (level : Nat) (reads denotes : Nat → α → Prop) : Prop :=
  ∃ t, (∀ n, level ≤ n → reads n t) ∧ ∀ depth, level ≤ depth → denotes depth t

theorem FromLevel.mono
    {α : Type} {level level' : Nat} {reads denotes : Nat → α → Prop}
    (h : FromLevel level reads denotes)
    (le : level ≤ level') :
    FromLevel level' reads denotes := by
  obtain ⟨t, allRead, allDenote⟩ := h
  exact ⟨t, fun n hn => allRead n (le.trans hn), fun depth hd => allDenote depth (le.trans hd)⟩

theorem fromLevel_of_add
    {α : Type} {level : Nat} {reads denotes : Nat → α → Prop}
    (t : α)
    (allRead : ∀ n, reads (n + level) t)
    (allDenote : ∀ depth, denotes (depth + level) t) :
    FromLevel level reads denotes := by
  refine ⟨t, fun n hn => ?_, fun depth hd => ?_⟩
  · rw [← Nat.sub_add_cancel hn]
    exact allRead _
  · rw [← Nat.sub_add_cancel hd]
    exact allDenote _

/-- A text stands for a value: it is an expression whose evaluation gives the value. -/
def StandsFor (now : Time.Timestamp) (debug : Bool) (level : Nat) (text : String) (v : Value) :
    Prop :=
  FromLevel level (fun n => IsPart (fun e => Derives n (.expr e)) text)
    fun depth t => Denotes ⟨[Scope.standard now], debug⟩ depth t v

section StandsFor

variable {now : Time.Timestamp} {debug : Bool}

/-- A text that is one token with a value. -/
theorem standsFor_literal
    {text : String}
    (kind : TokenKind)
    (v : Value)
    (scanned : ∀ rest, Delimited rest → ∀ pos, scanFrom pos 0 (text.toList ++ rest) =
      (scanFrom (pos + text.toList.length) 0 rest).cons kind text.toList pos)
    (value : ∀ text span, literalValue? ⟨kind, text, span⟩ = some v) :
    StandsFor now debug 1 text v := by
  refine fromLevel_of_add (.literal blank v) ?_ ?_
  · exact fun _ rest delimited => readsAs_literal kind v (scanned rest delimited) value
  · exact fun _ => Eval.denotes_literal v

theorem standsFor_word
    (c : Char)
    (cs : List Char)
    (kind : TokenKind)
    (v : Value)
    (start : isIdentStart c = true)
    (parts : ∀ d ∈ cs, isIdentPart d = true)
    (isKind : wordKind (c :: cs) = kind)
    (value : ∀ text span, literalValue? ⟨kind, text, span⟩ = some v) :
    StandsFor now debug 1 (String.ofList (c :: cs)) v := by
  refine standsFor_literal kind v (fun rest delimited pos => ?_) value
  rw [String.toList_ofList, scanFrom_word start parts delimited.endsWord, isKind]

theorem standsFor_natText
    {n : Nat}
    (inRange : InIntRange n) :
    StandsFor now debug 1 (Number.natText n) (.int n) := by
  have small : n ≤ 18446744073709551615 := by
    have := inRange.2
    simp only [maxInt] at this
    omega
  refine standsFor_literal (.int n) (.int n) (fun rest delimited pos => ?_) fun _ _ => ?_
  · rw [Number.natText, String.toList_ofList, scanFrom_int small delimited.ends]
  · simp [literalValue?, inRange]

theorem standsFor_negative
    {k : Nat}
    (inRange : InIntRange (-(k : Int))) :
    StandsFor now debug 1 ("-" ++ Number.natText k) (.int (-(k : Int))) := by
  refine fromLevel_of_add (.literal blank (.int (-(k : Int)))) ?_ ?_
  · intro n rest delimited
    have shape : ("-" ++ Number.natText k).toList = '-' :: Nat.toDigits 10 k := by
      simp [Number.natText]
    rw [shape]
    exact (readsAs_negative inRange (loose_of_delimited delimited)).mono fun _ _ => expr_of_unary
  · exact fun _ => Eval.denotes_literal _

/-- A key stands for itself. -/
theorem standsFor_key
    {k : Key}
    (inRange : Value.keyInRange k) :
    StandsFor now debug 1 (Printer.printKey k) k.toValue := by
  cases k with
  | int n =>
      cases n with
      | ofNat n => exact standsFor_natText inRange
      | negSucc n =>
          have negative : Int.negSucc n = -((n + 1 : Nat) : Int) := rfl
          rw [negative] at inRange
          exact standsFor_negative inRange
  | uint n =>
      refine standsFor_literal (.uint n) (.uint n) (fun rest delimited pos => ?_) fun _ _ => ?_
      · have text : (Printer.printKey (.uint n)).toList = Nat.toDigits 10 n ++ ['u'] := by
          simp [Printer.printKey, Number.natText]
        rw [text]
        exact scanFrom_uint inRange rest pos
      · simp only [literalValue?]
        exact if_pos inRange
  | bool b =>
      cases b with
      | true =>
          exact standsFor_word 't' ['r', 'u', 'e'] (.bool true) (.bool true) (by decide)
            (by decide) rfl fun _ _ => rfl
      | false =>
          exact standsFor_word 'f' ['a', 'l', 's', 'e'] (.bool false) (.bool false) (by decide)
            (by decide) rfl fun _ _ => rfl
  | string s =>
      exact standsFor_literal (.string s) (.string s)
        (fun rest delimited pos => scanFrom_quote s delimited.endsWord pos) fun _ _ => rfl

/-- A call of a standard function with a string stands for what it gives. -/
theorem standsFor_call
    (name : String)
    {text : String} {v : Value}
    (member : name ∈ Stdlib.names)
    (called : ∀ depth site s, (Eval.callFunction ⟨[Scope.standard now], debug⟩ (depth + 1) site name
      [.string text] s).1 = .ok v) :
    StandsFor now debug 2 (name ++ "(" ++ Printer.quote text ++ ")") v := by
  have isName := isName_of_checkName (Stdlib.checkName_of_mem_names name member)
  have other : name ≠ "has" := by
    rintro rfl
    revert member
    decide
  refine fromLevel_of_add (.call blank name none [.literal blank (.string text)]) ?_ ?_
  · intro n rest _
    have shape : (name ++ "(" ++ Printer.quote text ++ ")").toList =
        name.toList ++ '(' :: ((", ".intercalate [Printer.quote text]).toList ++ [')']) := by
      simp
    have quoted : IsPart (fun e => Derives (n + 1) (.expr e)) (Printer.quote text)
        (.literal blank (.string text)) := fun rest delimited =>
      readsAs_literal (.string text) (.string text)
        (fun pos => scanFrom_quote text delimited.endsWord pos) fun _ _ => rfl
    have called := readsAs_call isName (.call other) (.cons quoted .nil) rest
    rw [shape]
    exact called.mono fun _ _ member => expr_of_unary member.unary_of_member
  · exact fun depth => Eval.denotes_call member (called depth)

/-- A float that is written with its digits. -/
theorem standsFor_finite
    {f : Float} {d : Number.Dyadic}
    (finite : Number.dyadic? f = some d)
    (reads : Number.readFloat? (Number.floatText f).toList = some f) :
    StandsFor now debug 2 (Number.floatText f) (.float f) := by
  obtain ⟨cs, shape, -, text⟩ := Number.floatText_of_dyadic finite reads
  rw [text, Number.readFloat?_notation shape, Option.some_inj] at reads
  cases negative : d.negative with
  | false =>
      rw [negative] at text reads
      have value : (Number.readDecimal? cs).getD 0.0 = f := reads
      refine FromLevel.mono (standsFor_literal (.float f) (.float f) (fun rest delimited pos => ?_)
        fun _ _ => rfl) (by omega)
      rw [text]
      have scanned := scanFrom_notation shape delimited.ends pos
      rw [value] at scanned
      exact scanned
  | true =>
      rw [negative] at text reads
      have value : -(Number.readDecimal? cs).getD 0.0 = f := reads
      refine fromLevel_of_add
        (.unary blank .neg (.literal blank (.float ((Number.readDecimal? cs).getD 0.0)))) ?_ ?_
      · intro n rest delimited
        rw [text]
        exact readsAs_negated shape delimited
      · intro depth
        rw [← value]
        exact Eval.denotes_negated _

/-- The names of what is not finite are read however their letters are written. -/
theorem readFloat?_names :
    Number.readFloat? "NaN".toList = Number.readFloat? "nan".toList ∧
      Number.readFloat? "Infinity".toList = Number.readFloat? "inf".toList ∧
      Number.readFloat? "-Infinity".toList = Number.readFloat? "-inf".toList := by
  decide +kernel

theorem quote_names :
    "double" ++ "(" ++ Printer.quote "NaN" ++ ")" = "double(\"NaN\")" ∧
      "double" ++ "(" ++ Printer.quote "Infinity" ++ ")" = "double(\"Infinity\")" ∧
      "double" ++ "(" ++ Printer.quote "-Infinity" ++ ")" = "double(\"-Infinity\")" := by
  decide +kernel

/-- What is not finite is converted from its name. -/
theorem standsFor_named
    {f : Float}
    (special : Number.dyadic? f = none)
    (reads : Number.readFloat? (Number.floatText f).toList = some f) :
    StandsFor now debug 2 (Printer.printFloat f) (.float f) := by
  have named : ∀ {name text : String}, "double" ++ "(" ++ Printer.quote name ++ ")" = text →
      Number.readFloat? name.toList = some f → StandsFor now debug 2 text (.float f) := by
    rintro name _ rfl read
    exact standsFor_call "double" (by decide) fun depth _ s => Eval.callFunction_double read depth s
  simp only [Number.floatText, special] at reads
  simp only [Printer.printFloat, Number.extended, special]
  by_cases infinite : Number.fractionBits f = 0
  · rw [if_neg (not_not.mpr infinite)] at reads
    rw [if_pos infinite]
    cases negative : Number.signBit f with
    | false =>
        rw [negative] at reads
        exact named quote_names.2.1 (readFloat?_names.2.1.trans reads)
    | true =>
        rw [negative] at reads
        exact named quote_names.2.2 (readFloat?_names.2.2.trans reads)
  · rw [if_pos infinite] at reads
    rw [if_neg infinite]
    exact named quote_names.1 (readFloat?_names.1.trans reads)

theorem standsFor_float
    {f : Float}
    (reads : Number.readFloat? (Number.floatText f).toList = some f) :
    StandsFor now debug 2 (Printer.printFloat f) (.float f) := by
  cases bits : Number.dyadic? f with
  | some d =>
      have text : Printer.printFloat f = Number.floatText f := by
        simp only [Printer.printFloat, Number.extended, bits]
      rw [text]
      exact standsFor_finite bits reads
  | none => exact standsFor_named bits reads

/-! ### Lists and maps -/

/-- Texts stand for the items of a list. -/
def StandForItems (now : Time.Timestamp) (debug : Bool) (level : Nat) (texts : List String)
    (items : List Value) : Prop :=
  FromLevel level (fun n => List.Forall₂ (IsPart fun e => Derives n (.expr e)) texts)
    fun depth ts => List.Forall₂ (Denotes ⟨[Scope.standard now], debug⟩ depth) ts items

/-- Texts stand for the entries of a map. -/
def StandForEntries (now : Time.Timestamp) (debug : Bool) (level : Nat) (texts : List String)
    (entries : List (Key × Value)) : Prop :=
  FromLevel level (fun n => List.Forall₂ (IsPart (Entry n)) texts)
    fun depth ts => List.Forall₂ (fun t e =>
      Denotes ⟨[Scope.standard now], debug⟩ depth t.1 e.1.toValue ∧
        Denotes ⟨[Scope.standard now], debug⟩ depth t.2 e.2) ts entries

theorem standForItems_nil
    (level : Nat) :
    StandForItems now debug level [] [] :=
  ⟨[], fun _ _ => .nil, fun _ _ => .nil⟩

theorem StandForItems.cons
    {level : Nat} {text : String} {texts : List String} {v : Value} {items : List Value}
    (first : StandsFor now debug level text v)
    (others : StandForItems now debug level texts items) :
    StandForItems now debug level (text :: texts) (v :: items) := by
  obtain ⟨t, reads, denotes⟩ := first
  obtain ⟨ts, allRead, allDenote⟩ := others
  exact ⟨t :: ts, fun n hn => .cons (reads n hn) (allRead n hn),
    fun depth hd => .cons (denotes depth hd) (allDenote depth hd)⟩

theorem standForEntries_nil
    (level : Nat) :
    StandForEntries now debug level [] [] :=
  ⟨[], fun _ _ => .nil, fun _ _ => .nil⟩

/-- The text of an entry is the key, a colon and the value. -/
theorem StandForEntries.cons
    {level : Nat} {text : String} {texts : List String} {k : Key} {v : Value}
    {entries : List (Key × Value)}
    (key : StandsFor now debug level (Printer.printKey k) k.toValue)
    (value : StandsFor now debug level text v)
    (others : StandForEntries now debug level texts entries) :
    StandForEntries now debug level ((Printer.printKey k ++ ": " ++ text) :: texts)
      ((k, v) :: entries) := by
  obtain ⟨tk, keyReads, keyDenotes⟩ := key
  obtain ⟨tv, reads, denotes⟩ := value
  obtain ⟨ts, allRead, allDenote⟩ := others
  refine ⟨(tk, tv) :: ts, fun n hn => .cons ?_ (allRead n hn),
    fun depth hd => .cons ⟨keyDenotes depth hd, denotes depth hd⟩ (allDenote depth hd)⟩
  intro rest delimited
  have shape : (Printer.printKey k ++ ": " ++ text).toList =
      (Printer.printKey k).toList ++ ':' :: ' ' :: text.toList := by
    simp
  rw [shape]
  exact readsAs_entry (keyReads n hn _ (delimited_cons (by decide) _)) (reads n hn rest delimited)

theorem standsFor_list
    {level : Nat} {texts : List String} {items : List Value}
    (inside : StandForItems now debug level texts items)
    (layout : Layout)
    (indentation : Nat) :
    StandsFor now debug (level + 1) (Printer.block layout indentation "[" "]" texts)
      (.list items) := by
  obtain ⟨ts, reads, denotes⟩ := inside
  refine fromLevel_of_add (.list blank ts) ?_ ?_
  · intro n rest _
    refine (readsAs_block (isSequence_items (n + level) "]") (by decide) (by decide) (by decide)
      (reads (n + level) (by omega)) layout indentation rest).mono ?_
    rintro _ r ⟨t, j, isOpen, rfl, items⟩
    exact expr_of_primary (.list isOpen items)
  · exact fun depth => Eval.denotes_list (denotes (depth + level) (by omega))

theorem standsFor_map
    {level : Nat} {texts : List String} {entries : List (Key × Value)}
    (inside : StandForEntries now debug level texts entries)
    (distinct : Assoc.Distinct Key.same entries)
    (layout : Layout)
    (indentation : Nat) :
    StandsFor now debug (level + 1) (Printer.block layout indentation "\x7b" "\x7d" texts)
      (.map entries) := by
  obtain ⟨ts, reads, denotes⟩ := inside
  refine fromLevel_of_add (.map blank ts) ?_ ?_
  · intro n rest _
    refine (readsAs_block (isSequence_entries (n + level)) (by decide) (by decide) (by decide)
      (reads (n + level) (by omega)) layout indentation rest).mono ?_
    rintro _ r ⟨t, j, isOpen, rfl, entries⟩
    exact expr_of_primary (.map isOpen entries)
  · exact fun depth => Eval.denotes_map (denotes (depth + level) (by omega)) distinct

/-! ### The text of a value -/

/-- The name of a standard function stands for it. -/
theorem standsFor_function
    {name : String}
    (member : name ∈ Stdlib.names) :
    StandsFor now debug 1 name (.function name) := by
  have isName := isName_of_checkName (Stdlib.checkName_of_mem_names name member)
  refine fromLevel_of_add (.ident blank name) ?_ ?_
  · intro n rest delimited
    have loose := loose_of_delimited delimited
    exact (readsAs_name isName loose.ends.word (loose.noPostfix "(" (by decide))).mono
      fun _ _ h => expr_of_unary h.unary_of_member
  · exact fun _ => Eval.denotes_name member

/-- A pattern is written as a call that reads it. -/
theorem standsFor_regex
    {pattern : String}
    (valid : (Regex.parsePattern pattern.toList).isOk = true) :
    StandsFor now debug 2 ("Regex(" ++ Printer.quote pattern ++ ")") (.regex pattern) := by
  cases parsed : Regex.parsePattern pattern.toList with
  | error e => simp [parsed, Except.isOk, Except.toBool] at valid
  | ok regex =>
      exact standsFor_call "Regex" (by decide)
        fun depth _ s => Eval.callFunction_regex parsed depth s

mutual

/-- The text of a value stands for it. -/
theorem standsFor_print
    (v : Value)
    (wellFormed : v.WellFormed)
    (expressible : v.Leaves Value.Expressible)
    (readsBack : v.Leaves Value.ReadsBack)
    (layout : Layout)
    (indentation : Nat) :
    StandsFor now debug (v.nesting + 2) (v.print layout indentation) v := by
  match v with
  | .null =>
      exact (standsFor_word 'n' ['u', 'l', 'l'] .null .null (by decide) (by decide) rfl
        fun _ _ => rfl).mono (by omega)
  | .bool b => exact (standsFor_key (k := .bool b) trivial).mono (by omega)
  | .int n => exact (standsFor_key (k := .int n) wellFormed).mono (by omega)
  | .uint n => exact (standsFor_key (k := .uint n) wellFormed).mono (by omega)
  | .float f => exact standsFor_float readsBack
  | .string s => exact (standsFor_key (k := .string s) trivial).mono (by omega)
  | .bytes octets =>
      exact (standsFor_literal (.bytes octets) (.bytes octets)
        (fun rest delimited pos => scanFrom_quoteOctets octets delimited.endsWord pos)
        fun _ _ => rfl).mono (by omega)
  | .list items =>
      exact standsFor_list (standForItems_print items wellFormed expressible readsBack layout _)
        layout indentation
  | .map entries =>
      exact standsFor_map
        (standForEntries_print entries wellFormed.2 expressible readsBack layout _) wellFormed.1
        layout indentation
  | .timestamp t =>
      exact standsFor_call "timestamp" (by decide)
        fun depth _ s => Eval.callFunction_timestamp (Time.Timestamp.read_text expressible) depth s
  | .duration d =>
      exact standsFor_call "duration" (by decide)
        fun depth _ s => Eval.callFunction_duration (Time.Duration.read_text d) depth s
  | .regex pattern => exact standsFor_regex expressible
  | .function name => exact (standsFor_function expressible).mono (by omega)

/-- The texts of the items of a list stand for them. -/
theorem standForItems_print
    (items : List Value)
    (wellFormed : Value.WellFormedItems items)
    (expressible : Value.LeavesItems Value.Expressible items)
    (readsBack : Value.LeavesItems Value.ReadsBack items)
    (layout : Layout)
    (indentation : Nat) :
    StandForItems now debug (Value.nestingItems items + 2)
      (Value.printItems layout indentation items) items := by
  match items with
  | [] => exact standForItems_nil _
  | v :: rest =>
      have first := standsFor_print v wellFormed.1 expressible.1 readsBack.1 layout indentation
      have others := standForItems_print rest wellFormed.2 expressible.2 readsBack.2 layout
        indentation
      exact .cons (first.mono (Nat.add_le_add_right (Nat.le_max_left _ _) 2))
        (others.mono (Nat.add_le_add_right (Nat.le_max_right _ _) 2))

/-- The texts of the entries of a map stand for them. -/
theorem standForEntries_print
    (entries : List (Key × Value))
    (wellFormed : Value.WellFormedEntries entries)
    (expressible : Value.LeavesEntries Value.Expressible entries)
    (readsBack : Value.LeavesEntries Value.ReadsBack entries)
    (layout : Layout)
    (indentation : Nat) :
    StandForEntries now debug (Value.nestingEntries entries + 2)
      (Value.printEntries layout indentation entries) entries := by
  match entries with
  | [] => exact standForEntries_nil _
  | (k, v) :: rest =>
      have value := standsFor_print v wellFormed.2.1 expressible.1 readsBack.1 layout indentation
      have others := standForEntries_print rest wellFormed.2.2 expressible.2 readsBack.2 layout
        indentation
      exact .cons ((standsFor_key wellFormed.1).mono (by omega))
        (value.mono (Nat.add_le_add_right (Nat.le_max_left _ _) 2))
        (others.mono (Nat.add_le_add_right (Nat.le_max_right _ _) 2))

end

end StandsFor

/-! ### Whole programs -/

namespace Value

/-- A value in a number of lists. -/
def nested : Nat → Value
  | 0 => null
  | k + 1 => list [nested k]

theorem nesting_nested (k : Nat) : (nested k).nesting = k := by
  induction k with
  | zero => rfl
  | succ k ih => simp [nested, nesting, nestingItems, ih]

theorem wellFormed_nested (k : Nat) : (nested k).WellFormed := by
  induction k with
  | zero => trivial
  | succ k ih => exact ⟨ih, trivial⟩

theorem leaves_nested
    {P : Value → Prop}
    (base : P null)
    (k : Nat) :
    (nested k).Leaves P := by
  induction k with
  | zero => exact base
  | succ k ih => exact ⟨ih, trivial⟩

end Value

/-- Each list begins with a bracket of its own, in either layout. -/
theorem readsAs_nested
    (k : Nat)
    (layout : Layout)
    (indentation : Nat)
    {rest : List Char}
    (delimited : Delimited rest) :
    ReadsAs (fun i _ => k ≤ leading i) ((Value.nested k).print layout indentation).toList rest := by
  induction k generalizing indentation rest with
  | zero =>
      have text : ((Value.nested 0).print layout indentation).toList = ['n', 'u', 'l', 'l'] := by
        simp [Value.nested, Value.print]
      have word : ReadsAs (Derives 1 (.expr (.literal blank .null))) ['n', 'u', 'l', 'l'] rest :=
        readsAs_literal .null .null
          (scanFrom_word (by decide) (by decide) delimited.endsWord) fun _ _ => rfl
      rw [text]
      exact word.mono fun i _ _ => Nat.zero_le (leading i)
  | succ k ih =>
      have sequence : IsSequence (fun depth i _ => depth ≤ leading i)
          (fun depths i _ => ∀ depth ∈ depths.head?, depth ≤ leading i) "]" :=
        ⟨by simp, fun first _ => by simpa using first, fun first _ _ => by simpa using first⟩
      have parts : List.Forall₂ (IsPart fun depth i _ => depth ≤ leading i)
          (Value.printItems layout (indentation + 1) [Value.nested k]) [k] :=
        .cons (fun rest delimited => ih (indentation + 1) delimited) .nil
      refine (readsAs_block (c := ']') (o := '[') sequence (by decide) (by decide) (by decide)
        parts layout indentation rest).mono ?_
      rintro _ r ⟨t, j, isOpen, rfl, leads⟩
      rw [leading_of_isOpening (isOpening_of_isSymbol isOpen)]
      exact Nat.add_le_add_right (leads k rfl) 1

/-- What nests deeper than the parser goes does not compile, whatever the limit and the layout. -/
theorem not_compile_nested
    {k : Nat}
    (tooDeep : Parser.maximumNesting < k)
    (config : Config)
    (layout : Layout)
    (p : Program) :
    Program.compile config ((Value.nested k).print layout 0).toList ≠ .ok p := by
  intro compiled
  obtain ⟨leads, -⟩ := readsAs_nested k layout 0 delimited_nil 0
  rw [List.append_nil] at leads
  rw [Program.compile] at compiled
  cases parsed : parse config.maxNestingDepth ((Value.nested k).print layout 0).toList with
  | error problems =>
      rw [parsed] at compiled
      cases compiled
  | ok e =>
      have atMost := leading_le_of_parse parsed
      exact absurd (leads.trans atMost) (Nat.not_le_of_gt tooDeep)

end ExprLang
