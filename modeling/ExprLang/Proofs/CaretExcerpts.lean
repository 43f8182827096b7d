import ExprLang.Proofs.CachedPrograms
import ExprLang.Proofs.Digits
import ExprLang.Proofs.ErrorReport

/-!
# Carets under the characters of a source text

The report of an error shows the line on which the error starts, and below it a caret.  Offsets are
counted in lines that end at newlines; an excerpt ends its lines at every line separator of Unicode.
The two agree as long as there is no other separator up to the end of the line, but for carriage returns
right before newlines.

* `Text.splitLines_lineAt`: the line of an offset among the lines of an excerpt.
* `Text.PointsAt`: a text that shows a line and a caret under one of its characters.
* `pointsAt_of_error`: reports point at the characters where errors start.
* `not_pointsAt_after_form_feed`: behind another separator they do not.
-/

namespace ExprLang
namespace Text

/-! ### Lines -/

/-- What stands before an offset on its line. -/
def lineBefore (source : List Char) (offset : Nat) : List Char :=
  (source.take offset).rtakeWhile (· != '\n')

/-- What stands from an offset on to the end of its line. -/
def lineAfter (source : List Char) (offset : Nat) : List Char :=
  (source.drop offset).takeWhile (· != '\n')

/-- The line of an offset, without the newlines around it. -/
def lineAt (source : List Char) (offset : Nat) : List Char :=
  lineBefore source offset ++ lineAfter source offset

/-- A text up to the newline that ends the line of an offset. -/
def throughLine (source : List Char) (offset : Nat) : List Char :=
  source.take (offset + (lineAfter source offset).length + 1)

/-- A line without the carriage return that may stand at its end. -/
def withoutReturn (line : List Char) : List Char :=
  line.rdropWhile (· == '\r')

theorem withoutReturn_eq_self
    {line : List Char}
    (noReturn : '\r' ∉ line) :
    withoutReturn line = line := by
  rw [withoutReturn, List.rdropWhile_eq_self_iff]
  intro filled isReturn
  exact noReturn (beq_iff_eq.mp isReturn ▸ List.getLast_mem filled)

/-- Whether lines end at newlines only, each of which may have a carriage return before it. -/
def breaksAtNewlines : List Char → Bool
  | [] => true
  | c :: rest =>
      (c == '\n' || !isLineSeparator c || c == '\r' && rest.head? == some '\n') &&
        breaksAtNewlines rest

/-- Where no newline stands at an offset, the line has the character there behind what comes before
it. -/
theorem getElem?_lineAt
    {source : List Char} {offset : Nat} {c : Char}
    (isChar : source[offset]? = some c)
    (notBreak : c ≠ '\n') :
    (lineAt source offset)[(lineBefore source offset).length]? = some c := by
  have rest : source.drop offset = c :: source.drop (offset + 1) := by
    obtain ⟨inside, rfl⟩ := List.getElem?_eq_some_iff.mp isChar
    exact List.drop_eq_getElem_cons inside
  rw [lineAt, lineAfter, rest, List.takeWhile_cons_of_pos (by simpa using notBreak),
    List.getElem?_append_right le_rfl, Nat.sub_self, List.getElem?_cons_zero]

/-- A text is its last line, or its first line before a newline and a shorter text. -/
theorem lines_induction
    {motive : List Char → Prop}
    (last : ∀ line, '\n' ∉ line → motive line)
    (more : ∀ line rest, '\n' ∉ line → motive rest → motive (line ++ '\n' :: rest))
    (source : List Char) :
    motive source := by
  suffices onto : ∀ line, '\n' ∉ line → motive (line ++ source) from onto [] List.not_mem_nil
  induction source with
  | nil =>
      intro line isLine
      rw [List.append_nil]
      exact last line isLine
  | cons c rest ih =>
      intro line isLine
      by_cases isBreak : c = '\n'
      · subst isBreak
        exact more line rest isLine (ih [] List.not_mem_nil)
      · have longer := ih (line ++ [c]) (by simp [isLine, Ne.symm isBreak])
        rwa [List.append_assoc, List.singleton_append] at longer

section Line

variable {line rest : List Char} {offset : Nat} (isLine : '\n' ∉ line)
include isLine

theorem lineBefore_first
    (tail : List Char)
    (within : offset ≤ line.length) :
    lineBefore (line ++ tail) offset = line.take offset := by
  rw [lineBefore, List.take_append_of_le_length within, List.rtakeWhile_eq_self_iff]
  intro c member
  simpa using fun isBreak : c = '\n' => isLine (isBreak ▸ List.mem_of_mem_take member)

theorem lineAfter_first
    {tail : List Char}
    (ends : tail.takeWhile (· != '\n') = [])
    (within : offset ≤ line.length) :
    lineAfter (line ++ tail) offset = line.drop offset := by
  rw [lineAfter, List.drop_append_of_le_length within, List.takeWhile_append_of_pos, ends,
    List.append_nil]
  intro c member
  simpa using fun isBreak : c = '\n' => isLine (isBreak ▸ List.mem_of_mem_drop member)

theorem lineAt_first
    {tail : List Char}
    (ends : tail.takeWhile (· != '\n') = [])
    (within : offset ≤ line.length) :
    lineAt (line ++ tail) offset = line := by
  rw [lineAt, lineBefore_first isLine tail within, lineAfter_first isLine ends within,
    List.take_append_drop]

theorem count_take_first
    (tail : List Char)
    (within : offset ≤ line.length) :
    ((line ++ tail).take offset).count '\n' = 0 := by
  rw [List.take_append_of_le_length within, List.count_eq_zero]
  exact fun member => isLine (List.mem_of_mem_take member)

theorem throughLine_first
    {tail : List Char}
    (ends : tail.takeWhile (· != '\n') = [])
    (within : offset ≤ line.length) :
    throughLine (line ++ tail) offset = line ++ tail.take 1 := by
  rw [throughLine, lineAfter_first isLine ends within, List.length_drop, Nat.add_sub_cancel' within,
    List.take_length_add_append]

end Line

section Later

variable (line rest : List Char) (offset : Nat)

theorem take_later :
    (line ++ '\n' :: rest).take (line.length + 1 + offset) = line ++ '\n' :: rest.take offset := by
  rw [Nat.add_assoc, List.take_length_add_append, Nat.add_comm 1, List.take_succ_cons]

theorem drop_later :
    (line ++ '\n' :: rest).drop (line.length + 1 + offset) = rest.drop offset := by
  rw [Nat.add_assoc, List.drop_length_add_append, Nat.add_comm 1, List.drop_succ_cons]

theorem lineBefore_later :
    lineBefore (line ++ '\n' :: rest) (line.length + 1 + offset) = lineBefore rest offset := by
  rw [lineBefore, take_later, lineBefore, List.rtakeWhile, List.rtakeWhile, List.reverse_append,
    List.reverse_cons, List.append_assoc, List.takeWhile_append]
  split
  · next all =>
      rw [List.singleton_append, List.takeWhile_cons_of_neg (by simp), List.append_nil,
        ((List.takeWhile_sublist _).eq_of_length all)]
  · rfl

theorem lineAfter_later :
    lineAfter (line ++ '\n' :: rest) (line.length + 1 + offset) = lineAfter rest offset := by
  rw [lineAfter, drop_later, lineAfter]

theorem lineAt_later :
    lineAt (line ++ '\n' :: rest) (line.length + 1 + offset) = lineAt rest offset := by
  rw [lineAt, lineBefore_later, lineAfter_later, lineAt]

theorem throughLine_later :
    throughLine (line ++ '\n' :: rest) (line.length + 1 + offset) =
      line ++ '\n' :: throughLine rest offset := by
  rw [throughLine, lineAfter_later, Nat.add_assoc, Nat.add_assoc, take_later, throughLine,
    Nat.add_assoc]

end Later

/-! ### Lines of an excerpt -/

section Split

variable {line rest : List Char} (isLine : '\n' ∉ line)

theorem withoutReturn_cons
    {c : Char}
    (other : c ≠ '\r')
    (line : List Char) :
    withoutReturn (c :: line) = c :: withoutReturn line := by
  rw [withoutReturn, List.rdropWhile, List.reverse_cons, List.dropWhile_append]
  split
  · next all =>
      rw [List.dropWhile_cons_of_neg (by simpa using other), withoutReturn, List.rdropWhile,
        List.isEmpty_iff.mp all]
      rfl
  · rw [List.reverse_append]
    rfl

theorem ne_return_of_not_isLineSeparator
    {c : Char}
    (other : isLineSeparator c = false) :
    c ≠ '\r' := by
  rintro rfl
  cases other

theorem splitLinesFrom_cons
    {c : Char}
    (other : isLineSeparator c = false)
    (line rest : List Char) :
    splitLinesFrom line (c :: rest) = splitLinesFrom (c :: line) rest := by
  rw [splitLinesFrom]
  · rw [other]
    rfl
  · exact fun _ isReturn => absurd isReturn (ne_return_of_not_isLineSeparator other)

theorem splitLinesFrom_newline
    (line rest : List Char) :
    splitLinesFrom line ('\n' :: rest) = line.reverse :: splitLinesFrom [] rest := by
  rw [splitLinesFrom]
  · rfl
  · exact fun _ isReturn => absurd isReturn (by decide)

include isLine

/-- Lines that end at newlines are checked one by one. -/
theorem breaksAtNewlines_append
    (rest : List Char) :
    breaksAtNewlines (line ++ '\n' :: rest) =
      (breaksAtNewlines (line ++ ['\n']) && breaksAtNewlines rest) := by
  induction line with
  | nil => simp [breaksAtNewlines]
  | cons c line ih =>
      have next : (line ++ '\n' :: rest).head? = (line ++ ['\n']).head? := by
        cases line <;> rfl
      rw [List.cons_append, List.cons_append, breaksAtNewlines, breaksAtNewlines, next,
        ih fun member => isLine (List.mem_cons_of_mem _ member), Bool.and_assoc]

/-- A line before a newline is shown without the carriage return at its end. -/
theorem splitLinesFrom_line
    (breaks : breaksAtNewlines (line ++ ['\n']) = true)
    (opened rest : List Char) :
    splitLinesFrom opened (line ++ '\n' :: rest) =
      (opened.reverse ++ withoutReturn line) :: splitLinesFrom [] rest := by
  induction line generalizing opened with
  | nil =>
      rw [List.nil_append, splitLinesFrom_newline, withoutReturn, List.rdropWhile_nil,
        List.append_nil]
  | cons c line ih =>
      obtain ⟨notBreak, isLine⟩ := List.ne_and_not_mem_of_not_mem_cons isLine
      simp only [List.cons_append, breaksAtNewlines, Bool.and_eq_true, Bool.or_eq_true,
        Bool.not_eq_true', beq_iff_eq, notBreak.symm, false_or] at breaks
      obtain ⟨other | ⟨rfl, before⟩, breaks⟩ := breaks
      · have notReturn := ne_return_of_not_isLineSeparator other
        rw [List.cons_append, splitLinesFrom_cons other, ih isLine breaks,
          withoutReturn_cons notReturn, List.reverse_cons, List.append_assoc, List.singleton_append]
      · -- Behind a carriage return there is nothing but the newline.
        cases line with
        | nil =>
            show opened.reverse :: splitLinesFrom [] rest = _
            rw [withoutReturn, List.rdropWhile_singleton, if_pos (by decide), List.append_nil]
        | cons d line => exact absurd (Option.some.inj before).symm (by simp_all)

/-- The last line is shown as it is. -/
theorem splitLinesFrom_last
    (breaks : breaksAtNewlines line = true)
    {opened : List Char}
    (shown : opened ≠ [] ∨ line ≠ []) :
    splitLinesFrom opened line = [opened.reverse ++ withoutReturn line] := by
  induction line generalizing opened with
  | nil =>
      have filled : opened.isEmpty = false := by simpa using shown
      rw [splitLinesFrom, filled, withoutReturn, List.rdropWhile_nil, List.append_nil]
      rfl
  | cons c line ih =>
      obtain ⟨notBreak, isLine⟩ := List.ne_and_not_mem_of_not_mem_cons isLine
      simp only [breaksAtNewlines, Bool.and_eq_true, Bool.or_eq_true, Bool.not_eq_true', beq_iff_eq,
        notBreak.symm, false_or] at breaks
      obtain ⟨other | ⟨-, before⟩, breaks⟩ := breaks
      · have notReturn := ne_return_of_not_isLineSeparator other
        rw [splitLinesFrom_cons other, ih isLine breaks (.inl (List.cons_ne_nil _ _)),
          withoutReturn_cons notReturn, List.reverse_cons, List.append_assoc, List.singleton_append]
      · exact absurd (List.mem_of_mem_head? before) isLine

end Split

/-- An excerpt counts lines as offsets do, as long as lines end at newlines up to the line in
question. -/
theorem splitLines_lineAt
    {source : List Char} {offset : Nat}
    (inside : offset < source.length)
    (breaks : breaksAtNewlines (throughLine source offset) = true) :
    (splitLines source)[(source.take offset).count '\n']? =
      some (withoutReturn (lineAt source offset)) := by
  induction source using lines_induction generalizing offset with
  | last line isLine =>
      have before := count_take_first isLine [] inside.le
      have here := @lineAt_first line offset isLine [] rfl inside.le
      have through := @throughLine_first line offset isLine [] rfl inside.le
      rw [List.append_nil] at before here through
      rw [through, List.take_nil, List.append_nil] at breaks
      have filled : line ≠ [] := List.ne_nil_of_length_pos (Nat.zero_lt_of_lt inside)
      rw [before, here, splitLines, splitLinesFrom_last isLine breaks (.inr filled)]
      rfl
  | more line rest isLine ih =>
      rcases Nat.lt_or_ge line.length offset with later | within
      · obtain ⟨offset, rfl⟩ := Nat.exists_eq_add_of_le (Nat.succ_le_of_lt later)
        rw [throughLine_later, breaksAtNewlines_append isLine, Bool.and_eq_true] at breaks
        have inRest : offset < rest.length := by
          rw [List.length_append, List.length_cons] at inside
          omega
        have noBreak : line.count '\n' = 0 := List.count_eq_zero.mpr isLine
        rw [take_later, lineAt_later, List.count_append, noBreak, List.count_cons_self,
          Nat.zero_add, splitLines, splitLinesFrom_line isLine breaks.1, List.getElem?_cons_succ]
        exact ih inRest breaks.2
      · have ends : ('\n' :: rest).takeWhile (· != '\n') = [] := List.takeWhile_cons_of_neg (by simp)
        rw [throughLine_first isLine ends within] at breaks
        rw [count_take_first isLine _ within, lineAt_first isLine ends within, splitLines,
          splitLinesFrom_line isLine breaks]
        rfl

/-! ### Carets -/

/-- Whether a text shows a line, and under the character of the line at a column, counted from zero, a
caret: the line stands behind a margin on a line of its own, and the caret on the next. -/
def PointsAt (text : String) (line : List Char) (column : Nat) : Prop :=
  ∃ above margin indent below : String,
    text = above ++ (margin ++ String.ofList line ++ "\n" ++ indent ++ "^") ++ below ∧
      (above = "" ∨ ∃ a, above = a ++ "\n") ∧ (below = "" ∨ ∃ b, below = "\n" ++ b) ∧
      '\n' ∉ margin.toList ∧ '\n' ∉ indent.toList ∧ indent.length = margin.length + column

namespace PointsAt

variable {text : String} {line : List Char} {column : Nat} (points : PointsAt text line column)
include points

theorem after
    (head : String) :
    PointsAt (head ++ "\n" ++ text) line column := by
  obtain ⟨above, margin, indent, below, rfl, starts, ends, rest⟩ := points
  refine ⟨head ++ "\n" ++ above, margin, indent, below, ?_, .inr ?_, ends, rest⟩
  · simp only [String.append_assoc]
  · rcases starts with rfl | ⟨a, rfl⟩
    · exact ⟨head, String.append_empty⟩
    · exact ⟨head ++ "\n" ++ a, by simp only [String.append_assoc]⟩

theorem before
    (more : String) :
    PointsAt (text ++ "\n" ++ more) line column := by
  obtain ⟨above, margin, indent, below, rfl, starts, ends, rest⟩ := points
  refine ⟨above, margin, indent, below ++ "\n" ++ more, ?_, starts, .inr ?_, rest⟩
  · simp only [String.append_assoc]
  · rcases ends with rfl | ⟨b, rfl⟩
    · exact ⟨more, by rw [String.empty_append]⟩
    · exact ⟨b ++ "\n" ++ more, by simp only [String.append_assoc]⟩

theorem mem
    {c : Char}
    (inLine : c ∈ line) :
    c ∈ text.toList := by
  obtain ⟨above, margin, indent, below, rfl, -⟩ := points
  simp [inLine]

/-- What one of several texts shows they show one below the other. -/
theorem intercalate
    {texts : List String}
    (member : text ∈ texts) :
    PointsAt ("\n".intercalate texts) line column := by
  induction texts with
  | nil => cases member
  | cons first rest ih =>
      cases rest with
      | nil =>
          rw [String.intercalate_singleton, ← List.mem_singleton.mp member]
          exact points
      | cons second rest =>
          rw [String.intercalate_cons_cons]
          rcases List.mem_cons.mp member with rfl | later
          · exact points.before _
          · exact (ih later).after first

end PointsAt

/-- An excerpt of a single line is the line with its number and a caret. -/
theorem excerpt_line
    {source content : List Char} {line : Nat}
    (found : (splitLines source)[line]? = some content)
    (column : Nat) :
    excerpt source ((line + 1 : Nat) : Int) (some ((column + 1 : Nat) : Int)) 0 =
      "\n".intercalate [">" ++ " " ++ Nat.repr (line + 1) ++ " | " ++ String.ofList content,
        "  " ++ blanks (Nat.repr (line + 1)).length ++ " | " ++ blanks column ++ "^"] := by
  have isLine := (List.getElem?_eq_some_iff.mp found).1
  have inside : ¬(((line + 1 : Nat) : Int) < 1 ∨
      ((splitLines source).length : Int) < (line + 1 : Nat)) := by omega
  have first : (max 1 (((line + 1 : Nat) : Int) - 0)).toNat = line + 1 := by omega
  have last : min ((splitLines source).length : Int) (((line + 1 : Nat) : Int) + 0) =
      (line + 1 : Nat) := by omega
  have one : (((line + 1 : Nat) : Int) + 1 - ((line + 1 : Nat) : Int)).toNat = 1 := by omega
  have width : (toString ((line + 1 : Nat) : Int)).length = (Nat.repr (line + 1)).length := rfl
  rw [excerpt]
  simp only [if_neg inside, first, last, one, width]
  simp [excerptLine, padLeft, found]

theorem newline_notMem_toDigits
    (n : Nat) :
    '\n' ∉ Nat.toDigits 10 n :=
  fun member => absurd (Number.isDigit_of_mem_toDigits member) (by decide)

theorem newline_notMem_blanks
    (n : Nat) :
    '\n' ∉ (blanks n).toList := by
  intro member
  rw [blanks, String.toList_ofList] at member
  exact absurd (List.eq_of_mem_replicate member) (by decide)

/-- An excerpt of the line of an offset points at the offset. -/
theorem pointsAt_excerpt
    {source : List Char} {offset : Nat}
    (inside : offset < source.length)
    (breaks : breaksAtNewlines (throughLine source offset) = true) :
    PointsAt (excerpt source (lineCol source offset).1 (some ((lineCol source offset).2 : Int)) 0)
      (withoutReturn (lineAt source offset)) (lineBefore source offset).length := by
  have column : (lineCol source offset).2 = (lineBefore source offset).length + 1 := by
    simp [lineCol, lastLineLength, lineBefore, List.rtakeWhile, inside.le]
  rw [column]
  refine ⟨"", ">" ++ " " ++ Nat.repr (lineCol source offset).1 ++ " | ",
    "  " ++ blanks (Nat.repr (lineCol source offset).1).length ++ " | " ++
      blanks (lineBefore source offset).length, "", ?_, .inl rfl, .inl rfl, ?_, ?_, ?_⟩
  · rw [lineCol, excerpt_line (splitLines_lineAt inside breaks), String.intercalate_cons_cons,
      String.intercalate_singleton]
    simp only [String.empty_append, String.append_empty, String.append_assoc]
  · simp [newline_notMem_toDigits]
  · simp [newline_notMem_blanks]
  · have sameMark : ">".length + " ".length = "  ".length := by decide
    simp only [blanks, String.length_append, String.length_ofList, List.length_replicate]
    omega

end Text

open Text

/-! ### Reports -/

/-- A problem of a text that does not compile is located by its offset. -/
theorem located_of_compile
    {config : Config} {source : List Char} {problems : List Problem}
    (fails : Program.compile config source = .error problems)
    {p : Problem}
    (member : p ∈ problems) :
    (p.line, p.col) = lineCol source p.span.start := by
  rw [Program.compile, Parser.parse_eq] at fails
  split at fails
  · cases fails
  · obtain rfl := Except.error.inj fails
    obtain ⟨e, -, rfl⟩ := List.mem_map.mp ((List.mergeSort_perm _ _).mem_iff.mp member)
    rfl

theorem Report.format_ofSource_of_error
    {config : Config} {source : List Char} {problems : List Problem}
    (fails : Program.compile config source = .error problems)
    (context : Context) :
    (ofSource config context source).format = renderProblems source problems := by
  rw [ofSource, fails]
  rfl

/-- What an excerpt points at, a report with the excerpt below its head does. -/
theorem pointsAt_of_context
    {head context : String} {line : List Char} {column : Nat}
    (points : PointsAt context line column) :
    PointsAt (if context = "" then head else head ++ "\n" ++ context) line column := by
  have shown : context ≠ "" := by
    rintro rfl
    obtain ⟨above, margin, indent, below, empty, -⟩ := points
    have := congrArg String.toList empty
    simp at this
  rw [if_neg shown]
  exact points.after head

/-- A problem of a text that does not compile points at its offset. -/
theorem Problem.pointsAt_render
    {source : List Char} {p : Problem}
    (located : (p.line, p.col) = lineCol source p.span.start)
    (inside : p.span.start < source.length)
    (breaks : breaksAtNewlines (throughLine source p.span.start) = true) :
    PointsAt (p.render source) (withoutReturn (lineAt source p.span.start))
      (lineBefore source p.span.start).length := by
  have points := pointsAt_excerpt inside breaks
  rw [← located] at points
  exact pointsAt_of_context points

/-- The report of a failed execution points at the start of its span. -/
theorem Report.pointsAt_format
    {report : Report} {failure : Failure} {span : Span}
    (failed : report.result = .error (.execute failure))
    (known : report.span = some span)
    (inside : span.start < report.source.length)
    (breaks : breaksAtNewlines (throughLine report.source span.start) = true) :
    PointsAt report.format (withoutReturn (lineAt report.source span.start))
      (lineBefore report.source span.start).length := by
  rw [Report.format, failed, known]
  exact pointsAt_of_context (pointsAt_excerpt inside breaks)

/-- Every error that is located in a source text is shown with the line on which it starts, and a caret
under the character there, as long as lines end at newlines up to the end of that line.  A carriage
return before the newline is not shown. -/
theorem pointsAt_of_error
    {source : List Char} {offset : Nat}
    (inside : offset < source.length)
    (breaks : breaksAtNewlines (throughLine source offset) = true) :
    let text := lineAt source offset
    let column := (lineBefore source offset).length
    (∀ c, source[offset]? = some c → c ≠ '\n' → text[column]? = some c) ∧
      ('\r' ∉ text → withoutReturn text = text) ∧
      (∀ config problems, Program.compile config source = .error problems →
        ∀ p ∈ problems, p.span.start = offset →
          PointsAt (renderProblems source problems) (withoutReturn text) column) ∧
      ∀ report : Report, report.source = source →
        ∀ failure, report.result = .error (.execute failure) →
          ∀ span, report.span = some span → span.start = offset →
            PointsAt report.format (withoutReturn text) column := by
  refine ⟨fun c => getElem?_lineAt, withoutReturn_eq_self, ?_, ?_⟩
  · rintro config problems fails p member rfl
    exact (p.pointsAt_render (located_of_compile fails member) inside breaks).intercalate
      (List.mem_map_of_mem member)
  · rintro report rfl failure failed span known rfl
    exact Report.pointsAt_format failed known inside breaks

/-- Whether a report is of a failed execution, the failure starting at an offset. -/
def failsFrom (offset : Nat) (report : Report) : Bool :=
  match report.result, report.span with
  | .error (.execute _), some span => span.start == offset
  | _, _ => false

theorem exists_of_failsFrom
    {offset : Nat} {report : Report}
    (h : failsFrom offset report = true) :
    ∃ failure span, report.result = .error (.execute failure) ∧ report.span = some span ∧
      span.start = offset := by
  unfold failsFrom at h
  split at h
  next failure span failed known => exact ⟨failure, span, failed, known, beq_iff_eq.mp h⟩
  · cases h

/-- Whether a text does not compile, one of its problems starting at an offset. -/
def reportsAt (offset : Nat) (config : Config) (source : List Char) : Bool :=
  match Program.compile config source with
  | .error problems => problems.any (·.span.start == offset)
  | .ok _ => false

theorem exists_of_reportsAt
    {offset : Nat} {config : Config} {source : List Char}
    (h : reportsAt offset config source = true) :
    ∃ problems, Program.compile config source = .error problems ∧
      ∃ p ∈ problems, p.span.start = offset := by
  unfold reportsAt at h
  split at h
  next problems fails =>
    obtain ⟨p, member, starts⟩ := List.any_eq_true.mp h
    exact ⟨problems, fails, p, member, beq_iff_eq.mp starts⟩
  · cases h

/-- A division by zero on the second line, and a character that begins no token. -/
theorem pointsAt_of_error_second_line :
    let failing := "1 +\r\n(2 / 0)\r\n".toList
    let malformed := "[1,\n 2 $]".toList
    PointsAt (Report.ofSource .standard [] failing).format "(2 / 0)".toList 1 ∧
      ∃ problems, Program.compile .standard malformed = .error problems ∧
        PointsAt (renderProblems malformed problems) " 2 $]".toList 3 := by
  intro failing malformed
  constructor
  · have fails : failsFrom 6 (Report.ofSource .standard [] failing) = true := by decide +kernel
    obtain ⟨failure, span, failed, known, starts⟩ := exists_of_failsFrom fails
    have source : (Report.ofSource .standard [] failing).source = failing := by decide +kernel
    have points := (@pointsAt_of_error failing 6 (by decide) (by decide)).2.2.2 _ source _ failed _
      known starts
    have line : withoutReturn (lineAt failing 6) = "(2 / 0)".toList := by decide
    have column : (lineBefore failing 6).length = 1 := by decide
    rwa [line, column] at points
  · obtain ⟨problems, compiled, p, member, starts⟩ :
        ∃ problems, Program.compile .standard malformed = .error problems ∧
          ∃ p ∈ problems, p.span.start = 7 := exists_of_reportsAt (by decide +kernel)
    have points := (@pointsAt_of_error malformed 7 (by decide) (by decide)).2.2.1 _ _ compiled p member
      starts
    have line : withoutReturn (lineAt malformed 7) = " 2 $]".toList := by decide
    have column : (lineBefore malformed 7).length = 3 := by decide
    rw [line, column] at points
    exact ⟨problems, compiled, points⟩

/-- A form feed is blank to the scanner and no newline, but it ends a line of an excerpt. -/
theorem not_pointsAt_after_form_feed :
    let failing := "true ?\x0c1/0 : 2".toList
    let malformed := "1\x0c$".toList
    failsFrom 7 (Report.ofSource .standard [] failing) = true ∧
      ¬PointsAt (Report.ofSource .standard [] failing).format (lineAt failing 7)
        (lineBefore failing 7).length ∧
      ∃ problems, Program.compile .standard malformed = .error problems ∧
        (∃ p ∈ problems, p.span.start = 2) ∧
        ¬PointsAt (renderProblems malformed problems) (lineAt malformed 2)
          (lineBefore malformed 2).length := by
  intro failing malformed
  have shown : (Report.ofSource .standard [] failing).format =
      "Error on line 1, col 8: DivisionByZero: Division by zero of 1\n" ++
        "> 1 | true ?\n    |        ^" := by decide +kernel
  have rendered : (Report.ofSource .standard [] malformed).format =
      "ParseError: Unexpected character '$' (line 1, col 3)\n> 1 | 1\n    |   ^" := by decide +kernel
  obtain ⟨problems, compiled, starts⟩ :
      ∃ problems, Program.compile .standard malformed = .error problems ∧
        ∃ p ∈ problems, p.span.start = 2 := exists_of_reportsAt (by decide +kernel)
  refine ⟨by decide +kernel, fun points => ?_, problems, compiled, starts, fun points => ?_⟩
  · have inText := points.mem (c := '\x0c') (by decide)
    rw [shown] at inText
    exact absurd inText (by decide)
  · rw [Report.format_ofSource_of_error compiled] at rendered
    have inText := points.mem (c := '\x0c') (by decide)
    rw [rendered] at inText
    exact absurd inText (by decide)

end ExprLang
