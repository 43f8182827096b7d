import Mathlib.Data.List.Basic
import Mathlib.Data.Prod.Lex
import Mathlib.Order.Monotone.Basic
import ExprLang.Text.Position

/-!
# Lines and columns as positions

The line and the column of an offset say no less than the offset, and they are ordered as offsets are.
One step to the right either goes on in the line or, behind a newline, to the start of the next, so that
all follows by induction on the offset, past the end of the text too.

* `lineCol_succ_newline`, `lineCol_succ_other`: one step to the right.
* `strictMono_lineCol`: a later offset has a later line, or a later column on the same line.
* `getElem?_lineStarts_lineCol`: the offset is as far behind the start of its line as the column says.
* `lineCol_isPosition`: lines and columns as positions.
-/

namespace ExprLang
namespace Text

/-- The offsets at which lines start: that of the text, and behind each newline. -/
def lineStarts (source : List Char) : List Nat :=
  0 :: (source.idxsOf '\n').map (· + 1)

variable {source : List Char} {offset : Nat}

/-! ### One step to the right -/

theorem lastLineLength_append_newline
    (before : List Char) :
    lastLineLength (before ++ ['\n']) = 0 := by
  simp [lastLineLength]

theorem lastLineLength_append_other
    {c : Char}
    (other : c ≠ '\n')
    (before : List Char) :
    lastLineLength (before ++ [c]) = lastLineLength before + 1 := by
  simp [lastLineLength, other]

/-- Behind a newline the next line starts. -/
theorem lineCol_succ_newline
    (newline : source[offset]? = some '\n') :
    lineCol source (offset + 1) = ((lineCol source offset).1 + 1, 1) := by
  have inside := (List.getElem?_eq_some_iff.mp newline).1
  have grown : source.take (offset + 1) = source.take offset ++ ['\n'] := by
    rw [List.take_add_one, newline]
    rfl
  have length : (source.take offset).length = offset := List.length_take_of_le inside.le
  simp [lineCol, grown, length, lastLineLength_append_newline]

/-- Elsewhere, and past the end of the text, the line goes on. -/
theorem lineCol_succ_other
    (other : source[offset]? ≠ some '\n') :
    lineCol source (offset + 1) = ((lineCol source offset).1, (lineCol source offset).2 + 1) := by
  have grown : source.take (offset + 1) = source.take offset ++ source[offset]?.toList :=
    List.take_add_one
  cases found : source[offset]? with
  | none =>
      have past := List.getElem?_eq_none_iff.mp found
      have whole : source.take offset = source := List.take_of_length_le past
      rw [found, whole] at grown
      simp only [lineCol, grown, whole, Option.toList_none, List.append_nil]
      rw [Nat.sub_add_comm past, Nat.add_assoc _ (_ - _) 1]
  | some c =>
      have inside := (List.getElem?_eq_some_iff.mp found).1
      have isOther : c ≠ '\n' := fun isNewline => other (isNewline ▸ found)
      have length : (source.take offset).length = offset := List.length_take_of_le inside.le
      rw [found] at grown
      simp [lineCol, grown, length, lastLineLength_append_other isOther, isOther]

/-! ### Positions -/

/-- A later offset has a later line, or a later column on the same line. -/
theorem strictMono_lineCol
    (source : List Char) :
    StrictMono fun offset => toLex (lineCol source offset) := by
  refine strictMono_nat_of_lt_succ fun offset => ?_
  rw [Prod.Lex.toLex_lt_toLex]
  by_cases newline : source[offset]? = some '\n'
  · rw [lineCol_succ_newline newline]
    exact .inl (Nat.lt_succ_self _)
  · rw [lineCol_succ_other newline]
    exact .inr ⟨rfl, Nat.lt_succ_self _⟩

/-- Behind a newline starts the line that the newlines up to there give. -/
theorem getElem?_lineStarts_newline
    (newline : source[offset]? = some '\n') :
    (lineStarts source)[(lineCol source offset).1]? = some (offset + 1) := by
  obtain ⟨inside, here⟩ := List.getElem?_eq_some_iff.mp newline
  have isNewline : (source[offset] == '\n') = true := beq_iff_eq.mpr here
  have bound : (source.take offset).count '\n' < (source.idxsOf '\n').length := by
    rw [List.length_idxsOf, ← List.countBefore_eq_count_take]
    exact List.countBefore_lt_count_of_lt_length_of_beq isNewline
  have place : (source.idxsOf '\n')[(source.take offset).count '\n'] = offset := by
    rw [List.getElem_idxOf_eq_idxOfNth, ← List.countBefore_eq_count_take]
    exact List.idxOfNth_countBefore_of_lt_length_of_beq isNewline
  rw [lineStarts, lineCol, List.getElem?_cons_succ, List.getElem?_map,
    List.getElem?_eq_getElem bound, place]
  rfl

/-- An offset is as far behind the start of its line as its column says. -/
theorem getElem?_lineStarts_lineCol
    (source : List Char) (offset : Nat) :
    ∃ start, (lineStarts source)[(lineCol source offset).1 - 1]? = some start ∧
      start + (lineCol source offset).2 = offset + 1 := by
  induction offset with
  | zero => exact ⟨0, rfl, rfl⟩
  | succ offset ih =>
      by_cases newline : source[offset]? = some '\n'
      · rw [lineCol_succ_newline newline]
        exact ⟨offset + 1, getElem?_lineStarts_newline newline, rfl⟩
      · obtain ⟨start, isStart, column⟩ := ih
        rw [lineCol_succ_other newline]
        exact ⟨start, isStart, congrArg (· + 1) column⟩

/-- The first column is that of the start of the text and of what follows a newline. -/
theorem column_eq_one_iff :
    (lineCol source offset).2 = 1 ↔
      offset = 0 ∨ ∃ before, offset = before + 1 ∧ source[before]? = some '\n' := by
  cases offset with
  | zero => exact ⟨fun _ => .inl rfl, fun _ => rfl⟩
  | succ before =>
      by_cases newline : source[before]? = some '\n'
      · rw [lineCol_succ_newline newline]
        exact ⟨fun _ => .inr ⟨before, rfl, newline⟩, fun _ => rfl⟩
      · rw [lineCol_succ_other newline]
        constructor
        · intro first
          have positive : 0 < (lineCol source before).2 := Nat.succ_pos _
          omega
        · rintro (⟨⟨⟩⟩ | ⟨_, ⟨⟩, isNewline⟩)
          exact absurd isNewline newline

/-- Lines and columns are ordered as the offsets are, an offset is found again behind the start of its
line, and the first column is where a line starts. -/
theorem lineCol_isPosition
    (source : List Char) :
    (StrictMono fun offset => toLex (lineCol source offset)) ∧
      ∀ offset,
        (∃ start, (lineStarts source)[(lineCol source offset).1 - 1]? = some start ∧
          start + (lineCol source offset).2 - 1 = offset) ∧
        ((lineCol source offset).2 = 1 ↔
          offset = 0 ∨ ∃ before, offset = before + 1 ∧ source[before]? = some '\n') := by
  refine ⟨strictMono_lineCol source, fun offset => ⟨?_, column_eq_one_iff⟩⟩
  obtain ⟨start, isStart, column⟩ := getElem?_lineStarts_lineCol source offset
  exact ⟨start, isStart, by rw [column, Nat.add_sub_cancel]⟩

end Text
end ExprLang
