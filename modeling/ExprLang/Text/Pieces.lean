/-!
# The pieces of a text between marks

`pieces` cuts a text at every occurrence of a mark, from the left and without overlap, and `join`
puts pieces together again.

* `join_pieces`: joining the pieces of a text gives the text.
* `length_pieces_pos`: there is always a first piece.
-/

namespace ExprLang
namespace Text

/-- Puts a character in front of the first piece. -/
def extendFirst (c : Char) : List (List Char) → List (List Char)
  | [] => [[c]]
  | piece :: rest => (c :: piece) :: rest

/-- The pieces of a text after `skipped` characters that belong to a mark. -/
def piecesAfter (mark : List Char) : Nat → List Char → List (List Char)
  | _, [] => [[]]
  | skipped + 1, _ :: rest => piecesAfter mark skipped rest
  | 0, c :: rest =>
      if !mark.isEmpty && mark.isPrefixOf (c :: rest) then [] :: piecesAfter mark (mark.length - 1) rest
      else extendFirst c (piecesAfter mark 0 rest)

/-- The pieces of a text between the occurrences of a mark; an empty mark occurs nowhere. -/
def pieces (mark cs : List Char) : List (List Char) :=
  piecesAfter mark 0 cs

/-- Pieces with a mark between them. -/
def join (mark : List Char) (ps : List (List Char)) : List Char :=
  mark.intercalate ps

/-- How often a mark occurs in a text. -/
def occurrences (mark cs : List Char) : Nat :=
  (pieces mark cs).length - 1

/-- Whether a mark occurs in a text. -/
def occurs (mark cs : List Char) : Bool :=
  occurrences mark cs != 0

theorem length_piecesAfter_pos (mark : List Char) (skipped : Nat) (cs : List Char) :
    0 < (piecesAfter mark skipped cs).length := by
  induction cs generalizing skipped with
  | nil => cases skipped <;> simp [piecesAfter]
  | cons c rest ih =>
      cases skipped with
      | succ skipped => simpa [piecesAfter] using ih skipped
      | zero =>
          simp only [piecesAfter]
          split
          · simp
          · cases h : piecesAfter mark 0 rest <;> simp [extendFirst]

theorem length_pieces_pos (mark cs : List Char) : 0 < (pieces mark cs).length :=
  length_piecesAfter_pos mark 0 cs

theorem join_extendFirst
    (mark : List Char) (c : Char) (ps : List (List Char))
    (h : 0 < ps.length) :
    join mark (extendFirst c ps) = c :: join mark ps := by
  match ps, h with
  | [piece], _ => simp [join, extendFirst, List.intercalate]
  | piece :: next :: rest, _ => simp [join, extendFirst, List.intercalate]

theorem join_nil_cons
    (mark : List Char) (ps : List (List Char))
    (h : 0 < ps.length) :
    join mark ([] :: ps) = mark ++ join mark ps := by
  match ps, h with
  | piece :: rest, _ => simp [join, List.intercalate]

theorem join_piecesAfter
    (mark : List Char) (skipped : Nat) (cs : List Char)
    (h : skipped ≤ cs.length) :
    join mark (piecesAfter mark skipped cs) = cs.drop skipped := by
  induction cs generalizing skipped with
  | nil => cases skipped <;> simp [piecesAfter, join, List.intercalate]
  | cons c rest ih =>
      cases skipped with
      | succ skipped => simpa [piecesAfter] using ih skipped (by simpa using h)
      | zero =>
          simp only [piecesAfter, List.drop_zero]
          split
          · rename_i found
            simp only [Bool.and_eq_true] at found
            rw [join_nil_cons _ _ (length_piecesAfter_pos _ _ _)]
            obtain ⟨tail, htail⟩ := List.isPrefixOf_iff_prefix.1 found.2
            cases mark with
            | nil => simp at found
            | cons m more =>
                simp only [List.cons_append, List.cons.injEq] at htail
                rw [ih _ (by simp [← htail.2])]
                simp [← htail.1, ← htail.2]
          · rw [join_extendFirst _ _ _ (length_piecesAfter_pos _ _ _), ih 0 (by simp)]
            simp

/-- Joining the pieces of a text gives the text. -/
theorem join_pieces (mark cs : List Char) : join mark (pieces mark cs) = cs := by
  simpa [pieces] using join_piecesAfter mark 0 cs (by simp)

end Text
end ExprLang
