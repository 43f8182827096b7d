import ExprLang.Proofs.Documents
import ExprLang.Proofs.JsonTokens

/-!
# JSON read back

The text of a regular document is read as the document, its members in the order in which they were
written.

* `Reads`: reading the text of a document in front of what may follow it.
* `reads_renderAt`: by induction on the document; arrays and objects item by item.
* `parse_render`: the whole text.
-/

namespace ExprLang
namespace Json

open Document (Everywhere Regular ReadsBack)

variable {style : Style} {level : Nat} {rest : List Char}

/-! ### Blanks -/

theorem skipBlank_append
    {blanks : List Char}
    (blank : ∀ c ∈ blanks, isBlank c = true)
    (cs : List Char) :
    skipBlank (blanks ++ cs) = skipBlank cs :=
  List.dropWhile_append_of_pos blank

theorem skipBlank_cons
    {c : Char}
    (solid : isBlank c = false)
    (cs : List Char) :
    skipBlank (c :: cs) = c :: cs := by
  simp [skipBlank, solid]

theorem skipBlank_gap
    (style : Style)
    (level : Nat)
    (cs : List Char) :
    skipBlank (style.gap level ++ cs) = skipBlank cs := by
  refine skipBlank_append (fun c member => ?_) cs
  cases style with
  | compact => cases member
  | indented =>
      rcases List.mem_cons.mp member with rfl | blank
      · rfl
      · rw [List.eq_of_mem_replicate blank]
        rfl

theorem skipBlank_colon
    (style : Style)
    (cs : List Char) :
    ∃ blanks, style.colon ++ cs = ':' :: blanks ∧ skipBlank blanks = skipBlank cs := by
  cases style with
  | compact => exact ⟨cs, rfl, rfl⟩
  | indented => exact ⟨' ' :: cs, rfl, rfl⟩

/-- What closes an array or an object may follow its last item. -/
theorem ends_gap
    {c : Char}
    (closer : c ∈ closers)
    (style : Style)
    (level : Nat) :
    Ends (style.gap level ++ c :: rest) := by
  cases style with
  | compact => exact ends_cons closer
  | indented => exact ends_cons (by decide)

/-! ### The first character -/

/-- A text begins as documents do: not with a blank, nor with what closes an array. -/
def Opens (cs : List Char) : Prop :=
  ∃ c more, cs = c :: more ∧ isBlank c = false ∧ c ≠ ']'

theorem Opens.skipBlank
    {cs : List Char}
    (opens : Opens cs)
    (more : List Char) :
    skipBlank (cs ++ more) = cs ++ more := by
  obtain ⟨c, others, rfl, solid, -⟩ := opens
  exact skipBlank_cons solid (others ++ more)

/-- Blanks, what strings, arrays and objects begin with, and what closes an array. -/
def structural : List Char := ['"', '[', ']', '{', ' ', '\t', '\n', '\r']

/-- A text begins as words and numbers do. -/
def BeginsScalar (cs : List Char) : Prop :=
  ∃ c more, cs = c :: more ∧ c ∉ structural

theorem beginsScalar_number
    {cs : List Char}
    (begins : ∃ c more, cs = c :: more ∧ (c = '-' ∨ c.isDigit = true)) :
    BeginsScalar cs := by
  obtain ⟨c, more, rfl, kind⟩ := begins
  refine ⟨c, more, rfl, fun member => ?_⟩
  have other : ∀ d ∈ structural, d ≠ '-' ∧ d.isDigit = false := by decide
  obtain ⟨noSign, noDigit⟩ := other c member
  rcases kind with sign | digit
  · exact noSign sign
  · rw [digit] at noDigit
    cases noDigit

theorem BeginsScalar.opens
    {cs : List Char}
    (begins : BeginsScalar cs) :
    Opens cs := by
  obtain ⟨c, more, rfl, outside⟩ := begins
  refine ⟨c, more, rfl, ?_⟩
  simp_all [structural, isBlank]

theorem parseValue_scalar
    {cs : List Char}
    (begins : BeginsScalar cs)
    (fuel : Nat) :
    parseValue (fuel + 1) cs = takeScalar cs := by
  obtain ⟨c, more, rfl, outside⟩ := begins
  rw [parseValue]
  all_goals
    intro rest h
    rw [(List.cons.inj h).1] at outside
    exact outside (by decide)

/-! ### Documents -/

/-- The text of a document on a level is read as the document, whatever may follow it. -/
structure Reads (style : Style) (level : Nat) (d : Document) : Prop where
  opens : Opens (renderAt style level d)
  reads : ∀ fuel rest, (renderAt style level d).length < fuel → Ends rest →
    parseValue fuel (renderAt style level d ++ rest) = .ok (d, rest)

theorem reads_scalar
    {d : Document} {text : List Char}
    (written : renderAt style level d = text)
    (begins : BeginsScalar text)
    (taken : ∀ rest, Ends rest → takeScalar (text ++ rest) = .ok (d, rest)) :
    Reads style level d := by
  subst written
  refine ⟨begins.opens, fun fuel rest enough ends => ?_⟩
  obtain ⟨fuel, rfl⟩ : ∃ n, fuel = n + 1 := ⟨fuel - 1, by omega⟩
  obtain ⟨c, more, text, outside⟩ := begins
  rw [parseValue_scalar ⟨c, more ++ rest, by rw [text, List.cons_append], outside⟩]
  exact taken rest ends

theorem reads_string
    (s : String) :
    Reads style level (.string s) := by
  refine ⟨⟨'"', s.toList.flatMap escape ++ ['"'], by simp [renderAt, quote], by decide, by decide⟩,
    fun fuel rest enough _ => ?_⟩
  obtain ⟨fuel, rfl⟩ : ∃ n, fuel = n + 1 := ⟨fuel - 1, by omega⟩
  have text : renderAt style level (.string s) ++ rest =
      '"' :: (s.toList.flatMap escape ++ '"' :: rest) := by
    simp [renderAt, quote]
  rw [text, parseValue, takeString?_escapes]

/-! ### Arrays -/

section Items

variable {fuel : Nat} {d : Document} {items : List Document} {behind after : List Char}

/-- An item before the bracket that closes the array. -/
theorem parseItems_last
    (item : Reads style level d)
    (enough : (renderAt style level d).length < fuel)
    (ends : Ends behind)
    (close : skipBlank behind = ']' :: after) :
    parseItems (fuel + 1) (renderAt style level d ++ behind) = .ok ([d], after) := by
  rw [parseItems, item.reads fuel behind enough ends]
  simp only [close, bind, Except.bind, pure, Except.pure]

/-- An item before a comma and other items. -/
theorem parseItems_more
    {next : List Char}
    (item : Reads style level d)
    (enough : (renderAt style level d).length < fuel)
    (ends : Ends behind)
    (comma : skipBlank behind = ',' :: next)
    (others : parseItems fuel (skipBlank next) = .ok (items, after)) :
    parseItems (fuel + 1) (renderAt style level d ++ behind) = .ok (d :: items, after) := by
  rw [parseItems, item.reads fuel behind enough ends]
  simp only [comma, others, bind, Except.bind, pure, Except.pure]

end Items

/-- What stands behind the first item of an array: the other items and what closes the array. -/
def itemsBehind (style : Style) (level : Nat) (items : List Document) (rest : List Char) :
    List Char :=
  renderItems style (level + 1) items ++ (style.gap level ++ ']' :: rest)

theorem ends_itemsBehind
    (items : List Document) :
    Ends (itemsBehind style level items rest) := by
  cases items with
  | nil => exact ends_gap (by decide) style level
  | cons d items => exact ends_cons (by decide)

theorem itemsBehind_cons
    (d : Document)
    (items : List Document) :
    itemsBehind style level (d :: items) rest = ',' :: (style.gap (level + 1) ++
      (renderAt style (level + 1) d ++ itemsBehind style level items rest)) := by
  simp [itemsBehind, renderItems]

/-- The items of an array are read one after another. -/
theorem parseItems_render
    {d : Document} {items : List Document}
    (first : Reads style (level + 1) d)
    (others : ∀ e ∈ items, Reads style (level + 1) e)
    {fuel : Nat}
    (enough : (renderAt style (level + 1) d).length +
      (renderItems style (level + 1) items).length + 1 < fuel)
    (rest : List Char) :
    parseItems fuel (renderAt style (level + 1) d ++ itemsBehind style level items rest) =
      .ok (d :: items, rest) := by
  -- An item uses one step more than its text is long, and leaves the rest to the items behind it.
  obtain ⟨fuel, rfl⟩ : ∃ n, fuel = n + 1 := ⟨fuel - 1, by omega⟩
  induction items generalizing d fuel with
  | nil =>
      refine parseItems_last first (by omega) (ends_itemsBehind []) ?_
      rw [itemsBehind, renderItems, List.nil_append, skipBlank_gap, skipBlank_cons (by decide)]
  | cons e items ih =>
      obtain ⟨second, others⟩ := List.forall_mem_cons.mp others
      simp only [renderItems, List.length_cons, List.length_append] at enough
      obtain ⟨fuel, rfl⟩ : ∃ n, fuel = n + 1 := ⟨fuel - 1, by omega⟩
      refine parseItems_more first (by omega) (ends_itemsBehind (e :: items))
        (by rw [itemsBehind_cons, skipBlank_cons (by decide)]) ?_
      rw [skipBlank_gap, second.opens.skipBlank]
      exact ih second others fuel (by omega)

theorem reads_array
    {items : List Document}
    (each : ∀ d ∈ items, Reads style (level + 1) d) :
    Reads style level (.array items) := by
  cases items with
  | nil =>
      refine ⟨⟨'[', [']'], rfl, by decide, by decide⟩, fun fuel rest enough _ => ?_⟩
      obtain ⟨fuel, rfl⟩ : ∃ n, fuel = n + 1 := ⟨fuel - 1, by omega⟩
      rfl
  | cons d items =>
      obtain ⟨first, others⟩ := List.forall_mem_cons.mp each
      refine ⟨⟨'[', _, rfl, by decide, by decide⟩, fun fuel rest enough _ => ?_⟩
      obtain ⟨fuel, rfl⟩ : ∃ n, fuel = n + 1 := ⟨fuel - 1, by omega⟩
      simp only [renderAt, List.length_cons, List.length_append, List.length_nil] at enough
      have enough : (renderAt style (level + 1) d).length +
          (renderItems style (level + 1) items).length + 1 < fuel := by omega
      have read := parseItems_render first others enough rest
      have text : renderAt style level (.array (d :: items)) ++ rest =
          '[' :: (style.gap (level + 1) ++
            (renderAt style (level + 1) d ++ itemsBehind style level items rest)) := by
        simp [renderAt, itemsBehind]
      rw [text, parseValue, skipBlank_gap, first.opens.skipBlank]
      obtain ⟨c, more, opening, -, noClose⟩ := first.opens
      rw [opening, List.cons_append] at read ⊢
      split
      · next h => exact absurd (List.cons.inj h).1 noClose
      · simp only [read, bind, Except.bind, pure, Except.pure]

/-! ### Objects -/

/-- A member in front of what follows it. -/
def memberText (style : Style) (level : Nat) (m : String × Document) (rest : List Char) :
    List Char :=
  quote m.1 ++ (style.colon ++ (renderAt style level m.2 ++ rest))

theorem memberText_eq
    (style : Style)
    (level : Nat)
    (m : String × Document)
    (rest : List Char) :
    ∃ body,
      memberText style level m rest = '"' :: (m.1.toList.flatMap escape ++ '"' :: ':' :: body) ∧
      skipBlank body = skipBlank (renderAt style level m.2 ++ rest) := by
  obtain ⟨body, colon, skipped⟩ := skipBlank_colon style (renderAt style level m.2 ++ rest)
  exact ⟨body, by simp [memberText, quote, colon], skipped⟩

theorem skipBlank_memberText
    (m : String × Document) :
    skipBlank (memberText style level m rest) = memberText style level m rest := by
  obtain ⟨body, text, -⟩ := memberText_eq style level m rest
  rw [text, skipBlank_cons (by decide)]

section Members

variable {fuel : Nat} {m : String × Document} {members : List (String × Document)}
variable {behind after : List Char}

/-- A member before the brace that closes the object. -/
theorem parseMembers_last
    (content : Reads style level m.2)
    (enough : (renderAt style level m.2).length < fuel)
    (ends : Ends behind)
    (close : skipBlank behind = '}' :: after) :
    parseMembers (fuel + 1) (memberText style level m behind) = .ok ([m], after) := by
  obtain ⟨body, text, skipped⟩ := memberText_eq style level m behind
  rw [text, parseMembers, takeString?_escapes]
  simp only [skipBlank_cons (show isBlank ':' = false by decide), skipped,
    content.opens.skipBlank, content.reads fuel behind enough ends, close, bind, Except.bind, pure,
    Except.pure]

/-- A member before a comma and other members. -/
theorem parseMembers_more
    {next : List Char}
    (content : Reads style level m.2)
    (enough : (renderAt style level m.2).length < fuel)
    (ends : Ends behind)
    (comma : skipBlank behind = ',' :: next)
    (others : parseMembers fuel (skipBlank next) = .ok (members, after)) :
    parseMembers (fuel + 1) (memberText style level m behind) = .ok (m :: members, after) := by
  obtain ⟨body, text, skipped⟩ := memberText_eq style level m behind
  rw [text, parseMembers, takeString?_escapes]
  simp only [skipBlank_cons (show isBlank ':' = false by decide), skipped,
    content.opens.skipBlank, content.reads fuel behind enough ends, comma, others, bind,
    Except.bind, pure, Except.pure]

end Members

/-- What stands behind the first member of an object: the others and what closes the object. -/
def membersBehind (style : Style) (level : Nat) (members : List (String × Document))
    (rest : List Char) : List Char :=
  renderMembers style (level + 1) members ++ (style.gap level ++ '}' :: rest)

theorem ends_membersBehind
    (members : List (String × Document)) :
    Ends (membersBehind style level members rest) := by
  cases members with
  | nil => exact ends_gap (by decide) style level
  | cons m members => exact ends_cons (by decide)

theorem membersBehind_cons
    (m : String × Document)
    (members : List (String × Document)) :
    membersBehind style level (m :: members) rest = ',' :: (style.gap (level + 1) ++
      memberText style (level + 1) m (membersBehind style level members rest)) := by
  simp [membersBehind, renderMembers, memberText]

/-- The members of an object are read one after another. -/
theorem parseMembers_render
    {m : String × Document} {members : List (String × Document)}
    (first : Reads style (level + 1) m.2)
    (others : ∀ m ∈ members, Reads style (level + 1) m.2)
    {fuel : Nat}
    (enough : (renderAt style (level + 1) m.2).length +
      (renderMembers style (level + 1) members).length + 1 < fuel)
    (rest : List Char) :
    parseMembers fuel (memberText style (level + 1) m (membersBehind style level members rest)) =
      .ok (m :: members, rest) := by
  obtain ⟨fuel, rfl⟩ : ∃ n, fuel = n + 1 := ⟨fuel - 1, by omega⟩
  induction members generalizing m fuel with
  | nil =>
      refine parseMembers_last first (by omega) (ends_membersBehind []) ?_
      rw [membersBehind, renderMembers, List.nil_append, skipBlank_gap, skipBlank_cons (by decide)]
  | cons n members ih =>
      obtain ⟨second, others⟩ := List.forall_mem_cons.mp others
      simp only [renderMembers, List.length_cons, List.length_append] at enough
      obtain ⟨fuel, rfl⟩ : ∃ n, fuel = n + 1 := ⟨fuel - 1, by omega⟩
      refine parseMembers_more first (by omega) (ends_membersBehind (n :: members))
        (by rw [membersBehind_cons, skipBlank_cons (by decide)]) ?_
      rw [skipBlank_gap, skipBlank_memberText]
      exact ih second others fuel (by omega)

theorem reads_object
    {members : List (String × Document)}
    (distinct : (members.map Prod.fst).Nodup)
    (each : ∀ m ∈ members, Reads style (level + 1) m.2) :
    Reads style level (.object members) := by
  cases members with
  | nil =>
      refine ⟨⟨'{', ['}'], rfl, by decide, by decide⟩, fun fuel rest enough _ => ?_⟩
      obtain ⟨fuel, rfl⟩ : ∃ n, fuel = n + 1 := ⟨fuel - 1, by omega⟩
      rfl
  | cons m members =>
      obtain ⟨first, others⟩ := List.forall_mem_cons.mp each
      refine ⟨⟨'{', _, rfl, by decide, by decide⟩, fun fuel rest enough _ => ?_⟩
      obtain ⟨fuel, rfl⟩ : ∃ n, fuel = n + 1 := ⟨fuel - 1, by omega⟩
      simp only [renderAt, List.length_cons, List.length_append, List.length_nil] at enough
      have enough : (renderAt style (level + 1) m.2).length +
          (renderMembers style (level + 1) members).length + 1 < fuel := by omega
      have read := parseMembers_render first others enough rest
      have text : renderAt style level (.object (m :: members)) ++ rest =
          '{' :: (style.gap (level + 1) ++
            memberText style (level + 1) m (membersBehind style level members rest)) := by
        simp [renderAt, memberText, membersBehind]
      have kept : Assoc.ofList (· == ·) (m :: members) = m :: members := by
        refine Assoc.ofList_of_distinct ((List.pairwise_map.mp distinct).imp fun differ => ?_)
        exact beq_eq_false_iff_ne.mpr differ
      rw [text, parseValue, skipBlank_gap, skipBlank_memberText]
      split
      · next h =>
          obtain ⟨body, quoted, -⟩ := memberText_eq style (level + 1) m
            (membersBehind style level members rest)
          rw [quoted] at h
          cases (List.cons.inj h).1
      · simp only [read, kept, bind, Except.bind, pure, Except.pure]

/-! ### The whole text -/

/-- The integers of values have at most twenty digits. -/
theorem length_toDigits_of_regular
    {n : Int}
    (regular : minInt ≤ n ∧ n ≤ maxUInt) :
    (Nat.toDigits 10 n.natAbs).length ≤ Number.integerDigitLimit := by
  have small : n.natAbs < 10 ^ 20 := by
    simp only [minInt, maxUInt] at regular
    omega
  exact (Number.length_toDigits_le (by decide) (by decide) small).trans (by decide)

/-- Every document is read from its text. -/
theorem reads_renderAt
    (style : Style)
    {d : Document}
    (regular : d.Everywhere Regular)
    (floats : d.Everywhere ReadsBack)
    (level : Nat) :
    Reads style level d := by
  induction d using Document.induction generalizing level with
  | null =>
      exact reads_scalar rfl ⟨'n', "ull".toList, rfl, by decide⟩
        fun rest _ => (takeScalar_words rest).1
  | bool b =>
      cases b with
      | true =>
          exact reads_scalar rfl ⟨'t', "rue".toList, rfl, by decide⟩
            fun rest _ => (takeScalar_words rest).2.1
      | false =>
          exact reads_scalar rfl ⟨'f', "alse".toList, rfl, by decide⟩
            fun rest _ => (takeScalar_words rest).2.2
  | int n =>
      exact reads_scalar rfl (beginsScalar_number (intText_begins n))
        fun rest ends => takeScalar_intText (length_toDigits_of_regular regular) ends
  | float f =>
      obtain ⟨e, finite⟩ := regular
      exact reads_scalar (floatText_of_finite finite)
        (beginsScalar_number (floatText_begins finite floats))
        fun rest ends => takeScalar_floatText finite floats ends
  | string s => exact reads_string s
  | array items ih =>
      have regular := (Document.everywhere_array_iff.mp regular).2
      have floats := (Document.everywhere_array_iff.mp floats).2
      exact reads_array fun d member =>
        ih d member (regular d member) (floats d member) (level + 1)
  | object members ih =>
      obtain ⟨distinct, regular⟩ := Document.everywhere_object_iff.mp regular
      have floats := (Document.everywhere_object_iff.mp floats).2
      exact reads_object distinct fun m member =>
        ih m member (regular m member) (floats m member) (level + 1)

/-- The text of a document is read as the document with its members in order. -/
theorem parse_render
    (style : Style)
    {d : Document}
    (regular : d.Everywhere Regular)
    (floats : d.Everywhere ReadsBack) :
    parse (render style d) = .ok d.sorted := by
  have whole := reads_renderAt style (Document.everywhere_sorted Regular.sorted regular)
    (Document.everywhere_sorted ReadsBack.sorted floats) 0
  have read := whole.reads _ [] (Nat.lt_succ_self _) ends_nil
  have opens := whole.opens.skipBlank []
  rw [List.append_nil] at read opens
  rw [parse, render, String.toList_ofList, opens]
  simp only [read]
  rfl

end Json
end ExprLang
