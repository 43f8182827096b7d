import Mathlib.Data.List.Forall2
import ExprLang.Context
import ExprLang.Proofs.Composition
import ExprLang.Proofs.FloatNotation
import ExprLang.Proofs.Quotation

/-!
# Printed text as phrases

A text reads as a phrase if scanning it, in front of whatever follows, adds no mistake and yields
the tokens of the phrase.  Literals read as literals, and parts between brackets as a sequence,
whether they are laid out on one line or on several.

* `ReadsAs`: a text, what follows it, and the phrase.
* `readsAs_literal`, `readsAs_name`: the leaves.
* `readsAs_block`: lists and maps in either layout.
* `readsAs_call`: a call of a named function.
-/

namespace ExprLang
namespace Grammar

open ExprLang.Expr (blank)
open Lexer (scanFrom Ends Delimited delimited_cons)
open ExprLang.Parser (prefixOf?)

/-- The text `cs` in front of `rest` reads as a phrase, which is given by the tokens with which it
begins and those that are left. -/
def ReadsAs (phrase : List Token → List Token → Prop) (cs rest : List Char) : Prop :=
  ∀ pos,
    phrase (scanFrom pos 0 (cs ++ rest)).tokens (scanFrom (pos + cs.length) 0 rest).tokens ∧
      (scanFrom pos 0 (cs ++ rest)).errors = (scanFrom (pos + cs.length) 0 rest).errors

section Composition

variable {p q s : List Token → List Token → Prop} {cs more rest : List Char}

theorem ReadsAs.mono
    (reads : ReadsAs p cs rest)
    (weaker : ∀ i r, p i r → q i r) :
    ReadsAs q cs rest :=
  fun pos => ⟨weaker _ _ (reads pos).1, (reads pos).2⟩

/-- Two texts one after the other. -/
theorem ReadsAs.append
    (first : ReadsAs p cs (more ++ rest))
    (second : ReadsAs q more rest)
    (both : ∀ i j r, p i j → q j r → s i r) :
    ReadsAs s (cs ++ more) rest := by
  intro pos
  obtain ⟨hp, errors⟩ := first pos
  obtain ⟨hq, moreErrors⟩ := second (pos + cs.length)
  rw [List.append_assoc, List.length_append, ← Nat.add_assoc]
  exact ⟨both _ _ _ hp hq, errors.trans moreErrors⟩

/-- A blank in front of a text. -/
theorem ReadsAs.space
    {c : Char}
    (isSpace : Lexer.isSpace c = true)
    (reads : ReadsAs p cs rest) :
    ReadsAs p (c :: cs) rest := by
  intro pos
  rw [List.cons_append, Lexer.scanFrom_space isSpace, List.length_cons, Nat.add_comm cs.length,
    ← Nat.add_assoc]
  exact reads (pos + 1)

theorem ReadsAs.spaces
    {blanks : List Char}
    (spaces : ∀ c ∈ blanks, Lexer.isSpace c = true)
    (reads : ReadsAs p cs rest) :
    ReadsAs p (blanks ++ cs) rest := by
  induction blanks with
  | nil => exact reads
  | cons c blanks ih =>
      exact .space (spaces c (by simp)) (ih fun d member => spaces d (by simp [member]))

/-- A text that is one token. -/
theorem readsAs_token
    {kind : TokenKind}
    (scanned : ∀ pos, scanFrom pos 0 (cs ++ rest) =
      (scanFrom (pos + cs.length) 0 rest).cons kind cs pos)
    (gives : ∀ span pos, p (⟨kind, String.ofList cs, span⟩ :: (scanFrom pos 0 rest).tokens)
      (scanFrom pos 0 rest).tokens) :
    ReadsAs p cs rest := by
  intro pos
  rw [scanned pos]
  exact ⟨gives _ _, rfl⟩

/-- A mark in front of a text. -/
theorem ReadsAs.symbol
    {c : Char}
    (mark : c ∈ Lexer.punctuation ∨ c = ':' ∨ c = '-')
    (reads : ReadsAs p cs rest)
    (both : ∀ t i r, t.isSymbol (String.ofList [c]) = true → p i r → q (t :: i) r) :
    ReadsAs q (c :: cs) rest := by
  intro pos
  obtain ⟨hp, errors⟩ := reads (pos + 1)
  rw [List.length_cons, Nat.add_comm cs.length, ← Nat.add_assoc, List.cons_append]
  rcases mark with punctuation | operator
  · rw [Lexer.scanFrom_punctuation punctuation]
    exact ⟨both _ _ _ (by simp [Token.isSymbol]) hp, errors⟩
  · rw [Lexer.scanFrom_operator operator]
    exact ⟨both _ _ _ (by simp [Token.isSymbol]) hp, errors⟩

/-- A lone mark. -/
theorem readsAs_symbol
    {c : Char}
    (mark : c ∈ Lexer.punctuation ∨ c = ':' ∨ c = '-')
    (gives : ∀ t r, t.isSymbol (String.ofList [c]) = true → p (t :: r) r) :
    ReadsAs p [c] rest := by
  have nothing : ReadsAs (fun i r => i = r) [] rest := fun pos => ⟨rfl, rfl⟩
  refine nothing.symbol mark fun t i r isMark same => ?_
  rw [same]
  exact gives t r isMark

end Composition

/-! ### Expressions without operators -/

section Leaves

variable {n : Nat} {e : Expr} {cs rest : List Char}

theorem expr_of_unary
    {i r : List Token}
    (h : Derives n (.unary e) i r) :
    Derives (n + 1) (.expr e) i r :=
  .plain (h.chain_of_unary _)

theorem expr_of_primary
    {i r : List Token}
    (h : Derives n (.primary e) i r) :
    Derives (n + 1) (.expr e) i r :=
  expr_of_unary h.member_of_primary.unary_of_member

/-- A token that stands for a value. -/
theorem readsAs_literal
    (kind : TokenKind)
    (v : Value)
    (scanned : ∀ pos, scanFrom pos 0 (cs ++ rest) =
      (scanFrom (pos + cs.length) 0 rest).cons kind cs pos)
    (value : ∀ text span, literalValue? ⟨kind, text, span⟩ = some v) :
    ReadsAs (Derives (n + 1) (.expr (.literal blank v))) cs rest :=
  readsAs_token scanned fun span _ => expr_of_primary (.literal (value _ span))

theorem startsWith_eq_false
    {text : String} {i : List Token}
    (noStart : ∀ t ∈ i.head?, t.isSymbol text = false) :
    startsWith text i = false := by
  cases i with
  | nil => rfl
  | cons t i => exact noStart t rfl

/-- What may come after any operand: it goes on neither with the last token of the operand nor with
a field, an index or a call. -/
structure Loose (rest : List Char) : Prop where
  ends : Ends rest
  noPostfix : ∀ text ∈ postfixOpeners, ∀ pos, startsWith text (scanFrom pos 0 rest).tokens = false

theorem loose_of_delimited
    (delimited : Delimited rest) :
    Loose rest where
  ends := delimited.ends
  noPostfix text member pos := by
    refine startsWith_eq_false (delimited.isSymbol text (fun c mark same => ?_) pos)
    have apart : ∀ c ∈ Lexer.delimiters, String.ofList [c] ∉ postfixOpeners := by decide
    exact apart c mark (same ▸ member)

/-- A negative integer is one literal with its sign. -/
theorem readsAs_negative
    {k : Nat}
    (inRange : InIntRange (-(k : Int)))
    (loose : Loose rest) :
    ReadsAs (Derives n (.unary (.literal blank (.int (-(k : Int))))))
      ('-' :: Nat.toDigits 10 k) rest := by
  have small : k ≤ 18446744073709551615 := by
    have := inRange.1
    simp only [minInt] at this
    omega
  intro pos
  rw [List.cons_append, Lexer.scanFrom_operator (.inr rfl), Lexer.scanFrom_int small loose.ends,
    List.length_cons, Nat.add_comm (Nat.toDigits 10 k).length, ← Nat.add_assoc]
  have noPoint := loose.noPostfix "." (by decide) (pos + 1 + (Nat.toDigits 10 k).length)
  have noBracket := loose.noPostfix "[" (by decide) (pos + 1 + (Nat.toDigits 10 k).length)
  have literal : ∀ {minus digits : Token},
      prefixOf? minus = some .neg → digits.kind = .int k →
      Derives n (.unary (prefixed [] (.literal blank (.int (-(k : Int))))))
        ([] ++ minus :: digits :: (scanFrom (pos + 1 + (Nat.toDigits 10 k).length) 0 rest).tokens)
        (scanFrom (pos + 1 + (Nat.toDigits 10 k).length) 0 rest).tokens := by
    intro minus digits isMinus kind
    refine .negative rfl isMinus ?_ inRange
    simp [negatable?, kind, noPoint, noBracket]
  exact ⟨literal rfl rfl, rfl⟩

/-- A float after a minus sign. -/
theorem readsAs_negated
    {text : List Char}
    (shape : Number.IsNotation text)
    (delimited : Delimited rest) :
    ReadsAs (Derives (n + 1) (.expr (.unary blank .neg
        (.literal blank (.float ((Number.readDecimal? text).getD 0.0)))))) ('-' :: text) rest := by
  intro pos
  rw [List.cons_append, Lexer.scanFrom_operator (.inr rfl),
    Lexer.scanFrom_notation shape delimited.ends, List.length_cons, Nat.add_comm text.length,
    ← Nat.add_assoc]
  have member : ∀ {t : Token} {f : Float} {r : List Token}, t.kind = .float f →
      Derives n (.member (.literal blank (.float f))) (t :: r) r := by
    intro t f r kind
    exact .member (.literal (by simp [literalValue?, kind])) .postfixesEnd
  have unary : ∀ {minus t : Token} {f : Float} {r : List Token},
      prefixOf? minus = some .neg → t.kind = .float f →
      Derives n (.unary (prefixed [.neg] (.literal blank (.float f)))) ([minus] ++ t :: r) r := by
    intro minus t f r isMinus kind
    exact .prefixed (by simp [isMinus]) (fun _ => by simp [negatable?, kind]) (member kind)
  exact ⟨expr_of_unary (unary rfl rfl), rfl⟩

/-- A name that may stand after a point: an identifier that is no keyword. -/
structure IsField (name : String) : Prop where
  identifier : isIdentifier name.toList = true
  kind : Lexer.wordKind name.toList = .ident

/-- A name that an expression may stand for. -/
structure IsName (name : String) : Prop extends IsField name where
  unreserved : name ∉ reservedWords

theorem isName_of_checkName
    {name : String}
    (valid : (checkName name).isOk = true) :
    IsName name := by
  unfold checkName at valid
  split at valid
  · cases valid
  split at valid
  · cases valid
  · next identifier free =>
      simp only [Bool.or_eq_true, List.contains_iff_mem, beq_iff_eq, not_or] at free
      obtain ⟨⟨unreserved, noValue⟩, noIn⟩ := free
      refine ⟨⟨by simpa using identifier, ?_⟩, unreserved⟩
      simp only [valueKeywords, List.mem_cons, List.not_mem_nil, or_false, not_or] at noValue
      unfold Lexer.wordKind
      rw [String.ofList_toList]
      split <;> simp_all

/-- A name is one token, where no quote follows it. -/
theorem IsField.scanFrom
    {name : String}
    (isField : IsField name)
    (ends : Lexer.EndsWord rest)
    (pos : Nat) :
    scanFrom pos 0 (name.toList ++ rest) =
      (scanFrom (pos + name.toList.length) 0 rest).cons .ident name.toList pos := by
  have identifier := isField.identifier
  have kind := isField.kind
  cases text : name.toList with
  | nil => simp [text, isIdentifier] at identifier
  | cons c cs =>
      rw [text, isIdentifier, Bool.and_eq_true] at identifier
      rw [text] at kind
      rw [Lexer.scanFrom_word identifier.1 (List.all_eq_true.mp identifier.2) ends, kind]

theorem readsAs_field
    {name : String}
    (isField : IsField name)
    (ends : Lexer.EndsWord rest) :
    ReadsAs (fun i r => ∃ t, t.isIdent = true ∧ t.text = name ∧ i = t :: r) name.toList rest :=
  readsAs_token (isField.scanFrom ends) fun _ _ => ⟨_, rfl, by simp, rfl⟩

/-- A name that no parenthesis follows. -/
theorem readsAs_name
    {name : String}
    (isName : IsName name)
    (ends : Lexer.EndsWord rest)
    (noCall : ∀ pos, startsWith "(" (scanFrom pos 0 rest).tokens = false) :
    ReadsAs (Derives n (.member (.ident blank name))) name.toList rest := by
  refine readsAs_token (isName.toIsField.scanFrom ends) fun span pos => ?_
  have derived := Derives.name (n := n) (t := ⟨.ident, String.ofList name.toList, span⟩)
    rfl (by simpa using isName.unreserved) (noCall pos)
  simpa using derived.member_of_primary

end Leaves

/-! ### Sequences -/

/-- How sequences are made of parts: they close at a symbol, which may come after a comma. -/
structure IsSequence {α : Type} (part : α → List Token → List Token → Prop)
    (whole : List α → List Token → List Token → Prop) (close : String) : Prop where
  empty : ∀ {t : Token} {r : List Token}, t.isSymbol close = true → whole [] (t :: r) r
  last : ∀ {x : α} {t : Token} {i r : List Token},
    part x i (t :: r) → t.isSymbol close = true → whole [x] i r
  cons : ∀ {x : α} {xs : List α} {comma : Token} {i j r : List Token},
    part x i (comma :: j) → comma.isSymbol "," = true → whole xs j r → whole (x :: xs) i r

/-- A key, a colon and a value. -/
def Entry (n : Nat) (kv : Expr × Expr) (i r : List Token) : Prop :=
  ∃ colon j, Derives n (.expr kv.1) i (colon :: j) ∧ colon.isSymbol ":" = true ∧
    Derives n (.expr kv.2) j r

theorem isSequence_items
    (n : Nat)
    (close : String) :
    IsSequence (fun e => Derives n (.expr e)) (fun es => Derives n (.items close es)) close :=
  ⟨.itemsEnd, .lastItem, .item⟩

theorem isSequence_entries
    (n : Nat) :
    IsSequence (Entry n) (fun kvs => Derives n (.entries kvs)) "\x7d" where
  empty := .entriesEnd
  last := fun ⟨_, _, key, isColon, value⟩ isClose => .lastEntry key isColon value isClose
  cons := fun ⟨_, _, key, isColon, value⟩ isComma others =>
    .entry key isColon value isComma others

/-- A key and a value are an entry with a colon between them. -/
theorem readsAs_entry
    {n : Nat} {k v : Expr} {key value : List Char} {rest : List Char}
    (hkey : ReadsAs (Derives n (.expr k)) key (':' :: ' ' :: value ++ rest))
    (hvalue : ReadsAs (Derives n (.expr v)) value rest) :
    ReadsAs (Entry n (k, v)) (key ++ ':' :: ' ' :: value) rest := by
  have colon : ReadsAs (fun i r => ∃ t j, t.isSymbol ":" = true ∧ i = t :: j ∧
      Derives n (.expr v) j r) (':' :: ' ' :: value) rest :=
    (hvalue.space rfl).symbol (.inr (.inl rfl)) fun t i _ isColon later => ⟨t, i, isColon, rfl, later⟩
  refine hkey.append colon ?_
  rintro i _ r first ⟨t, j, isColon, rfl, later⟩
  exact ⟨t, j, first, isColon, later⟩

section Sequences

variable {α : Type} {part : α → List Token → List Token → Prop}
  {whole : List α → List Token → List Token → Prop} {c : Char}

/-- A text reads as a part wherever an expression may end. -/
def IsPart (part : α → List Token → List Token → Prop) (text : String) (x : α) : Prop :=
  ∀ rest, Delimited rest → ReadsAs (part x) text.toList rest

/-- Parts on one line. -/
theorem readsAs_oneLine
    {texts : List String} {xs : List α}
    (sequence : IsSequence part whole (String.ofList [c]))
    (mark : c ∈ Lexer.punctuation)
    (delimiter : c ∈ Lexer.delimiters)
    (parts : List.Forall₂ (IsPart part) texts xs)
    (rest : List Char) :
    ReadsAs (whole xs) ((", ".intercalate texts).toList ++ [c]) rest := by
  have close : ReadsAs (fun i r => ∃ t, t.isSymbol (String.ofList [c]) = true ∧ i = t :: r) [c]
      rest := readsAs_symbol (.inl mark) fun t r isClose => ⟨t, isClose, rfl⟩
  induction parts with
  | nil =>
      refine close.mono ?_
      rintro _ r ⟨t, isClose, rfl⟩
      exact sequence.empty isClose
  | @cons text x texts xs first others ih =>
      cases others with
      | nil =>
          rw [String.intercalate_singleton]
          refine (first _ (delimited_cons delimiter rest)).append close ?_
          rintro i _ r inside ⟨t, isClose, rfl⟩
          exact sequence.last inside isClose
      | @cons second y texts xs _ _ =>
          rw [String.intercalate_cons_cons, String.toList_append, String.toList_append,
            List.append_assoc, List.append_assoc]
          have comma : ReadsAs (fun i r => ∃ t j, t.isSymbol "," = true ∧ i = t :: j ∧
              whole (y :: xs) j r)
              (',' :: ' ' :: ((", ".intercalate (second :: texts)).toList ++ [c])) rest :=
            (ih.space rfl).symbol (.inl (by decide)) fun t i r isComma later =>
              ⟨t, i, isComma, rfl, later⟩
          refine (first _ (delimited_cons (by decide) _)).append comma ?_
          rintro i _ r inside ⟨t, j, isComma, rfl, later⟩
          exact sequence.cons inside isComma later

/-- Parts between brackets on one line. -/
theorem readsAs_brackets
    {o : Char} {texts : List String} {xs : List α}
    (sequence : IsSequence part whole (String.ofList [c]))
    (openMark : o ∈ Lexer.punctuation)
    (mark : c ∈ Lexer.punctuation)
    (delimiter : c ∈ Lexer.delimiters)
    (parts : List.Forall₂ (IsPart part) texts xs)
    (rest : List Char) :
    ReadsAs (fun i r => ∃ t j, t.isSymbol (String.ofList [o]) = true ∧ i = t :: j ∧ whole xs j r)
      (o :: ((", ".intercalate texts).toList ++ [c])) rest :=
  (readsAs_oneLine sequence mark delimiter parts rest).symbol (.inl openMark)
    fun t i _ isOpen inside => ⟨t, i, isOpen, rfl, inside⟩

/-- Parts on lines of their own, each after blanks and before a comma. -/
theorem readsAs_lines
    {texts : List String} {xs : List α} {margin blanks : List Char}
    (sequence : IsSequence part whole (String.ofList [c]))
    (mark : c ∈ Lexer.punctuation)
    (parts : List.Forall₂ (IsPart part) texts xs)
    (marginBlank : ∀ d ∈ margin, Lexer.isSpace d = true)
    (blank : ∀ d ∈ blanks, Lexer.isSpace d = true)
    (rest : List Char) :
    ReadsAs (whole xs)
      ((texts.map fun text => margin ++ text.toList ++ [',']).flatten ++ (blanks ++ [c])) rest := by
  induction parts with
  | nil =>
      rw [List.map_nil, List.flatten_nil, List.nil_append]
      exact (readsAs_symbol (.inl mark) fun t r isClose => sequence.empty isClose).spaces blank
  | @cons text x texts xs first others ih =>
      rw [List.map_cons, List.flatten_cons, List.append_assoc, List.append_assoc,
        List.append_assoc, List.singleton_append]
      have comma := ih.symbol (c := ',') (q := fun i r => ∃ t j, t.isSymbol "," = true ∧
        i = t :: j ∧ whole xs j r) (.inl (by decide)) fun t i r isComma later =>
          ⟨t, i, isComma, rfl, later⟩
      refine ReadsAs.spaces marginBlank ?_
      refine (first _ (delimited_cons (by decide) _)).append comma ?_
      rintro i _ r inside ⟨t, j, isComma, rfl, later⟩
      exact sequence.cons inside isComma later

/-- What one level of indentation puts in front of a line is blank. -/
theorem isSpace_margin
    (layout : Layout)
    (level : Nat) :
    ∀ d ∈ (Printer.margin layout level).toList, Lexer.isSpace d = true := by
  intro d member
  rw [Printer.margin, String.toList_ofList] at member
  rw [List.eq_of_mem_replicate member]
  rfl

/-- Lines one below the other, as the parts with the blanks in front of them. -/
theorem toList_lines
    (margin : String)
    (texts : List String) :
    ∃ blanks, (∀ d ∈ blanks, Lexer.isSpace d = true) ∧
      '\n' :: ("\n".intercalate (texts.map fun text => margin ++ text ++ ",")).toList =
        (texts.map fun text => ('\n' :: margin.toList) ++ text.toList ++ [',']).flatten ++
          blanks := by
  cases texts with
  | nil => exact ⟨['\n'], by decide, by simp⟩
  | cons text texts =>
      refine ⟨[], by simp, ?_⟩
      induction texts generalizing text with
      | nil => simp
      | cons next texts ih =>
          have others := ih next
          rw [List.append_nil] at others
          have first : ∀ (f : String → List Char), ((text :: next :: texts).map f).flatten =
              f text ++ ((next :: texts).map f).flatten := fun _ => rfl
          rw [List.append_nil, first, ← others]
          simp

/-- Parts between brackets, in either layout. -/
theorem readsAs_block
    {o : Char} {texts : List String} {xs : List α}
    (sequence : IsSequence part whole (String.ofList [c]))
    (openMark : o ∈ Lexer.punctuation)
    (mark : c ∈ Lexer.punctuation)
    (delimiter : c ∈ Lexer.delimiters)
    (parts : List.Forall₂ (IsPart part) texts xs)
    (layout : Layout)
    (level : Nat)
    (rest : List Char) :
    ReadsAs (fun i r => ∃ t j, t.isSymbol (String.ofList [o]) = true ∧ i = t :: j ∧ whole xs j r)
      (Printer.block layout level (String.ofList [o]) (String.ofList [c]) texts).toList rest := by
  unfold Printer.block
  dsimp only
  split
  · have text : (String.ofList [o] ++ ", ".intercalate texts ++ String.ofList [c]).toList =
        o :: ((", ".intercalate texts).toList ++ [c]) := by
      simp
    rw [text]
    exact readsAs_brackets sequence openMark mark delimiter parts rest
  · obtain ⟨blanks, isBlank, lines⟩ := toList_lines (Printer.margin layout (level + 1)) texts
    have text : (String.ofList [o] ++ "\n" ++ "\n".intercalate (texts.map fun text =>
          Printer.margin layout (level + 1) ++ text ++ ",") ++ "\n" ++
          Printer.margin layout level ++ String.ofList [c]).toList =
        o :: ((texts.map fun text => ('\n' :: (Printer.margin layout (level + 1)).toList) ++
          text.toList ++ [',']).flatten ++
            ((blanks ++ '\n' :: (Printer.margin layout level).toList) ++ [c])) := by
      have joined := congrArg (· ++ '\n' :: ((Printer.margin layout level).toList ++ [c])) lines
      simpa using joined
    rw [text]
    refine (readsAs_lines sequence mark parts ?_ ?_ rest).symbol (.inl openMark)
      fun t i r isOpen inside => ⟨t, i, isOpen, rfl, inside⟩
    · intro d member
      rcases List.mem_cons.mp member with rfl | member
      · rfl
      · exact isSpace_margin layout (level + 1) d member
    · intro d member
      rcases List.mem_append.mp member with member | member
      · exact isBlank d member
      rcases List.mem_cons.mp member with rfl | member
      · rfl
      · exact isSpace_margin layout level d member

end Sequences

/-! ### Calls -/

section Calls

variable {n : Nat} {name : String} {texts : List String} {args : List Expr}

/-- Arguments in parentheses. -/
theorem readsAs_arguments
    (parts : List.Forall₂ (IsPart fun e => Derives n (.expr e)) texts args)
    (rest : List Char) :
    ReadsAs (fun i r => ∃ t j, t.isSymbol "(" = true ∧ i = t :: j ∧ Derives n (.items ")" args) j r)
      ('(' :: ((", ".intercalate texts).toList ++ [')'])) rest :=
  readsAs_brackets (c := ')') (isSequence_items n ")") (by decide) (by decide) (by decide) parts rest

/-- A call of a named function. -/
theorem readsAs_call
    {e : Expr}
    (isName : IsName name)
    (meaning : FunctionCall name args e)
    (parts : List.Forall₂ (IsPart fun e => Derives n (.expr e)) texts args)
    (rest : List Char) :
    ReadsAs (Derives n (.member e))
      (name.toList ++ '(' :: ((", ".intercalate texts).toList ++ [')'])) rest := by
  have ends : Lexer.EndsWord ('(' :: ((", ".intercalate texts).toList ++ [')']) ++ rest) := by
    simp [Lexer.EndsWord]
    decide
  refine (readsAs_field isName.toIsField ends).append (readsAs_arguments parts rest) ?_
  rintro i _ r ⟨t, isIdent, rfl, rfl⟩ ⟨paren, j, isOpen, rfl, inside⟩
  exact (Derives.call isIdent isName.unreserved isOpen inside meaning).member_of_primary

end Calls

end Grammar
end ExprLang
