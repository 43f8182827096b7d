import ExprLang.Proofs.Composition
import ExprLang.Proofs.PrintedValues
import ExprLang.Proofs.TextNesting

/-!
# The texts of operands

What the printer puts around an operand, seen by the scanner: operators between blanks are one token
each, what comes after an operand neither goes on with its last token nor makes a call of it, and
the first character of an operand does not make one operator out of two.

* `readsAs_operator`, `readsAs_sign`: operators.
* `Loose`, `MayFollow`: what may come after a text.
* `isLiteralToken_print`: literals without a sign.
* `beginsPrimary_print`, `begins_operand`: what a text begins with.
-/

namespace ExprLang

/-! ### Operators -/

namespace Lexer

open Literal (Item)

/-- The first operator that begins a text is the one that stands in front of a blank. -/
theorem find?_operators_space :
    ∀ op ∈ operators, ∀ rest : List Char,
      operators.find? (·.isPrefixOf (op ++ ' ' :: rest)) = some op := by
  intro op member rest
  simp only [operators, List.mem_cons, List.not_mem_nil, or_false] at member
  rcases member with rfl | rfl | rfl | rfl | rfl | rfl | rfl | rfl | rfl | rfl | rfl | rfl | rfl |
    rfl | rfl | rfl <;> rfl

/-- An operator begins with neither a blank, a digit, a quote nor a letter. -/
theorem head_operators :
    ∀ op ∈ operators, ∀ c ∈ op.head?, isSpace c = false ∧ c.isDigit = false ∧
      Literal.isQuote c = false ∧ isIdentStart c = false := by
  intro op member c isHead
  simp only [operators, List.mem_cons, List.not_mem_nil, or_false] at member
  rcases member with rfl | rfl | rfl | rfl | rfl | rfl | rfl | rfl | rfl | rfl | rfl | rfl | rfl |
    rfl | rfl | rfl <;> cases isHead <;> decide

theorem scanItem_symbol
    {c : Char} {rest op : List Char}
    (noSpace : isSpace c = false)
    (noDigit : c.isDigit = false)
    (noQuote : Literal.isQuote c = false)
    (noWord : isIdentStart c = false)
    (noComment : ¬ (c = '/' ∧ rest.head? = some '/'))
    (first : operators.find? (·.isPrefixOf (c :: rest)) = some op)
    (pos : Nat) :
    scanItem pos c rest = .good op.length .operator := by
  have noLiteral : Literal.opening? (c :: rest) = none := by
    refine opening?_eq_none noQuote ?_ ?_ rest <;> rw [← Bool.not_eq_true] <;> intro letter
    · simp only [Literal.isRawLetter, Bool.or_eq_true, beq_iff_eq] at letter
      rcases letter with rfl | rfl <;> cases noWord
    · simp only [Literal.isBytesLetter, Bool.or_eq_true, beq_iff_eq] at letter
      rcases letter with rfl | rfl <;> cases noWord
  simp [scanItem, noSpace, noComment, noDigit, noLiteral, noWord, scanSymbol, first]

/-- An operator in front of a blank is one token. -/
theorem scanFrom_operator_space
    {op : List Char}
    (member : op ∈ operators)
    (rest : List Char)
    (pos : Nat) :
    scanFrom pos 0 (op ++ ' ' :: rest) =
      (scanFrom (pos + op.length) 0 (' ' :: rest)).cons .operator op pos := by
  have first := find?_operators_space op member rest
  have nonempty : ∀ op ∈ operators, op ≠ [] := by decide
  obtain ⟨c, cs, rfl⟩ := List.exists_cons_of_ne_nil (nonempty op member)
  obtain ⟨noSpace, noDigit, noQuote, noWord⟩ := head_operators _ member c rfl
  have noComment : ¬ (c = '/' ∧ (cs ++ ' ' :: rest).head? = some '/') := by
    have apart : ∀ op ∈ operators, '/' ∉ op.tail := by decide
    rintro ⟨-, slash⟩
    cases cs with
    | nil => simp at slash
    | cons d cs =>
        obtain rfl : d = '/' := by simpa using slash
        exact apart _ member (by simp)
  exact scanFrom_good cs (scanItem_symbol noSpace noDigit noQuote noWord noComment first pos)

/-- An exclamation mark is a token of its own, unless an equals sign comes next. -/
theorem scanFrom_not
    {rest : List Char}
    (apart : ∀ c ∈ rest.head?, c ≠ '=')
    (pos : Nat) :
    scanFrom pos 0 ('!' :: rest) = (scanFrom (pos + 1) 0 rest).cons .operator ['!'] pos := by
  have first : operators.find? (·.isPrefixOf ('!' :: rest)) = some ['!'] := by
    cases rest with
    | nil => rfl
    | cons c rest =>
        have differs : ('=' == c) = false := by
          rw [beq_eq_false_iff_ne]
          exact (apart c rfl).symm
        simp [operators, List.find?, List.isPrefixOf, differs]
  exact scanFrom_good [] (scanItem_symbol rfl rfl rfl rfl (by simp) first pos)

end Lexer
theorem BinaryOp.precedence_mem
    (op : BinaryOp) :
    1 ≤ op.precedence ∧ op.precedence ≤ 5 := by
  cases op <;> decide

/-! ### Reading operators -/

namespace Grammar

open Lexer (scanFrom Ends EndsWord Delimited)

/-- The tokens go on with one token of the given text. -/
def OneSymbol (text : String) (i r : List Token) : Prop :=
  ∃ t, t.isSymbol text = true ∧ i = t :: r

section Operators

variable {rest : List Char}

theorem endsWord_space : EndsWord (' ' :: rest) := by
  simp [EndsWord]
  decide

theorem readsAs_operatorText
    {op : List Char}
    (member : op ∈ Lexer.operators) :
    ReadsAs (OneSymbol (String.ofList op)) op (' ' :: rest) :=
  readsAs_token (Lexer.scanFrom_operator_space member rest) fun _ _ =>
    ⟨_, by simp [Token.isSymbol], rfl⟩

/-- An operator between blanks. -/
theorem readsAs_operator
    (op : BinaryOp) :
    ReadsAs (OneSymbol op.symbol) op.symbol.toList (' ' :: rest) := by
  by_cases isWord : op = .isIn
  · subst isWord
    have word : ∀ pos, Lexer.scanFrom pos 0 ('i' :: ['n'] ++ ' ' :: rest) = _ :=
      Lexer.scanFrom_word (by decide) (by decide) endsWord_space
    have kind : Lexer.wordKind ['i', 'n'] = .operator := rfl
    exact readsAs_token word fun _ _ => ⟨_, by simp [Token.isSymbol, kind], rfl⟩
  · have member : op.symbol.toList ∈ Lexer.operators := by
      cases op <;> first | decide | exact absurd rfl isWord
    have reads : ReadsAs _ _ (' ' :: rest) := readsAs_operatorText member
    simpa using reads

/-- An operator in front of an operand; no equals sign may follow an exclamation mark. -/
theorem readsAs_sign
    (op : UnaryOp)
    (apart : op = .not → ∀ c ∈ rest.head?, c ≠ '=') :
    ReadsAs (fun i r => ∃ t, Parser.prefixOf? t = some op ∧ i = t :: r) op.symbol.toList rest := by
  cases op with
  | not => exact readsAs_token (Lexer.scanFrom_not (apart rfl)) fun _ _ => ⟨_, rfl, rfl⟩
  | neg => exact readsAs_token (Lexer.scanFrom_operator (.inr rfl) · rest) fun _ _ => ⟨_, rfl, rfl⟩

end Operators

end Grammar

/-! ### What the text of a tree asks for -/

namespace Expr

/-- Whether a node is a name or a field, of which arguments make a call. -/
def isCallable : Expr → Bool
  | ident .. | localRef .. | select .. => true
  | _ => false

/-- Whether a node invokes what its text makes a call of. -/
def invokesCallable : Expr → Bool
  | invoke _ callee _ => callee.isCallable
  | _ => false

/-- Whether a node negates an integer that its text makes a negative literal of. -/
def negatesNatural : Expr → Bool
  | unary _ .neg operand => operand.isNatural || operand.invokesNatural
  | _ => false

/-- Whether a node is an infinite float, which has no literal. -/
def isInfiniteLiteral : Expr → Bool
  | literal _ (.float f) => Number.isInfinite f
  | _ => false

/-- Whether a node, if it is a float, is what is read from its text. -/
def LiteralReadsBack : Expr → Prop
  | literal _ v => v.ReadsBack
  | _ => True

/-- What a node has to be for the text of its tree to be read as the tree. -/
structure Readable (e : Expr) : Prop where
  fromSource : FromSource e
  noCall : e.invokesCallable = false
  noLiteral : e.negatesNatural = false
  finite : e.isInfiniteLiteral = false
  readsBack : e.LiteralReadsBack

end Expr

namespace Grammar

open Lexer (scanFrom Ends EndsWord Delimited)
open ExprLang.Expr (Readable FromSource Everywhere)

/-! ### What comes after an operand -/

/-- What may come after a given operand: what makes a call of it or goes on with it only if that
leaves it as it is. -/
structure MayFollow (e : Expr) (rest : List Char) : Prop where
  ends : Ends rest
  noCall : e.isCallable = true → ∀ pos, startsWith "(" (scanFrom pos 0 rest).tokens = false
  noPostfix : e.precedence < Expr.primaryPrecedence → ∀ text ∈ postfixOpeners, ∀ pos,
    startsWith text (scanFrom pos 0 rest).tokens = false

section After

variable {e : Expr} {rest : List Char}

theorem Loose.mayFollow
    (h : Loose rest)
    (e : Expr) :
    MayFollow e rest :=
  ⟨h.ends, fun _ => h.noPostfix "(" (by decide), fun _ => h.noPostfix⟩

theorem MayFollow.loose
    (h : MayFollow e rest)
    (low : e.precedence < Expr.primaryPrecedence) :
    Loose rest :=
  ⟨h.ends, h.noPostfix low⟩

/-- A blank and an operator may come after any operand. -/
theorem loose_of_symbol
    {text : String} {cs : List Char}
    (symbol : ReadsAs (OneSymbol text) cs rest)
    (other : text ∉ postfixOpeners) :
    Loose (' ' :: (cs ++ rest)) where
  ends := ⟨endsWord_space, rfl⟩
  noPostfix opener member pos := by
    obtain ⟨⟨t, isText, tokens⟩, -⟩ := symbol (pos + 1)
    rw [Lexer.scanFrom_space rfl, tokens]
    exact isSymbol_eq_false isText fun same => other (same ▸ member)

/-- What binds tightly may go on with a mark that makes no call of it. -/
theorem mayFollow_mark
    {c : Char}
    (mark : c ∈ Lexer.punctuation)
    (ends : Ends (c :: rest))
    (tight : Expr.primaryPrecedence ≤ e.precedence)
    (noCall : e.isCallable = true → c ≠ '(') :
    MayFollow e (c :: rest) where
  ends := ends
  noCall callable pos := by
    rw [Lexer.scanFrom_punctuation mark]
    have differs := noCall callable
    simpa [startsWith, Token.isSymbol, ← String.toList_inj] using differs
  noPostfix low := absurd tight (Nat.not_le.mpr low)

end After

/-! ### How texts begin -/

/-- Whether a character may begin the text of what needs no parentheses. -/
def opensPrimary (c : Char) : Bool :=
  isIdentStart c || c.isDigit || ['"', '(', '[', '\x7b'].contains c

/-- A text begins with such a character. -/
def BeginsPrimary (cs : List Char) : Prop :=
  ∃ c rest, cs = c :: rest ∧ opensPrimary c = true

theorem BeginsPrimary.append
    {cs : List Char}
    (h : BeginsPrimary cs)
    (more : List Char) :
    BeginsPrimary (cs ++ more) := by
  obtain ⟨c, rest, rfl, opens⟩ := h
  exact ⟨c, rest ++ more, rfl, opens⟩

theorem opensPrimary_apart
    {c : Char}
    (opens : opensPrimary c = true) :
    c ≠ '=' ∧ c ≠ '-' := by
  constructor <;> rintro rfl <;> cases opens

/-- A float without a sign is written as a number from which it is read. -/
theorem printFloat_of_isUnsigned
    {f : Float}
    (unsigned : Number.IsUnsigned f)
    (finite : Number.isInfinite f = false)
    (reads : Number.readFloat? (Number.floatText f).toList = some f) :
    ∃ cs, Number.IsNotation cs ∧ Printer.printFloat f = String.ofList cs ∧
      (Number.readDecimal? cs).getD 0.0 = f := by
  obtain ⟨d, bits, positive⟩ := unsigned.dyadic? finite
  obtain ⟨cs, shape, -, text⟩ := Number.floatText_of_dyadic bits reads
  rw [positive] at text
  rw [text, Number.readFloat?_notation shape false, Option.some_inj] at reads
  refine ⟨cs, shape, ?_, reads⟩
  simp only [Printer.printFloat, Number.extended, bits]
  rw [← String.toList_inj, text]
  simp

/-! ### Literals -/

/-- A text is one token, and what may come after it leaves it so. -/
def IsToken (kind : TokenKind) (text : String) : Prop :=
  ∀ rest, Ends rest → ∀ pos, scanFrom pos 0 (text.toList ++ rest) =
    (scanFrom (pos + text.toList.length) 0 rest).cons kind text.toList pos

theorem isToken_word
    (c : Char)
    (cs : List Char)
    (start : isIdentStart c = true)
    (parts : ∀ d ∈ cs, isIdentPart d = true) :
    IsToken (Lexer.wordKind (c :: cs)) (String.ofList (c :: cs)) := by
  intro rest ends pos
  rw [String.toList_ofList]
  exact Lexer.scanFrom_word start parts ends.word pos

theorem beginsPrimary_digits
    {cs : List Char}
    (nonempty : cs ≠ [])
    (digits : ∀ c ∈ cs, c.isDigit = true) :
    BeginsPrimary cs := by
  obtain ⟨c, rest, rfl⟩ := List.exists_cons_of_ne_nil nonempty
  exact ⟨c, rest, rfl, by simp [opensPrimary, digits c (by simp)]⟩

/-- Of the literals that were read, the negative integers alone bind less tightly than a name. -/
theorem exists_negSucc_of_precedence
    {m : Mark} {v : Value}
    (fromSource : FromSource (.literal m v))
    (low : (Expr.literal m v).precedence < Expr.primaryPrecedence) :
    ∃ k, v = .int (.negSucc k) := by
  have negative : Expr.isNegativeLiteral v = true := by
    by_contra positive
    simp [Expr.precedence, positive] at low
  cases v with
  | int n =>
      cases n with
      | ofNat n =>
          have below : Int.ofNat n < 0 := of_decide_eq_true (p := Int.ofNat n < 0) negative
          exact absurd below (Int.not_lt.mpr (Int.natCast_nonneg n))
      | negSucc k => exact ⟨k, rfl⟩
  | float f =>
      have unsigned : Number.IsUnsigned f := fromSource
      simp [Expr.isNegativeLiteral, unsigned.isBelowZero] at negative
  | _ => cases negative

theorem toList_print_negSucc
    (k : Nat) :
    ((Value.int (.negSucc k)).print .standard 0).toList = '-' :: Nat.toDigits 10 (k + 1) := by
  simp [Value.print, Printer.printKey, Number.intText, Number.natText]

theorem isNegativeLiteral_negSucc
    (k : Nat) :
    Expr.isNegativeLiteral (.int (.negSucc k)) = true := by
  simp [Expr.isNegativeLiteral, Int.negSucc_lt_zero]

/-- Whether the text of a value is one token that stands for it. -/
def IsLiteralToken (v : Value) : Prop :=
  BeginsPrimary (v.print .standard 0).toList ∧
    ∃ kind, IsToken kind (v.print .standard 0) ∧
      ∀ text span, literalValue? ⟨kind, text, span⟩ = some v

theorem isLiteralToken_word
    {v : Value} {c : Char} {cs : List Char}
    (text : v.print .standard 0 = String.ofList (c :: cs))
    (start : isIdentStart c = true)
    (parts : ∀ d ∈ cs, isIdentPart d = true)
    (reads : ∀ text span, literalValue? ⟨Lexer.wordKind (c :: cs), text, span⟩ = some v) :
    IsLiteralToken v := by
  have opens : opensPrimary c = true := by
    simp only [opensPrimary, start, Bool.true_or]
  rw [IsLiteralToken, text]
  exact ⟨⟨c, cs, String.toList_ofList, opens⟩, _, isToken_word c cs start parts, reads⟩

theorem isLiteralToken_int
    {n : Nat}
    (inRange : InIntRange n) :
    IsLiteralToken (.int n) := by
  have small : n ≤ 18446744073709551615 := by
    have := inRange.2
    simp only [maxInt] at this
    omega
  have text : ((Value.int n).print .standard 0).toList = Nat.toDigits 10 n := by
    simp [Value.print, Printer.printKey, Number.intText, Number.natText]
  refine ⟨?_, .int n, fun rest ends pos => ?_, fun _ _ => if_pos inRange⟩
  · exact text ▸ beginsPrimary_digits Nat.toDigits_ne_nil fun _ => Number.isDigit_of_mem_toDigits
  · exact text ▸ Lexer.scanFrom_int small ends pos

theorem isLiteralToken_uint
    {n : Nat}
    (inRange : n ≤ maxUInt) :
    IsLiteralToken (.uint n) := by
  have text : ((Value.uint n).print .standard 0).toList = Nat.toDigits 10 n ++ ['u'] := by
    simp [Value.print, Printer.printKey, Number.natText]
  refine ⟨?_, .uint n, fun rest _ pos => ?_, fun _ _ => if_pos inRange⟩
  · exact text ▸ (beginsPrimary_digits Nat.toDigits_ne_nil
      fun _ => Number.isDigit_of_mem_toDigits).append ['u']
  · exact text ▸ Lexer.scanFrom_uint inRange rest pos

theorem isLiteralToken_float
    {m : Mark} {f : Float}
    (readable : Readable (.literal m (.float f))) :
    IsLiteralToken (.float f) := by
  obtain ⟨cs, shape, text, same⟩ :=
    printFloat_of_isUnsigned readable.fromSource readable.finite readable.readsBack
  rw [IsLiteralToken, Value.print, text]
  refine ⟨?_, .float f, fun rest ends pos => ?_, fun _ _ => rfl⟩
  · obtain ⟨whole, fraction, exponent, rfl, run, -⟩ := shape
    exact String.toList_ofList ▸ (beginsPrimary_digits run.1 run.2).append _
  · have scanned := Lexer.scanFrom_notation shape ends pos
    rw [String.toList_ofList, ← same]
    exact scanned

/-- A literal without a sign is one token that stands for it. -/
theorem isLiteralToken_print
    {m : Mark} {v : Value}
    (readable : Readable (.literal m v))
    (unsigned : Expr.primaryPrecedence ≤ (Expr.literal m v).precedence) :
    IsLiteralToken v := by
  have fromSource := readable.fromSource
  cases v with
  | null => exact isLiteralToken_word rfl (by decide) (by decide) fun _ _ => rfl
  | bool b =>
      cases b with
      | true => exact isLiteralToken_word rfl (by decide) (by decide) fun _ _ => rfl
      | false => exact isLiteralToken_word rfl (by decide) (by decide) fun _ _ => rfl
  | int n =>
      cases n with
      | negSucc n =>
          simp [Expr.precedence, isNegativeLiteral_negSucc, Expr.unaryPrecedence,
            Expr.primaryPrecedence] at unsigned
      | ofNat n => exact isLiteralToken_int fromSource
  | uint n => exact isLiteralToken_uint fromSource
  | float f => exact isLiteralToken_float readable
  | string s =>
      rw [IsLiteralToken, Value.print]
      refine ⟨⟨'"', _, Lexer.toList_quote s, by decide⟩, .string s, ?_, fun _ _ => rfl⟩
      exact fun rest ends pos => Lexer.scanFrom_quote s ends.word pos
  | bytes octets =>
      rw [IsLiteralToken, Value.print]
      refine ⟨⟨'b', _, Lexer.toList_quoteOctets octets, by decide⟩, .bytes octets, ?_,
        fun _ _ => rfl⟩
      exact fun rest ends pos => Lexer.scanFrom_quoteOctets octets ends.word pos
  | _ => exact fromSource.elim

/-! ### How operands begin -/

theorem beginsPrimary_name
    {name : String}
    (identifier : isIdentifier name.toList = true) :
    BeginsPrimary name.toList := by
  cases text : name.toList with
  | nil => simp [text, isIdentifier] at identifier
  | cons c cs =>
      rw [text, isIdentifier, Bool.and_eq_true] at identifier
      exact ⟨c, cs, rfl, by simp [opensPrimary, identifier.1]⟩

theorem beginsPrimary_wrap
    {e : Expr} {text : String}
    (begins : Expr.primaryPrecedence ≤ e.precedence → BeginsPrimary text.toList) :
    BeginsPrimary (e.wrap Expr.primaryPrecedence text).toList := by
  unfold Expr.wrap
  split
  · simp [BeginsPrimary, opensPrimary]
  · next tight => exact begins (Nat.not_lt.mp tight)

/-- What needs no parentheses begins with neither an operator nor an equals sign. -/
theorem beginsPrimary_print
    {e : Expr}
    (readable : Everywhere Readable e)
    (tight : Expr.primaryPrecedence ≤ e.precedence) :
    BeginsPrimary e.print.toList := by
  induction e using Expr.induction_nodes with
  | literal => exact (isLiteralToken_print readable.root tight).1
  | ident _ name | localRef _ name => exact beginsPrimary_name readable.root.fromSource.identifier
  | unary | ternary => simp [Expr.precedence, Expr.unaryPrecedence, Expr.primaryPrecedence] at tight
  | binary _ op =>
      have low : op.precedence < Expr.primaryPrecedence :=
        Nat.lt_of_le_of_lt op.precedence_mem.2 (by decide)
      exact absurd tight (Nat.not_le.mpr low)
  | list | map | has => simp [BeginsPrimary, opensPrimary, Expr.print, isIdentStart]
  | select _ operand _ ih | index _ operand _ ih _ =>
      have begins := beginsPrimary_wrap (ih (readable.child (by simp [Expr.children])))
      simpa [Expr.print] using begins.append _
  | call _ _ target _ ihTarget _ =>
      have named := readable.root.fromSource
      cases target with
      | none =>
          have begins := beginsPrimary_name named.1.identifier
          simpa [Expr.print, Expr.printTarget] using begins.append _
      | some t =>
          have begins := beginsPrimary_wrap (ihTarget t rfl (readable.child (by simp [Expr.children])))
          simpa [Expr.print, Expr.printTarget] using begins.append _
  | invoke _ callee _ ih _ =>
      have begins := beginsPrimary_wrap (ih (readable.child (by simp [Expr.children])))
      simpa [Expr.print] using begins.append _
  | comprehension _ _ target _ _ _ ih _ _ =>
      have begins := beginsPrimary_wrap (ih (readable.child (by simp [Expr.children])))
      simpa [Expr.print] using begins.append _

/-- The operator and the operand after it, which stands in parentheses if both are minus signs. -/
theorem toList_unaryText
    (op : UnaryOp)
    (operand : String) :
    (Expr.unaryText op operand).toList = op.symbol.toList ++
      if op = .neg ∧ operand.toList.head? = some '-' then '(' :: (operand.toList ++ [')'])
      else operand.toList := by
  cases op with
  | not => simp [Expr.unaryText]
  | neg =>
      unfold Expr.unaryText
      split
      · next begins => simp [begins]
      · next other =>
          have apart : operand.toList.head? ≠ some '-' := by
            intro head
            obtain ⟨rest, begins⟩ := List.head?_eq_some_iff.mp head
            exact other rest rfl begins
          simp [apart]

/-- An operand behind an operator begins with no equals sign, and with a minus sign only if it is
one. -/
theorem begins_operand
    {e : Expr}
    (readable : Everywhere Readable e) :
    ∃ c rest, (e.wrap Expr.unaryPrecedence e.print).toList = c :: rest ∧ c ≠ '=' ∧
      (c = '-' → e.beginsWithMinus = true) := by
  have primary : ∀ {text : String}, BeginsPrimary text.toList → ∃ c rest, text.toList = c :: rest ∧
      c ≠ '=' ∧ (c = '-' → e.beginsWithMinus = true) := by
    rintro text ⟨c, rest, begins, opens⟩
    obtain ⟨noEquals, noMinus⟩ := opensPrimary_apart opens
    exact ⟨c, rest, begins, noEquals, fun minus => absurd minus noMinus⟩
  unfold Expr.wrap
  split
  · exact primary (by simp [BeginsPrimary, opensPrimary])
  next notLow =>
  by_cases tight : Expr.primaryPrecedence ≤ e.precedence
  · exact primary (beginsPrimary_print readable tight)
  cases e with
  | unary _ op _ =>
      cases op with
      | not => exact ⟨'!', _, toList_unaryText .not _, by decide, fun h => absurd h (by decide)⟩
      | neg => exact ⟨'-', _, toList_unaryText .neg _, by decide, fun _ => rfl⟩
  | binary _ op =>
      have low : op.precedence < Expr.unaryPrecedence :=
        Nat.lt_of_le_of_lt op.precedence_mem.2 (by decide)
      exact absurd low notLow
  | ternary =>
      have low : 0 < Expr.unaryPrecedence := by decide
      exact absurd low notLow
  | literal =>
      obtain ⟨k, rfl⟩ :=
        exists_negSucc_of_precedence readable.root.fromSource (Nat.not_le.mp tight)
      exact ⟨'-', _, toList_print_negSucc k, by decide, fun _ => isNegativeLiteral_negSucc k⟩
  | _ => exact absurd (Nat.le_refl _) tight

end Grammar
end ExprLang
