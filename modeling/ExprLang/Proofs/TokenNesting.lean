import ExprLang.Proofs.Lookahead

/-!
# How deeply tokens nest

How deeply a token nests is read off the tokens before it: which brackets are open, and in which
branches of conditionals the token stands.  The grammar takes no part in it.

* `Frame`: a bracket that is open, or a branch of a conditional.
* `framesBehind`: the frames that are open behind a token.
* `nestingOf`: how deeply a token nests.
* `firstBeyond?`: the first token that nests more deeply than a limit allows.
* `firstBeyond?_signs`, `framesBehind_of_operator`: operators do not count.
* `behindSymbol_closer`: what closes a bracket behind an expression.
* `Derives.beginsInside`: no expression begins with a symbol that ends or parts what is before it.
-/

namespace ExprLang
namespace Grammar

open ExprLang.Parser (Level)

/-! ### Frames -/

/-- What tokens stand in: a bracket that is open, or a branch of a conditional. -/
inductive Frame where
  | bracket
  | ifTrue
  | ifFalse
deriving DecidableEq, Repr

/-- The second branches of conditionals end with what they stand in. -/
def endBranches (around : List Frame) : List Frame :=
  around.dropWhile (· = .ifFalse)

/-- The frames from the innermost bracket on: its parts are apart from one another. -/
def fromBracket (around : List Frame) : List Frame :=
  around.dropWhile (· ≠ .bracket)

/-- The second branch in place of the first, or the value of an entry after its key. -/
def otherBranch : List Frame → List Frame
  | .ifTrue :: around => .ifFalse :: around
  | around => around

/-- The frames that are open behind a symbol. -/
def behindSymbol (around : List Frame) : String → List Frame
  | "(" | "[" | "\x7b" => .bracket :: around
  | ")" | "]" | "\x7d" => (fromBracket around).drop 1
  | "," => fromBracket around
  | "?" => .ifTrue :: around
  | ":" => otherBranch (endBranches around)
  | _ => around

/-- The frames that are open behind a token. -/
def framesBehind (around : List Frame) (t : Token) : List Frame :=
  match t.kind with
  | .operator | .punctuation => behindSymbol around t.text
  | _ => around

/-- How deeply a token nests: one more than the number of frames that are open around it.  What
opens a frame stands outside, as does what closes it. -/
def nestingOf (around : List Frame) (t : Token) : Nat :=
  min around.length (framesBehind around t).length + 1

/-- The first token that nests more deeply than a limit allows. -/
def firstBeyond? (limit : Int) (around : List Frame) : List Token → Option Token
  | [] => none
  | t :: i => if limit < nestingOf around t then some t else firstBeyond? limit (framesBehind around t) i

variable {limit : Int} {around : List Frame} {t : Token} {i r : List Token} {text : String}

theorem nestingOf_le : nestingOf around t ≤ around.length + 1 :=
  Nat.add_le_add_right (Nat.min_le_left _ _) 1

theorem firstBeyond?_of_le
    (within : (nestingOf around t : Int) ≤ limit) :
    firstBeyond? limit around (t :: i) = firstBeyond? limit (framesBehind around t) i :=
  if_neg (Int.not_lt.mpr within)

theorem firstBeyond?_of_lt
    (beyond : limit < nestingOf around t) :
    firstBeyond? limit around (t :: i) = some t :=
  if_pos beyond

/-! ### What single tokens do -/

theorem framesBehind_of_isSymbol
    (isText : t.isSymbol text = true) :
    framesBehind around t = behindSymbol around text := by
  cases kind : t.kind <;> simp_all [Token.isSymbol, framesBehind]

theorem framesBehind_of_no_symbol
    (noSymbol : ∀ text, t.isSymbol text = false) :
    framesBehind around t = around := by
  cases kind : t.kind <;> simp_all [Token.isSymbol, framesBehind]

theorem framesBehind_of_kind
    (noSymbol : t.kind ≠ .operator ∧ t.kind ≠ .punctuation) :
    framesBehind around t = around := by
  unfold framesBehind
  split <;> simp_all

/-- The symbols that open a frame, close one or part what stands in it. -/
def framing : List String :=
  ["(", "[", "\x7b"] ++ enders ++ ["?"]

theorem behindSymbol_of_notMem
    (plain : text ∉ framing) :
    behindSymbol around text = around := by
  simp only [framing, enders, closers, List.mem_append, List.mem_cons, List.not_mem_nil, or_false,
    not_or] at plain
  unfold behindSymbol
  split <;> simp_all

/-- A sign in front of an operand leaves all frames as they are. -/
theorem framesBehind_of_prefixOf?
    {op : UnaryOp}
    (isSign : Parser.prefixOf? t = some op) :
    framesBehind around t = around := by
  rw [framesBehind_of_isSymbol (isSymbol_of_prefixOf? isSign)]
  cases op <;> rfl

/-- As does an operator between operands. -/
theorem framesBehind_of_operator
    {level : Level} {op : BinaryOp}
    (isLevel : level ∈ operatorLevels)
    (ofLevel : (text, op) ∈ level)
    (isOperator : t.isSymbol text = true) :
    framesBehind around t = around := by
  have apart : ∀ level ∈ operatorLevels, ∀ p ∈ level, p.1 ∉ framing := by decide
  rw [framesBehind_of_isSymbol isOperator]
  exact behindSymbol_of_notMem (apart level isLevel _ ofLevel)

/-- Signs do not count. -/
theorem firstBeyond?_signs
    {signs : List Token} {ops : List UnaryOp}
    (areSigns : signs.map Parser.prefixOf? = ops.map some)
    (fits : (around.length + 1 : Int) ≤ limit) :
    firstBeyond? limit around (signs ++ i) = firstBeyond? limit around i := by
  induction signs generalizing ops with
  | nil => rfl
  | cons sign signs ih =>
      cases ops with
      | nil => simp at areSigns
      | cons op ops =>
          simp only [List.map_cons, List.cons.injEq] at areSigns
          have within : nestingOf around sign ≤ around.length + 1 := nestingOf_le
          rw [List.cons_append, firstBeyond?_of_le (by omega), framesBehind_of_prefixOf? areSigns.1,
            ih areSigns.2]

/-! ### Symbols behind an expression -/

section Behind

variable {k : Nat} {f : Frame}

/-- Behind an expression in a frame there may be second branches that end with the expression. -/
theorem endBranches_behind
    (other : f ≠ .ifFalse) :
    endBranches (List.replicate k .ifFalse ++ f :: around) = f :: around := by
  induction k with
  | zero => simp [endBranches, other]
  | succ k ih => simpa [endBranches, List.replicate_succ] using ih

theorem fromBracket_behind :
    fromBracket (List.replicate k .ifFalse ++ .bracket :: around) = .bracket :: around := by
  induction k with
  | zero => rfl
  | succ k ih => exact ih

theorem behindSymbol_comma :
    behindSymbol (List.replicate k .ifFalse ++ .bracket :: around) "," = .bracket :: around :=
  fromBracket_behind

theorem behindSymbol_colon_bracket :
    behindSymbol (List.replicate k .ifFalse ++ .bracket :: around) ":" = .bracket :: around :=
  congrArg otherBranch (endBranches_behind (by decide))

theorem behindSymbol_colon_ifTrue :
    behindSymbol (List.replicate k .ifFalse ++ .ifTrue :: around) ":" = .ifFalse :: around :=
  congrArg otherBranch (endBranches_behind (by decide))

theorem behindSymbol_closer
    (closes : text ∈ closers) :
    behindSymbol (List.replicate k .ifFalse ++ .bracket :: around) text = around := by
  have popped : (fromBracket (List.replicate k .ifFalse ++ .bracket :: around)).drop 1 = around := by
    rw [fromBracket_behind]
    rfl
  simp only [closers, List.mem_cons, List.not_mem_nil, or_false] at closes
  rcases closes with rfl | rfl | rfl <;> exact popped

end Behind

/-! ### How expressions begin -/

/-- There is a next token, and nothing ends or parts with it. -/
def BeginsInside (i : List Token) : Prop :=
  ∃ t after, i = t :: after ∧ ∀ text ∈ enders, t.isSymbol text = false

/-- What an expression or a part of it begins with. -/
def Phrase.BeginsInside : Phrase → List Token → Prop
  | .expr _, i | .chain _ _, i | .unary _, i | .member _, i | .primary _, i => Grammar.BeginsInside i
  | _, _ => True

theorem beginsInside_of_isSymbol
    (isText : t.isSymbol text = true)
    (inside : text ∉ enders) :
    BeginsInside (t :: i) :=
  ⟨t, i, rfl, fun _ ends => isSymbol_eq_false isText fun same => inside (same ▸ ends)⟩

theorem beginsInside_of_prefixOf?
    {op : UnaryOp}
    (isSign : Parser.prefixOf? t = some op) :
    BeginsInside (t :: i) :=
  beginsInside_of_isSymbol (isSymbol_of_prefixOf? isSign) (by cases op <;> decide)

theorem beginsInside_of_no_symbol
    (noSymbol : ∀ text, t.isSymbol text = false) :
    BeginsInside (t :: i) :=
  ⟨t, i, rfl, fun text _ => noSymbol text⟩

/-- No expression begins with a symbol that ends or parts what stands before it. -/
theorem Derives.beginsInside
    {n : Nat} {p : Phrase}
    (h : Derives n p i r) :
    p.BeginsInside i := by
  induction h with
  | plain _ ih => exact ih
  | ternary _ _ _ _ _ ih => exact ih
  | operand _ ih => exact ih
  | chain _ _ ih => exact ih
  | @prefixed _ ops signs _ _ _ areSigns _ _ ih =>
      match signs, ops with
      | [], _ => exact ih
      | sign :: signs, op :: ops =>
          simp only [List.map_cons, List.cons.injEq] at areSigns
          exact beginsInside_of_prefixOf? areSigns.1
  | @negative _ ops signs minus _ _ _ areSigns isMinus =>
      match signs, ops with
      | [], _ => exact beginsInside_of_prefixOf? isMinus
      | sign :: signs, op :: ops =>
          simp only [List.map_cons, List.cons.injEq] at areSigns
          exact beginsInside_of_prefixOf? areSigns.1
  | member _ _ ih => exact ih
  | literal value => exact beginsInside_of_no_symbol (isSymbol_of_literalValue? value)
  | name isName => exact beginsInside_of_no_symbol (isSymbol_of_isIdent isName)
  | call isName => exact beginsInside_of_no_symbol (isSymbol_of_isIdent isName)
  | group isOpen => exact beginsInside_of_isSymbol isOpen (by decide)
  | list isOpen => exact beginsInside_of_isSymbol isOpen (by decide)
  | map isOpen => exact beginsInside_of_isSymbol isOpen (by decide)
  | _ => trivial

/-- A symbol that ends or parts nothing closes no frame. -/
theorem length_le_behindSymbol
    (inside : text ∉ enders) :
    around.length ≤ (behindSymbol around text).length := by
  simp only [enders, closers, List.mem_append, List.mem_cons, List.not_mem_nil, or_false, not_or]
    at inside
  unfold behindSymbol
  split <;> simp_all

/-- The first token of an expression stands in all frames that are open before it. -/
theorem nestingOf_of_inside
    (inside : ∀ text ∈ enders, t.isSymbol text = false) :
    nestingOf around t = around.length + 1 := by
  have kept : around.length ≤ (framesBehind around t).length := by
    by_cases isSymbol : t.isSymbol t.text = true
    · rw [framesBehind_of_isSymbol isSymbol]
      exact length_le_behindSymbol fun ends => by simp [inside _ ends] at isSymbol
    · have noSymbol (text : String) : t.isSymbol text = false := by
        cases kind : t.kind <;> simp_all [Token.isSymbol]
      rw [framesBehind_of_no_symbol noSymbol]
  rw [nestingOf, Nat.min_eq_left kept]

/-! ### Wider limits -/

/-- What may nest to some depth may nest more deeply. -/
theorem Derives.deeper
    {n : Nat} {p : Phrase}
    (h : Derives n p i r)
    (k : Nat) :
    Derives (n + k) p i r := by
  induction h with
  | plain _ ih =>
      rw [Nat.add_right_comm]
      exact .plain ih
  | ternary _ isQuestion _ isColon _ ih ih' ih'' =>
      rw [Nat.add_right_comm]
      exact .ternary ih isQuestion ih' isColon ih''
  | _ => grind [Derives]

end Grammar
end ExprLang
