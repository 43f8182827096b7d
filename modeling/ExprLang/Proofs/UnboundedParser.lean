import ExprLang.Proofs.ComposedParsers

/-!
# The parser without bounds

The loops of the parser are bounded by the number of tokens ahead.  Here they are not: each repeats
its round until the round says to stop, which might be never.  Apart from the loops the parts are
those of the parser, one by one.

* `Reading`: the runs of a parser that end.
* `repeated`: repeating a round for as long as it goes on.
* `Unbounded.conditional`, `Unbounded.exprAt`, `Unbounded.input`: the parser without bounds.
-/

namespace ExprLang
namespace Parser

variable {σ : Type}

/-! ### Rounds -/

/-- The next operator in front of an operand, after those before it. -/
def prefixRound (before : List (UnaryOp × Nat)) : Parser (Step (List (UnaryOp × Nat))) := do
  match (← get).rest with
  | [] => return .stop before
  | t :: _ =>
      match prefixOf? t with
      | none => return .stop before
      | some op =>
          advance
          return .go (before ++ [(op, t.span.start)])

/-- Takes an expression, or a token if there is nothing to take for an expression. -/
def takeSome (expr : Parser Expr) : Parser Unit := do
  let before ← remaining
  let _ ← expr
  if (← remaining) = before then
    advance

/-- What follows the expression is a mistake, and is parsed for the sake of its mistakes. -/
def trailingRound (expr : Parser Expr) (_ : Unit) : Parser (Step Unit) := do
  match ← peek with
  | none => return .stop ()
  | some t => do
      record (.trailing (some t.text)) t.span
      takeSome expr
      return .go ()

/-! ### Runs that end -/

/-- A parser of which the runs that end are known: from which state to which result and state they
lead.  A run that does not end leads nowhere. -/
def Reading (α : Type) : Type :=
  State → α × State → Prop

instance : Monad Reading where
  pure a := fun s r => r = (a, s)
  bind m f := fun s r => ∃ a s', m s (a, s') ∧ f a s' r

/-- The runs of a parser all end. -/
instance : MonadLift Parser Reading :=
  ⟨fun m s r => r = m s⟩

/-- The runs that end of a round that is repeated for as long as it goes on. -/
inductive repeated (round : σ → Reading (Step σ)) : σ → Reading σ
  | stop
      {x y : σ} {s s' : State}
      (stopped : round x s (.stop y, s')) :
      repeated round x s (y, s')
  | go
      {x y : σ} {s s' : State} {r : σ × State}
      (went : round x s (.go y, s'))
      (others : repeated round y s' r) :
      repeated round x s r

namespace Unbounded

section Nested

variable (expr : Reading Expr)

/-- One item after those before it. -/
def itemRound (close : String) (before : List Expr) : Reading (Step (List Expr)) := do
  if (← atSymbol close) || (← atEnd) then
    return .stop before
  else
    let e ← expr
    if ← takeSymbol "," then return .go (before ++ [e]) else return .stop (before ++ [e])

/-- Expressions with commas between them and the closing symbol. -/
def items (close : String) : Reading (List Expr) := do
  let es ← repeated (itemRound expr close) []
  let _ ← expect close
  return es

/-- One entry after those before it. -/
def entryRound (before : List (Expr × Expr)) : Reading (Step (List (Expr × Expr))) := do
  if (← atSymbol "\x7d") || (← atEnd) then
    return .stop before
  else
    let key ← expr
    if ← expect ":" then
      let value ← expr
      if ← takeSymbol "," then
        return .go (before ++ [(key, value)])
      else
        return .stop (before ++ [(key, value)])
    else
      return .stop before

/-- A map, after its opening brace. -/
def mapBody (start : Nat) : Reading Expr := do
  let entries ← repeated (entryRound expr) []
  let _ ← expect "\x7d"
  return .map (← newMark start) entries

/-- An identifier, or a call of the function that it names. -/
def identifier (t : Token) : Reading Expr := do
  let start := t.span.start
  if reservedWords.contains t.text then
    record (.reservedIdentifier t.text) t.span
  if ← takeSymbol "(" then
    let args ← items expr ")"
    functionCall start t.text t.span args
  else
    return .ident (← newMark start) t.text

/-- What starts with a symbol: a bracketed expression, a list or a map. -/
def bracketed (start : Nat) : Reading Expr := do
  if ← takeSymbol "(" then
    let e ← expr
    let _ ← expect ")"
    return e
  else if ← takeSymbol "[" then
    let es ← items expr "]"
    return .list (← newMark start) es
  else if ← takeSymbol "\x7b" then
    mapBody expr start
  else
    record (.unexpected (← found)) (← nextSpan)
    placeholder start

/-- The innermost parts of an expression. -/
def primary : Reading Expr := do
  let start := (← nextSpan).start
  match ← peek with
  | none => bracketed expr start
  | some t =>
      match t.kind with
      | .int n => do
          advance
          intLiteral t n start false
      | .uint n => do
          advance
          uintLiteral t n start
      | .float f => valueLiteral start (.float f)
      | .string s => valueLiteral start (.string s)
      | .bytes octets => valueLiteral start (.bytes octets)
      | .bool b => valueLiteral start (.bool b)
      | .null => valueLiteral start .null
      | .ident => do
          advance
          identifier expr t
      | _ => bracketed expr start

/-- A field or a method call, after the dot. -/
def fieldRound (start : Nat) (e : Expr) : Reading (Step Expr) := do
  match ← peek with
  | none =>
      record (.expectedField none) (← nextSpan)
      return .stop e
  | some name =>
      if name.isIdent then
        advance
        if ← takeSymbol "(" then
          let args ← items expr ")"
          return .go (← methodCall start name.text e args)
        else
          return .go (.select (← newMark start) e name.text)
      else
        record (.expectedField (some name.text)) name.span
        return .stop e

/-- A field, an index or a call after an expression. -/
def postfixRound (start : Nat) (e : Expr) : Reading (Step Expr) := do
  if ← takeSymbol "." then
    fieldRound expr start e
  else if ← takeSymbol "[" then
    let key ← expr
    let _ ← expect "]"
    return .go (.index (← newMark start) e key)
  else if ← takeSymbol "(" then
    let args ← items expr ")"
    return .go (.invoke (← newMark start) e args)
  else
    return .stop e

/-- A primary expression with the fields, indices and calls after it. -/
def member : Reading Expr := do
  let start := (← nextSpan).start
  let e ← primary expr
  repeated (postfixRound expr start) e

/-- An operand behind operators that are taken already, the last of them first. -/
def behindPrefixes (prefixes : List (UnaryOp × Nat)) : Reading Expr := do
  match prefixes, ← negatedInt? with
  | (.neg, start) :: outer, some (t, n) => do
      advance
      let e ← intLiteral t n start true
      applyPrefixes outer e
  | _, _ => do
      let e ← member expr
      applyPrefixes prefixes e

/-- An operand with the operators before it. -/
def unary : Reading Expr := do
  let prefixes ← repeated (fun before => prefixRound before) []
  behindPrefixes expr prefixes.reverse

end Nested

/-- One operator and its right operand, for a left operand. -/
def operatorRound (level : Level) (operand : Reading Expr) (start : Nat) (left : Expr) :
    Reading (Step Expr) := do
  match ← takeOperator? level with
  | none => return .stop left
  | some op =>
      let right ← operand
      return .go (.binary (← newMark start) op left right)

/-- Operands joined by the operators of one level, associating to the left. -/
def leftAssoc (level : Level) (operand : Reading Expr) : Reading Expr := do
  let start := (← nextSpan).start
  let left ← operand
  repeated (operatorRound level operand start) left

/-- Operands joined by the operators of some levels, the loosest first. -/
def chain (expr : Reading Expr) (levels : List Level) : Reading Expr :=
  levels.foldr leftAssoc (unary expr)

/-- Everything that binds more tightly than the conditional. -/
def alternatives (expr : Reading Expr) : Reading Expr :=
  chain expr Grammar.operatorLevels

/-- A conditional, or what binds more tightly. -/
def conditional (expr : Reading Expr) : Reading Expr := do
  let start := (← nextSpan).start
  let cond ← alternatives expr
  if ← takeSymbol "?" then
    let ifTrue ← expr
    let _ ← expect ":"
    let ifFalse ← expr
    return .ternary (← newMark start) cond ifTrue ifFalse
  else
    return cond

/-- An expression in which expressions nest as deeply as is allowed. -/
def exprAt (limit : Int) : Nat → Reading Expr
  | 0 => cutOff limit
  | nesting + 1 => conditional (exprAt limit nesting)

/-- Takes an expression, or a token if there is nothing to take for an expression. -/
def takeSome (expr : Reading Expr) : Reading Unit := do
  let before ← remaining
  let _ ← expr
  if (← remaining) = before then
    advance

/-- What follows the expression is a mistake, and is parsed for the sake of its mistakes. -/
def trailingRound (expr : Reading Expr) (_ : Unit) : Reading (Step Unit) := do
  match ← peek with
  | none => return .stop ()
  | some t => do
      record (.trailing (some t.text)) t.span
      takeSome expr
      return .go ()

/-- A whole input: an expression and nothing after it. -/
def input (limit : Int) (nesting : Nat) : Reading Expr := do
  let e ← exprAt limit nesting
  repeated (trailingRound (exprAt limit nesting)) ()
  return e

end Unbounded
end Parser
end ExprLang
