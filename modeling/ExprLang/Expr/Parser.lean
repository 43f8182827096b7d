import ExprLang.Expr
import ExprLang.Token.Lexer

/-!
# Expressions from source text

The grammar, loosest binding first:

    cond ? a : b            (right associative)
    ||
    &&
    == != < <= > >= in
    + -
    * / %
    ! -                     (prefix)
    a.b  a[b]  a.f(x)  f(x) (postfix chains)

A mistake does not stop the parser.  It is recorded, at most one for each offset, a placeholder
stands in for what is missing, and parsing goes on, so that one run reports every independent
mistake.

Nested expressions are parsed by the parser that each level of the grammar is given for them.
`exprAt` ties the knot: it may be entered as often as its budget says, and past the budget parsing
is cut off.  Each loop takes at least one token in every round, so the number of tokens bounds it.
-/

namespace ExprLang
namespace Parser

/-- Where a parser stands: the tokens ahead, the end of the last token taken, the next number for a
node, the mistakes so far, newest first, the offsets at which there is a mistake already, and
whether parsing was cut off.  `sourceLength` is where the input ends. -/
structure State where
  rest : List Token
  sourceLength : Nat
  lastEnd : Nat
  nextId : Nat
  errors : List (SyntaxError × Text.Span)
  offsets : List Nat
  halted : Bool

end Parser

/-- A parser of some part of an expression. -/
abbrev Parser (α : Type) := StateM Parser.State α

namespace Parser
/-! ### Tokens -/

/-- The next token, if there is one. -/
def peek : Parser (Option Token) :=
  return (← get).rest.head?

/-- The span of the next token; at the end of the input it is empty. -/
def nextSpan : Parser Text.Span := do
  let s ← get
  return match s.rest with
    | t :: _ => t.span
    | [] => ⟨s.sourceLength, s.sourceLength⟩

/-- The text of the next token, if there is one. -/
def found : Parser (Option String) :=
  return (← get).rest.head?.map (·.text)

/-- Takes the next token. -/
def advance : Parser Unit :=
  modify fun s =>
    match s.rest with
    | t :: rest => { s with rest := rest, lastEnd := t.span.stop }
    | [] => s

/-- Whether the next token is a given symbol. -/
def atSymbol (text : String) : Parser Bool :=
  return match (← get).rest with
    | t :: _ => t.isSymbol text
    | [] => false

/-- Takes a given symbol if it comes next, and says whether it did. -/
def takeSymbol (text : String) : Parser Bool := do
  if ← atSymbol text then
    advance
    return true
  else
    return false

/-- Whether all tokens are taken. -/
def atEnd : Parser Bool :=
  return (← get).rest.isEmpty

/-- The number of tokens ahead. -/
def remaining : Parser Nat :=
  return (← get).rest.length

/-! ### Mistakes and nodes -/

/-- Records a mistake, unless parsing was cut off or there is one at the same offset. -/
def record (cause : SyntaxError) (span : Text.Span) : Parser Unit :=
  modify fun s =>
    if s.halted || s.offsets.contains span.start then s
    else { s with errors := (cause, span) :: s.errors, offsets := span.start :: s.offsets }

/-- Takes a given symbol, whose absence is a mistake, and says whether it was there. -/
def expect (text : String) : Parser Bool := do
  if ← takeSymbol text then
    return true
  else
    record (.expected text (← found)) (← nextSpan)
    return false

/-- The mark of a new node that starts at `start` and ends with the last token taken. -/
def newMark (start : Nat) : Parser Mark :=
  modifyGet fun s =>
    (⟨s.nextId, ⟨start, max start s.lastEnd⟩⟩, { s with nextId := s.nextId + 1 })

/-- What stands for a missing expression. -/
def placeholder (start : Nat) : Parser Expr :=
  return .literal (← newMark start) .null

/-! ### Operators -/

/-- The operators of one level, and how they are written. -/
abbrev Level := List (String × BinaryOp)

/-- Alternatives. -/
def orLevel : Level := [("||", .or)]

/-- Conjunctions. -/
def andLevel : Level := [("&&", .and)]

/-- Comparisons and membership. -/
def relationLevel : Level :=
  [("==", .eq), ("!=", .ne), ("<", .lt), ("<=", .le), (">", .gt), (">=", .ge), ("in", .isIn)]

/-- Sums. -/
def sumLevel : Level := [("+", .add), ("-", .sub)]

/-- Products. -/
def productLevel : Level := [("*", .mul), ("/", .div), ("%", .mod)]

/-- Takes an operator of a level if one comes next. -/
def takeOperator? (level : Level) : Parser (Option BinaryOp) := do
  match (← get).rest with
  | [] => return none
  | t :: _ =>
      match level.find? fun (text, _) => t.isSymbol text with
      | some (_, op) =>
          advance
          return some op
      | none => return none

/-- Takes operators and operands to the right of `left` for at most `fuel` rounds. -/
def operatorLoop (level : Level) (operand : Parser Expr) (start : Nat) :
    Nat → Expr → Parser Expr
  | 0, left => return left
  | fuel + 1, left => do
      match ← takeOperator? level with
      | none => return left
      | some op =>
          let right ← operand
          let mark ← newMark start
          operatorLoop level operand start fuel (.binary mark op left right)

/-- Operands joined by the operators of one level, associating to the left. -/
def leftAssoc (level : Level) (operand : Parser Expr) : Parser Expr := do
  let start := (← nextSpan).start
  let left ← operand
  operatorLoop level operand start (← remaining) left

/-- The operator that a token is in front of its operand. -/
def prefixOf? (t : Token) : Option UnaryOp :=
  match t.kind with
  | .operator => if t.text = "!" then some .not else if t.text = "-" then some .neg else none
  | _ => none

/-- Takes the operators in front of an operand, each with its offset. -/
def takePrefixes : Nat → Parser (List (UnaryOp × Nat))
  | 0 => return []
  | fuel + 1 => do
      match (← get).rest with
      | [] => return []
      | t :: _ =>
          match prefixOf? t with
          | none => return []
          | some op =>
              advance
              let others ← takePrefixes fuel
              return (op, t.span.start) :: others

/-- Applies operators to an operand, the first in the list innermost. -/
def applyPrefixes : List (UnaryOp × Nat) → Expr → Parser Expr
  | [], e => return e
  | (op, start) :: rest, e => do
      let mark ← newMark start
      applyPrefixes rest (.unary mark op e)

/-! ### Literals, lists and maps -/

/-- A signed integer, out of range being a mistake. -/
def intLiteral (t : Token) (n : Nat) (start : Nat) (negative : Bool) : Parser Expr := do
  let value : Int := if negative then -(n : Int) else n
  if InIntRange value then
    return .literal (← newMark start) (.int value)
  else
    record (.integerOutOfRange ((if negative then "-" else "") ++ t.text)) t.span
    return .literal (← newMark start) (.int 0)

/-- An unsigned integer, out of range being a mistake. -/
def uintLiteral (t : Token) (n : Nat) (start : Nat) : Parser Expr := do
  if n ≤ maxUInt then
    return .literal (← newMark start) (.uint n)
  else
    record (.unsignedOutOfRange t.text) t.span
    return .literal (← newMark start) (.uint 0)

/-- Expressions with commas between them, up to a closing symbol or the end of the input. -/
def itemLoop (expr : Parser Expr) (close : String) : Nat → Parser (List Expr)
  | 0 => return []
  | fuel + 1 => do
      if (← atSymbol close) || (← atEnd) then
        return []
      else
        let e ← expr
        if ← takeSymbol "," then
          let others ← itemLoop expr close fuel
          return e :: others
        else
          return [e]

/-- Expressions with commas between them and the closing symbol; a comma may stand before it. -/
def items (expr : Parser Expr) (close : String) : Parser (List Expr) := do
  let es ← itemLoop expr close (← remaining)
  let _ ← expect close
  return es

/-- Entries of a map with commas between them.  A missing colon ends the entries. -/
def entryLoop (expr : Parser Expr) : Nat → Parser (List (Expr × Expr))
  | 0 => return []
  | fuel + 1 => do
      if (← atSymbol "\x7d") || (← atEnd) then
        return []
      else
        let key ← expr
        if ← expect ":" then
          let value ← expr
          if ← takeSymbol "," then
            let others ← entryLoop expr fuel
            return (key, value) :: others
          else
            return [(key, value)]
        else
          return []

/-- A map, after its opening brace. -/
def mapBody (expr : Parser Expr) (start : Nat) : Parser Expr := do
  let entries ← entryLoop expr (← remaining)
  let _ ← expect "\x7d"
  return .map (← newMark start) entries

/-! ### Calls and macros -/

/-- The names of the variables of a comprehension; what is no identifier, or a name for the second
time, is a mistake. -/
def variableNames (macroName : String) : List String → List Expr → Parser (List String)
  | names, [] => return names
  | names, e :: rest => do
      match e.identName? with
      | none =>
          record (.variableNotIdentifier macroName) e.span
          variableNames macroName names rest
      | some name =>
          if names.contains name then
            record (.duplicateVariable name macroName) e.span
            variableNames macroName names rest
          else
            variableNames macroName (names ++ [name]) rest

/-- A comprehension with given variables, guard and body, in which the variables are bound. -/
def comprehension (start : Nat) (macroName : String) (kind : Comprehension) (target : Expr)
    (binders : List Expr) (guard : Option Expr) (body : Expr) : Parser Expr := do
  let names ← variableNames macroName [] binders
  let mark ← newMark start
  return .comprehension mark kind target names (Expr.bindOption names guard)
    (Expr.bindLocals names body)

/-- The test whether an access would succeed. -/
def presenceTest (start : Nat) (nameSpan : Text.Span) (args : List Expr) : Parser Expr := do
  match args with
  | [access] =>
      if access.isAccess then
        return .has (← newMark start) access
      else
        record .invalidPresenceTest nameSpan
        placeholder start
  | _ =>
      record .invalidPresenceTest nameSpan
      placeholder start

/-- A method call: a comprehension if the name and the number of arguments ask for one. -/
def methodCall (start : Nat) (name : String) (target : Expr) (args : List Expr) :
    Parser Expr := do
  match Comprehension.ofName? name, args with
  | some kind, [x, body] => comprehension start name kind target [x] none body
  | some kind, [x, y, body] =>
      if y.identName?.isSome then
        comprehension start name kind target [x, y] none body
      else
        if kind ≠ .map then
          record (.tooManyVariables name) y.span
        comprehension start name kind target [x] (some y) body
  | _, _ => return .call (← newMark start) name (some target) args

/-- A call of a named function: the presence test if the name is `has`. -/
def functionCall (start : Nat) (name : String) (nameSpan : Text.Span) (args : List Expr) :
    Parser Expr := do
  if name = "has" then
    presenceTest start nameSpan args
  else
    return .call (← newMark start) name none args

/-! ### The levels of the grammar -/

/-- An identifier, or a call of the function that it names. -/
def identifier (expr : Parser Expr) (t : Token) : Parser Expr := do
  let start := t.span.start
  if reservedWords.contains t.text then
    record (.reservedIdentifier t.text) t.span
  if ← takeSymbol "(" then
    let args ← items expr ")"
    functionCall start t.text t.span args
  else
    return .ident (← newMark start) t.text

/-- What starts with a symbol: a bracketed expression, a list or a map. -/
def bracketed (expr : Parser Expr) (start : Nat) : Parser Expr := do
  if ← takeSymbol "(" then
    let e ← expr
    let _ ← expect ")"
    return e
  else if ← takeSymbol "[" then
    let es ← items expr "]"
    return .list (← newMark start) es
  else if ← takeSymbol "\x7b" then
    mapBody expr start
  else
    record (.unexpected (← found)) (← nextSpan)
    placeholder start

/-- A literal with a value of its own. -/
def valueLiteral (start : Nat) (value : Value) : Parser Expr := do
  advance
  return .literal (← newMark start) value

/-- The innermost parts of an expression. -/
def primary (expr : Parser Expr) : Parser Expr := do
  let start := (← nextSpan).start
  match ← peek with
  | none => bracketed expr start
  | some t =>
      match t.kind with
      | .int n => do
          advance
          intLiteral t n start false
      | .uint n => do
          advance
          uintLiteral t n start
      | .float f => valueLiteral start (.float f)
      | .string s => valueLiteral start (.string s)
      | .bytes octets => valueLiteral start (.bytes octets)
      | .bool b => valueLiteral start (.bool b)
      | .null => valueLiteral start .null
      | .ident => do
          advance
          identifier expr t
      | _ => bracketed expr start

/-- Takes fields, indices and calls after an expression for at most `fuel` rounds. -/
def postfixLoop (expr : Parser Expr) (start : Nat) : Nat → Expr → Parser Expr
  | 0, e => return e
  | fuel + 1, e => do
      if ← takeSymbol "." then
        match ← peek with
        | none =>
            record (.expectedField none) (← nextSpan)
            return e
        | some name =>
            if name.isIdent then
              advance
              if ← takeSymbol "(" then
                let args ← items expr ")"
                let called ← methodCall start name.text e args
                postfixLoop expr start fuel called
              else
                let mark ← newMark start
                postfixLoop expr start fuel (.select mark e name.text)
            else
              record (.expectedField (some name.text)) name.span
              return e
      else if ← takeSymbol "[" then
        let key ← expr
        let _ ← expect "]"
        let mark ← newMark start
        postfixLoop expr start fuel (.index mark e key)
      else if ← takeSymbol "(" then
        let args ← items expr ")"
        let mark ← newMark start
        postfixLoop expr start fuel (.invoke mark e args)
      else
        return e

/-- A primary expression with the fields, indices and calls after it. -/
def member (expr : Parser Expr) : Parser Expr := do
  let start := (← nextSpan).start
  let e ← primary expr
  postfixLoop expr start (← remaining) e

/-- The integer that a minus sign directly before it makes negative: the next token, unless a field
or an index follows it. -/
def negatedInt? : Parser (Option (Token × Nat)) := do
  match (← get).rest with
  | t :: after =>
      match t.kind with
      | .int n =>
          let postfixed := match after with
            | next :: _ => next.isSymbol "." || next.isSymbol "["
            | [] => false
          return if postfixed then none else some (t, n)
      | _ => return none
  | [] => return none

/-- An operand with the operators before it.  A minus sign directly before an integer literal
belongs to the literal, so that the smallest integer can be written. -/
def unary (expr : Parser Expr) : Parser Expr := do
  let prefixes := (← takePrefixes (← remaining)).reverse
  match prefixes, ← negatedInt? with
  | (.neg, start) :: outer, some (t, n) => do
      advance
      let e ← intLiteral t n start true
      applyPrefixes outer e
  | _, _ => do
      let e ← member expr
      applyPrefixes prefixes e

/-- Everything that binds more tightly than the conditional. -/
def alternatives (expr : Parser Expr) : Parser Expr :=
  leftAssoc orLevel <| leftAssoc andLevel <| leftAssoc relationLevel <| leftAssoc sumLevel <|
    leftAssoc productLevel <| unary expr

/-- A conditional, or what binds more tightly. -/
def conditional (expr : Parser Expr) : Parser Expr := do
  let start := (← nextSpan).start
  let cond ← alternatives expr
  if ← takeSymbol "?" then
    let ifTrue ← expr
    let _ ← expect ":"
    let ifFalse ← expr
    return .ternary (← newMark start) cond ifTrue ifFalse
  else
    return cond

/-- The nesting that is parsed whatever limit is asked for. -/
def maximumNesting : Nat := 600

/-- Ends parsing where expressions nest too deeply: everything ahead is dropped and nothing more is
recorded. -/
def cutOff (limit : Int) : Parser Expr := do
  let here ← nextSpan
  if limit ≤ maximumNesting then
    record (.nestingExceeded limit) here
  else
    record .nestedTooDeeply ⟨0, (← get).sourceLength⟩
  modify fun s => { s with rest := [], halted := true }
  placeholder here.start

/-- An expression in which expressions nest as deeply as the budget says. -/
def exprAt (limit : Int) : Nat → Parser Expr
  | 0 => cutOff limit
  | budget + 1 => conditional (exprAt limit budget)

/-- The budget of a nesting limit. -/
def budget (limit : Int) : Nat :=
  min limit.toNat maximumNesting

/-- After the expression only the end of the input may follow; what does follow is parsed for the
sake of its mistakes. -/
def trailingLoop (expr : Parser Expr) : Nat → Parser Unit
  | 0 => return
  | fuel + 1 => do
      match ← peek with
      | none => return
      | some t => do
          record (.trailing (some t.text)) t.span
          let before ← remaining
          let _ ← expr
          if (← remaining) = before then
            advance
          trailingLoop expr fuel

/-- A whole input: an expression and nothing after it. -/
def input (limit : Int) : Parser Expr := do
  let e ← exprAt limit (budget limit)
  trailingLoop (exprAt limit (budget limit)) (← remaining)
  return e

/-- The state in which the tokens of a source text are all ahead. -/
def initial (sourceLength : Nat) (tokens : List Token) (offsets : List Nat) : State where
  rest := tokens
  sourceLength := sourceLength
  lastEnd := 0
  nextId := 1
  errors := []
  offsets := offsets
  halted := false

/-- Problems in the order of the source; of two at one offset the earlier found comes first. -/
def sortProblems (problems : List Problem) : List Problem :=
  problems.mergeSort fun p q => p.span.start ≤ q.span.start

end Parser

/-- The expression of a source text, or all its problems in the order of the source. -/
def parse (limit : Int) (source : List Char) : Except (List Problem) Expr :=
  let scanned := Lexer.scan source
  let (root, final) := (Parser.input limit).run
    (Parser.initial source.length scanned.tokens (scanned.errors.map (·.2.start)))
  let errors := scanned.errors ++ final.errors.reverse
  if errors.isEmpty then .ok root
  else
    .error (Parser.sortProblems
      (errors.map fun (cause, span) => Problem.locate source cause span))

end ExprLang
