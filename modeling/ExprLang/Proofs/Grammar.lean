import ExprLang.Expr.Parser
import ExprLang.Proofs.Marks

/-!
# The grammar of expressions

The grammar as a relation, apart from any way of parsing.  `Derives n p i r` says that the tokens
`i` begin with the phrase `p`, after which the tokens `r` are left; `n` bounds how deeply
expressions nest in each other.  Trees are built without their marks.

    expr      ->  or ("?" expr ":" expr)?
    or        ->  and ("||" and)*            likewise the four tighter levels of operators
    unary     ->  ("!" | "-")* member        "-" INT is one literal unless "." or "[" follows it
    member    ->  primary (field | method | index | invocation)*
    primary   ->  literal | name | call | "(" expr ")" | list | map

A name before an opening parenthesis is always that of a call.  The conditions that calls lay on
their arguments are `FunctionCall` and `MethodCall`.
-/

namespace ExprLang
namespace Grammar

open ExprLang.Expr (blank)
open ExprLang.Parser (Level)

/-! ### Single tokens -/

/-- The value of a token that is a literal; integers have to be in range. -/
def literalValue? (t : Token) : Option Value :=
  match t.kind with
  | .int n => if InIntRange n then some (.int n) else none
  | .uint n => if n ≤ maxUInt then some (.uint n) else none
  | .float f => some (.float f)
  | .string s => some (.string s)
  | .bytes octets => some (.bytes octets)
  | .bool b => some (.bool b)
  | .null => some .null
  | _ => none

/-- Whether tokens begin with a given symbol. -/
def startsWith (text : String) : List Token → Bool
  | t :: _ => t.isSymbol text
  | [] => false

/-- The integer with which a minus sign directly before it forms one literal: an integer token that
no field and no index follows. -/
def negatable? : List Token → Option Nat
  | t :: after =>
      match t.kind with
      | .int n => if startsWith "." after || startsWith "[" after then none else some n
      | _ => none
  | [] => none

/-- The levels of operators, loosest binding first. -/
def operatorLevels : List Level :=
  [Parser.orLevel, Parser.andLevel, Parser.relationLevel, Parser.sumLevel, Parser.productLevel]

/-- An expression behind operators, the last operator innermost. -/
def prefixed (ops : List UnaryOp) (e : Expr) : Expr :=
  ops.foldr (Expr.unary blank) e

/-! ### Calls -/

/-- What a call of a named function with given arguments means: `has` asks for one field selection
or index. -/
inductive FunctionCall : String → List Expr → Expr → Prop
  | presence
      {access : Expr}
      (isAccess : access.isAccess = true) :
      FunctionCall "has" [access] (.has blank access)
  | call
      {name : String} {args : List Expr}
      (other : name ≠ "has") :
      FunctionCall name args (.call blank name none args)

/-- What a method call on a target means.  The name of a comprehension with two or three arguments
asks for variables, which are names and differ, and only `map` has a guard. -/
inductive MethodCall : String → Expr → List Expr → Expr → Prop
  | call
      {name : String} {target : Expr} {args : List Expr}
      (other : Comprehension.ofName? name = none ∨ (args.length ≠ 2 ∧ args.length ≠ 3)) :
      MethodCall name target args (.call blank name (some target) args)
  | single
      {name : String} {kind : Comprehension} {target body : Expr} {x : String}
      (named : Comprehension.ofName? name = some kind) :
      MethodCall name target [.ident blank x, body]
        (.comprehension blank kind target [x] none (Expr.bindLocals [x] body))
  | pair
      {name : String} {kind : Comprehension} {target body : Expr} {x y : String}
      (named : Comprehension.ofName? name = some kind)
      (distinct : x ≠ y) :
      MethodCall name target [.ident blank x, .ident blank y, body]
        (.comprehension blank kind target [x, y] none (Expr.bindLocals [x, y] body))
  | guarded
      {name : String} {target guard body : Expr} {x : String}
      (named : Comprehension.ofName? name = some .map)
      (noName : guard.identName? = none) :
      MethodCall name target [.ident blank x, guard, body]
        (.comprehension blank .map target [x] (some (Expr.bindLocals [x] guard))
          (Expr.bindLocals [x] body))

/-! ### Phrases -/

/-- What tokens can be read as.  `chain` is an expression whose operators are of the given levels,
`operators` is what follows the left operand in such a chain, and `postfixes` what follows the
innermost part of a member; these two are read as the expression that they complete.  `items` and
`entries` include the closing symbol. -/
inductive Phrase where
  | expr (e : Expr)
  | chain (levels : List Level) (e : Expr)
  | operators (level : Level) (tighter : List Level) (left e : Expr)
  | unary (e : Expr)
  | member (e : Expr)
  | postfixes (inner e : Expr)
  | primary (e : Expr)
  | items (close : String) (es : List Expr)
  | entries (kvs : List (Expr × Expr))

/-- `Derives n p i r`: the tokens `i` are the phrase `p` followed by the tokens `r`, where
expressions nest at most `n` deep. -/
inductive Derives : Nat → Phrase → List Token → List Token → Prop
  -- Conditionals
  | plain
      {n : Nat} {e : Expr} {i r : List Token}
      (alternatives : Derives n (.chain operatorLevels e) i r) :
      Derives (n + 1) (.expr e) i r
  | ternary
      {n : Nat} {c a b : Expr} {i j k r : List Token} {question colon : Token}
      (condition : Derives n (.chain operatorLevels c) i (question :: j))
      (isQuestion : question.isSymbol "?" = true)
      (ifTrue : Derives n (.expr a) j (colon :: k))
      (isColon : colon.isSymbol ":" = true)
      (ifFalse : Derives n (.expr b) k r) :
      Derives (n + 1) (.expr (.ternary blank c a b)) i r
  -- Chains of operators
  | operand
      {n : Nat} {e : Expr} {i r : List Token}
      (single : Derives n (.unary e) i r) :
      Derives n (.chain [] e) i r
  | chain
      {n : Nat} {level : Level} {tighter : List Level} {left e : Expr} {i j r : List Token}
      (first : Derives n (.chain tighter left) i j)
      (others : Derives n (.operators level tighter left e) j r) :
      Derives n (.chain (level :: tighter) e) i r
  | operatorsEnd
      {n : Nat} {level : Level} {tighter : List Level} {e : Expr} {i : List Token} :
      Derives n (.operators level tighter e e) i i
  | operator
      {n : Nat} {level : Level} {tighter : List Level} {left right e : Expr}
      {text : String} {op : BinaryOp} {t : Token} {i j r : List Token}
      (ofLevel : (text, op) ∈ level)
      (isOperator : t.isSymbol text = true)
      (next : Derives n (.chain tighter right) i j)
      (others : Derives n (.operators level tighter (.binary blank op left right) e) j r) :
      Derives n (.operators level tighter left e) (t :: i) r
  -- Operators in front
  | prefixed
      {n : Nat} {ops : List UnaryOp} {signs : List Token} {e : Expr} {i r : List Token}
      (areSigns : signs.map Parser.prefixOf? = ops.map some)
      (separate : ops.getLast? = some .neg → negatable? i = none)
      (inner : Derives n (.member e) i r) :
      Derives n (.unary (prefixed ops e)) (signs ++ i) r
  | negative
      {n : Nat} {ops : List UnaryOp} {signs : List Token} {minus digits : Token} {k : Nat}
      {r : List Token}
      (areSigns : signs.map Parser.prefixOf? = ops.map some)
      (isMinus : Parser.prefixOf? minus = some .neg)
      (isInteger : negatable? (digits :: r) = some k)
      (inRange : InIntRange (-(k : Int))) :
      Derives n (.unary (prefixed ops (.literal blank (.int (-(k : Int))))))
        (signs ++ minus :: digits :: r) r
  -- Fields, indices and calls after an expression
  | member
      {n : Nat} {inner e : Expr} {i j r : List Token}
      (first : Derives n (.primary inner) i j)
      (others : Derives n (.postfixes inner e) j r) :
      Derives n (.member e) i r
  | postfixesEnd
      {n : Nat} {e : Expr} {i : List Token} :
      Derives n (.postfixes e e) i i
  | field
      {n : Nat} {inner e : Expr} {dot name : Token} {i r : List Token}
      (isDot : dot.isSymbol "." = true)
      (isName : name.isIdent = true)
      (noCall : startsWith "(" i = false)
      (others : Derives n (.postfixes (.select blank inner name.text) e) i r) :
      Derives n (.postfixes inner e) (dot :: name :: i) r
  | method
      {n : Nat} {inner called e : Expr} {args : List Expr} {dot name paren : Token}
      {i j r : List Token}
      (isDot : dot.isSymbol "." = true)
      (isName : name.isIdent = true)
      (isOpen : paren.isSymbol "(" = true)
      (arguments : Derives n (.items ")" args) i j)
      (meaning : MethodCall name.text inner args called)
      (others : Derives n (.postfixes called e) j r) :
      Derives n (.postfixes inner e) (dot :: name :: paren :: i) r
  | index
      {n : Nat} {inner key e : Expr} {bracket close : Token} {i j r : List Token}
      (isOpen : bracket.isSymbol "[" = true)
      (inside : Derives n (.expr key) i (close :: j))
      (isClose : close.isSymbol "]" = true)
      (others : Derives n (.postfixes (.index blank inner key) e) j r) :
      Derives n (.postfixes inner e) (bracket :: i) r
  | invocation
      {n : Nat} {inner e : Expr} {args : List Expr} {paren : Token} {i j r : List Token}
      (isOpen : paren.isSymbol "(" = true)
      (arguments : Derives n (.items ")" args) i j)
      (others : Derives n (.postfixes (.invoke blank inner args) e) j r) :
      Derives n (.postfixes inner e) (paren :: i) r
  -- Innermost parts
  | literal
      {n : Nat} {t : Token} {v : Value} {r : List Token}
      (value : literalValue? t = some v) :
      Derives n (.primary (.literal blank v)) (t :: r) r
  | name
      {n : Nat} {t : Token} {r : List Token}
      (isName : t.isIdent = true)
      (unreserved : t.text ∉ reservedWords)
      (noCall : startsWith "(" r = false) :
      Derives n (.primary (.ident blank t.text)) (t :: r) r
  | call
      {n : Nat} {t paren : Token} {args : List Expr} {e : Expr} {i r : List Token}
      (isName : t.isIdent = true)
      (unreserved : t.text ∉ reservedWords)
      (isOpen : paren.isSymbol "(" = true)
      (arguments : Derives n (.items ")" args) i r)
      (meaning : FunctionCall t.text args e) :
      Derives n (.primary e) (t :: paren :: i) r
  | group
      {n : Nat} {paren close : Token} {e : Expr} {i r : List Token}
      (isOpen : paren.isSymbol "(" = true)
      (inside : Derives n (.expr e) i (close :: r))
      (isClose : close.isSymbol ")" = true) :
      Derives n (.primary e) (paren :: i) r
  | list
      {n : Nat} {bracket : Token} {es : List Expr} {i r : List Token}
      (isOpen : bracket.isSymbol "[" = true)
      (inside : Derives n (.items "]" es) i r) :
      Derives n (.primary (.list blank es)) (bracket :: i) r
  | map
      {n : Nat} {brace : Token} {kvs : List (Expr × Expr)} {i r : List Token}
      (isOpen : brace.isSymbol "\x7b" = true)
      (inside : Derives n (.entries kvs) i r) :
      Derives n (.primary (.map blank kvs)) (brace :: i) r
  -- Arguments, items and entries
  | itemsEnd
      {n : Nat} {close : String} {t : Token} {r : List Token}
      (isClose : t.isSymbol close = true) :
      Derives n (.items close []) (t :: r) r
  | lastItem
      {n : Nat} {close : String} {e : Expr} {t : Token} {i r : List Token}
      (inside : Derives n (.expr e) i (t :: r))
      (isClose : t.isSymbol close = true) :
      Derives n (.items close [e]) i r
  | item
      {n : Nat} {close : String} {e : Expr} {es : List Expr} {comma : Token} {i j r : List Token}
      (first : Derives n (.expr e) i (comma :: j))
      (isComma : comma.isSymbol "," = true)
      (others : Derives n (.items close es) j r) :
      Derives n (.items close (e :: es)) i r
  | entriesEnd
      {n : Nat} {t : Token} {r : List Token}
      (isClose : t.isSymbol "\x7d" = true) :
      Derives n (.entries []) (t :: r) r
  | lastEntry
      {n : Nat} {k v : Expr} {colon t : Token} {i j r : List Token}
      (key : Derives n (.expr k) i (colon :: j))
      (isColon : colon.isSymbol ":" = true)
      (value : Derives n (.expr v) j (t :: r))
      (isClose : t.isSymbol "\x7d" = true) :
      Derives n (.entries [(k, v)]) i r
  | entry
      {n : Nat} {k v : Expr} {kvs : List (Expr × Expr)} {colon comma : Token}
      {i j l r : List Token}
      (key : Derives n (.expr k) i (colon :: j))
      (isColon : colon.isSymbol ":" = true)
      (value : Derives n (.expr v) j (comma :: l))
      (isComma : comma.isSymbol "," = true)
      (others : Derives n (.entries kvs) l r) :
      Derives n (.entries ((k, v) :: kvs)) i r

end Grammar
end ExprLang
