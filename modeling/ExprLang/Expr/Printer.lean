import ExprLang.Expr
import ExprLang.Value.Printer

/-!
# Expressions as source text

`Expr.print` writes a tree as source text on one line, with parentheses where an operand binds
less tightly than its place asks for.
-/

namespace ExprLang
namespace Expr

/-- The precedence of operators in front of their operand. -/
def unaryPrecedence : Nat := 6

/-- The precedence of what needs no parentheses anywhere. -/
def primaryPrecedence : Nat := 8

/-- Whether a value prints with a minus sign in front. -/
def isNegativeLiteral : Value → Bool
  | .int n => n < 0
  | .float f => Number.isBelowZero f
  | _ => false

/-- How tightly a node binds. -/
def precedence : Expr → Nat
  | ternary .. => 0
  | binary _ op _ _ => op.precedence
  | unary .. => unaryPrecedence
  | literal _ value => if isNegativeLiteral value then unaryPrecedence else primaryPrecedence
  | _ => primaryPrecedence

/-- Puts parentheses around a text if its node binds less tightly than `minimum`. -/
def wrap (e : Expr) (minimum : Nat) (text : String) : String :=
  if e.precedence < minimum then "(" ++ text ++ ")" else text

/-- An operator in front of its operand; two minus signs are kept apart. -/
def unaryText (op : UnaryOp) (operand : String) : String :=
  match op, operand.toList with
  | .neg, '-' :: _ => op.symbol ++ "(" ++ operand ++ ")"
  | _, _ => op.symbol ++ operand

mutual

/-- A tree as source text. -/
def print : Expr → String
  | literal _ value => value.print .standard 0
  | ident _ name => name
  | localRef _ name => name
  | unary _ op operand =>
      unaryText op (wrap operand unaryPrecedence (print operand))
  | binary _ op left right =>
      wrap left op.precedence (print left) ++ " " ++ op.symbol ++ " " ++
        wrap right (op.precedence + 1) (print right)
  | ternary _ cond ifTrue ifFalse =>
      wrap cond 1 (print cond) ++ " ? " ++ print ifTrue ++ " : " ++
        print ifFalse
  | list _ items => "[" ++ ", ".intercalate (printItems items) ++ "]"
  | map _ entries => "\x7b" ++ ", ".intercalate (printEntries entries) ++ "\x7d"
  | select _ operand field =>
      wrap operand primaryPrecedence (print operand) ++ "." ++ field
  | index _ operand key =>
      wrap operand primaryPrecedence (print operand) ++
        "[" ++ print key ++ "]"
  | call _ function target args =>
      printTarget target ++ function ++ "(" ++
        ", ".intercalate (printItems args) ++ ")"
  | invoke _ callee args =>
      wrap callee primaryPrecedence (print callee) ++ "(" ++
        ", ".intercalate (printItems args) ++ ")"
  | has _ access => "has(" ++ print access ++ ")"
  | comprehension _ kind target binders guard body =>
      wrap target primaryPrecedence (print target) ++ "." ++ kind.name ++ "(" ++
        ", ".intercalate (binders ++ printGuard guard ++ [print body]) ++ ")"

/-- Expressions as source texts. -/
def printItems : List Expr → List String
  | [] => []
  | e :: rest => print e :: printItems rest

/-- The entries of a map as source texts. -/
def printEntries : List (Expr × Expr) → List String
  | [] => []
  | (k, v) :: rest =>
      (print k ++ ": " ++ print v) :: printEntries rest

/-- The target of a method call, with the point after it. -/
def printTarget : Option Expr → String
  | none => ""
  | some e => wrap e primaryPrecedence (print e) ++ "."

/-- The guard of a comprehension. -/
def printGuard : Option Expr → List String
  | none => []
  | some e => [print e]

end

end Expr
end ExprLang
