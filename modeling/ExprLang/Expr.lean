import ExprLang.Text.Position
import ExprLang.Value.Basic

/-!
# Expression trees

Every node carries a `Mark`: the number that identifies it within its tree, and the span of source
text that it was read from.  Variables of comprehensions are told apart from the names that the
context binds: inside the body of a comprehension its variables are `localRef` nodes, all other
names are `ident` nodes.

* `walk` lists the nodes of a tree, parents before their children.
* `bindLocals` turns free names into references to the variables of a comprehension.
-/

namespace ExprLang

/-- What identifies and locates a node. -/
structure Mark where
  id : Nat
  span : Text.Span
deriving DecidableEq, Repr, Inhabited

/-- The operators that stand before their operand. -/
inductive UnaryOp where
  | not
  | neg
deriving DecidableEq, Repr

/-- How an operator is written. -/
def UnaryOp.symbol : UnaryOp → String
  | not => "!"
  | neg => "-"

/-- The operators that stand between their operands. -/
inductive BinaryOp where
  | or
  | and
  | eq
  | ne
  | lt
  | le
  | gt
  | ge
  | isIn
  | add
  | sub
  | mul
  | div
  | mod
deriving DecidableEq, Repr

/-- How an operator is written. -/
def BinaryOp.symbol : BinaryOp → String
  | or => "||"
  | and => "&&"
  | eq => "=="
  | ne => "!="
  | lt => "<"
  | le => "<="
  | gt => ">"
  | ge => ">="
  | isIn => "in"
  | add => "+"
  | sub => "-"
  | mul => "*"
  | div => "/"
  | mod => "%"

/-- How tightly an operator binds: the loosest is one. -/
def BinaryOp.precedence : BinaryOp → Nat
  | or => 1
  | and => 2
  | eq | ne | lt | le | gt | ge | isIn => 3
  | add | sub => 4
  | mul | div | mod => 5

/-- The comprehensions over the elements of a list or a map. -/
inductive Comprehension where
  | all
  | any
  | one
  | filter
  | map
deriving DecidableEq, Repr

/-- The name of a comprehension. -/
def Comprehension.name : Comprehension → String
  | all => "all"
  | any => "exists"
  | one => "exists_one"
  | filter => "filter"
  | map => "map"

/-- The comprehension that a method name asks for. -/
def Comprehension.ofName? : String → Option Comprehension
  | "all" => some .all
  | "exists" => some .any
  | "any" => some .any
  | "exists_one" => some .one
  | "existsOne" => some .one
  | "map" => some .map
  | "filter" => some .filter
  | _ => none

/-- Expressions. -/
inductive Expr where
  | literal (mark : Mark) (value : Value)
  | ident (mark : Mark) (name : String)
  | localRef (mark : Mark) (name : String)
  | unary (mark : Mark) (op : UnaryOp) (operand : Expr)
  | binary (mark : Mark) (op : BinaryOp) (left right : Expr)
  | ternary (mark : Mark) (cond ifTrue ifFalse : Expr)
  | list (mark : Mark) (items : List Expr)
  | map (mark : Mark) (entries : List (Expr × Expr))
  | select (mark : Mark) (operand : Expr) (field : String)
  | index (mark : Mark) (operand key : Expr)
  | call (mark : Mark) (function : String) (target : Option Expr) (args : List Expr)
  | invoke (mark : Mark) (callee : Expr) (args : List Expr)
  /-- Tests whether the access that is its argument would succeed. -/
  | has (mark : Mark) (access : Expr)
  /-- Binds one or two variables to each element of the target; elements for which the guard is
  false are left out. -/
  | comprehension (mark : Mark) (kind : Comprehension) (target : Expr) (binders : List String)
      (guard : Option Expr) (body : Expr)
deriving Inhabited

namespace Expr

/-- The mark of a node. -/
def mark : Expr → Mark
  | literal m _ | ident m _ | localRef m _ | unary m _ _ | binary m _ _ _ | ternary m _ _ _
  | list m _ | map m _ | select m _ _ | index m _ _ | call m _ _ _ | invoke m _ _ | has m _
  | comprehension m _ _ _ _ _ => m

/-- The number of a node. -/
def id (e : Expr) : Nat := e.mark.id

/-- The span of a node. -/
def span (e : Expr) : Text.Span := e.mark.span

/-- The name of a node's form. -/
def form : Expr → String
  | literal .. => "Literal"
  | ident .. => "Ident"
  | localRef .. => "LocalRef"
  | unary .. => "Unary"
  | binary .. => "Binary"
  | ternary .. => "Ternary"
  | list .. => "ListExpr"
  | map .. => "MapExpr"
  | select .. => "Select"
  | index .. => "Index"
  | call .. => "Call"
  | invoke .. => "Invoke"
  | has .. => "Macro"
  | comprehension .. => "Macro"

/-- The name of an identifier. -/
def identName? : Expr → Option String
  | ident _ name => some name
  | _ => none

/-- Whether a node is a field selection or an index. -/
def isAccess : Expr → Bool
  | select .. | index .. => true
  | _ => false

/-- The direct sub-expressions of a node, in source order. -/
def children : Expr → List Expr
  | literal .. | ident .. | localRef .. => []
  | unary _ _ operand => [operand]
  | binary _ _ left right => [left, right]
  | ternary _ cond ifTrue ifFalse => [cond, ifTrue, ifFalse]
  | list _ items => items
  | map _ entries => entries.flatMap fun (k, v) => [k, v]
  | select _ operand _ => [operand]
  | index _ operand key => [operand, key]
  | call _ _ target args => target.toList ++ args
  | invoke _ callee args => callee :: args
  | has _ access => [access]
  | comprehension _ _ target _ guard body => target :: guard.toList ++ [body]

mutual

/-- The nodes of a tree, parents first, in front of a list of nodes. -/
def walkOnto : Expr → List Expr → List Expr
  | literal m value, after => literal m value :: after
  | ident m name, after => ident m name :: after
  | localRef m name, after => localRef m name :: after
  | unary m op operand, after => unary m op operand :: walkOnto operand after
  | binary m op left right, after =>
      binary m op left right :: walkOnto left (walkOnto right after)
  | ternary m cond ifTrue ifFalse, after =>
      ternary m cond ifTrue ifFalse :: walkOnto cond (walkOnto ifTrue (walkOnto ifFalse after))
  | list m items, after => list m items :: walkItemsOnto items after
  | map m entries, after => map m entries :: walkEntriesOnto entries after
  | select m operand field, after => select m operand field :: walkOnto operand after
  | index m operand key, after => index m operand key :: walkOnto operand (walkOnto key after)
  | call m function target args, after =>
      call m function target args :: walkOptionOnto target (walkItemsOnto args after)
  | invoke m callee args, after =>
      invoke m callee args :: walkOnto callee (walkItemsOnto args after)
  | has m access, after => has m access :: walkOnto access after
  | comprehension m kind target binders guard body, after =>
      comprehension m kind target binders guard body ::
        walkOnto target (walkOptionOnto guard (walkOnto body after))
termination_by structural e => e

/-- The nodes of a list of trees, in front of a list of nodes. -/
def walkItemsOnto : List Expr → List Expr → List Expr
  | [], after => after
  | e :: rest, after => walkOnto e (walkItemsOnto rest after)
termination_by structural es => es

/-- The nodes of the entries of a map, in front of a list of nodes. -/
def walkEntriesOnto : List (Expr × Expr) → List Expr → List Expr
  | [], after => after
  | (k, v) :: rest, after => walkOnto k (walkOnto v (walkEntriesOnto rest after))
termination_by structural es => es

/-- The nodes of a tree that may be missing, in front of a list of nodes. -/
def walkOptionOnto : Option Expr → List Expr → List Expr
  | none, after => after
  | some e, after => walkOnto e after
termination_by structural e => e

end

/-- The nodes of a tree, parents before their children and siblings in source order. -/
def walk (e : Expr) : List Expr :=
  walkOnto e []

mutual

/-- Turns the free names in `names` into references to variables; marks are kept. -/
def bindLocals (names : List String) : Expr → Expr
  | literal m value => literal m value
  | ident m name => if names.contains name then localRef m name else ident m name
  | localRef m name => localRef m name
  | unary m op operand => unary m op (bindLocals names operand)
  | binary m op left right => binary m op (bindLocals names left) (bindLocals names right)
  | ternary m cond ifTrue ifFalse =>
      ternary m (bindLocals names cond) (bindLocals names ifTrue) (bindLocals names ifFalse)
  | list m items => list m (bindItems names items)
  | map m entries => map m (bindEntries names entries)
  | select m operand field => select m (bindLocals names operand) field
  | index m operand key => index m (bindLocals names operand) (bindLocals names key)
  | call m function target args =>
      call m function (bindOption names target) (bindItems names args)
  | invoke m callee args => invoke m (bindLocals names callee) (bindItems names args)
  | has m access => has m (bindLocals names access)
  | comprehension m kind target binders guard body =>
      comprehension m kind (bindLocals names target) binders (bindOption names guard)
        (bindLocals names body)

/-- Binds names in a list of trees. -/
def bindItems (names : List String) : List Expr → List Expr
  | [] => []
  | e :: rest => bindLocals names e :: bindItems names rest

/-- Binds names in the entries of a map. -/
def bindEntries (names : List String) : List (Expr × Expr) → List (Expr × Expr)
  | [] => []
  | (k, v) :: rest => (bindLocals names k, bindLocals names v) :: bindEntries names rest

/-- Binds names in a tree that may be missing. -/
def bindOption (names : List String) : Option Expr → Option Expr
  | none => none
  | some e => some (bindLocals names e)

end

/-- The names that an expression takes from its context. -/
structure References where
  freeNames : List String
  functions : List String
deriving DecidableEq, Repr

/-- The name of the function that a node calls. -/
def calledName? : Expr → Option String
  | call _ function _ _ => some function
  | _ => none

/-- The names of free variables and of called functions, each once. -/
def references (e : Expr) : References where
  freeNames := (e.walk.filterMap identName?).eraseDups
  functions := (e.walk.filterMap calledName?).eraseDups

end Expr
end ExprLang
