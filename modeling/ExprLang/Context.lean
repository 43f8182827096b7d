import ExprLang.Host.Function
import ExprLang.Token

/-!
# Contexts

A scope binds variables to values and names to host functions; several functions under one name
are tried in the order in which they were registered.  A context is a chain of scopes, the
innermost first: what an inner scope binds hides what the outer ones bind under the same name.

A `ScopeTree` holds scopes that are nested in one another, each known by its number, so that many
contexts can share their outer scopes.
-/

namespace ExprLang

/-- The bindings of one scope, in the order in which they were made. -/
structure Scope where
  bindings : List (String × Value)
  functions : List (String × List HostFunction)

/-- A scope without bindings. -/
def Scope.empty : Scope := ⟨[], []⟩

instance : Inhabited Scope := ⟨.empty⟩

/-- Why a name cannot be bound. -/
inductive BindingFault where
  | notIdentifier
  | reserved
  | alreadyDefined
  | unconvertible (error : RuntimeError)

/-- A name that could not be bound. -/
structure BindingError where
  name : String
  fault : BindingFault

/-- The wording of a fault. -/
def BindingFault.reason : BindingFault → String
  | notIdentifier => "not a valid identifier"
  | reserved => "reserved word"
  | alreadyDefined => "already defined in this scope"
  | unconvertible error => error.message

/-- The wording of an error. -/
def BindingError.message (e : BindingError) : String :=
  "Cannot bind '" ++ e.name ++ "': " ++ e.fault.reason

/-- Checks that a name can be bound: an identifier that is no word of the language. -/
def checkName (name : String) : Except BindingError Unit :=
  if !isIdentifier name.toList then .error ⟨name, .notIdentifier⟩
  else if reservedWords.contains name || valueKeywords.contains name || name == "in" then
    .error ⟨name, .reserved⟩
  else .ok ()

/-- Why a function could not be added to a scope. -/
inductive FunctionFault where
  | name (error : BindingError)
  | registration (error : RegistrationError)

namespace Scope

/-- The value of a variable. -/
def valueOf? (s : Scope) (name : String) : Option Value :=
  s.bindings.lookup name

/-- The functions under a name. -/
def overloads? (s : Scope) (name : String) : Option (List HostFunction) :=
  s.functions.lookup name

/-- Binds a variable to the value of an object.  A name is bound at most once in a scope. -/
def addVariable (s : Scope) (name : String) (object : HostObject) : Except BindingError Scope := do
  checkName name
  if (s.valueOf? name).isSome then
    throw ⟨name, .alreadyDefined⟩
  match object.toValue with
  | .ok v => return { s with bindings := s.bindings ++ [(name, v)] }
  | .error e => throw ⟨name, .unconvertible e⟩

/-- Adds a function after those that are registered under its name. -/
def putFunction (s : Scope) (name : String) (f : HostFunction) : Scope :=
  { s with
    functions :=
      Assoc.put (· == ·) name ((s.overloads? name).getD [] ++ [f]) s.functions }

/-- Registers a function under a name. -/
def addFunction (s : Scope) (name : String) (signature : Signature)
    (body : CallInfo → List HostObject → HostProgram) : Except FunctionFault Scope :=
  match checkName name with
  | .error e => .error (.name e)
  | .ok () =>
      match HostFunction.register name signature body with
      | .error e => .error (.registration e)
      | .ok f => .ok (s.putFunction name f)

end Scope

/-- A chain of scopes, the innermost first. -/
abbrev Context := List Scope

namespace Context

/-- The value of a variable in the nearest scope that binds it. -/
def valueOf? (c : Context) (name : String) : Option Value :=
  c.findSome? (·.valueOf? name)

/-- The functions under a name in the nearest scope that has any. -/
def overloads? (c : Context) (name : String) : Option (List HostFunction) :=
  c.findSome? (·.overloads? name)

/-- Whether there are functions under a name. -/
def hasFunction (c : Context) (name : String) : Bool :=
  (c.overloads? name).isSome

/-- How many scopes outwards a variable is bound. -/
def ownerLevel? (c : Context) (name : String) : Option Nat :=
  c.findIdx? fun s => (s.valueOf? name).isSome

/-- Names in order, each quoted, between brackets. -/
def describeNames (names : List String) : String :=
  Value.describeList ((names.mergeSort fun a b => !(b < a)).map Text.Quoted.text)

/-- A context inside messages: the names of its innermost scope and the number of outer scopes. -/
def describe (c : Context) : String :=
  let inner := c.headD .empty
  "<Context vars=" ++ describeNames (inner.bindings.map (·.1)) ++
    " functions=" ++ describeNames (inner.functions.map (·.1)) ++
    " depth=" ++ Number.natText (c.length - 1) ++ ">"

end Context

/-- A scope of a tree, and the number of the scope around it; the root has none. -/
structure ScopeNode where
  parent : Option Nat
  scope : Scope

/-- Nested scopes; the number of a scope is its place, and a scope comes after the one around
it. -/
structure ScopeTree where
  nodes : List ScopeNode

namespace ScopeTree

/-- A tree with one scope. -/
def single (scope : Scope) : ScopeTree :=
  ⟨[⟨none, scope⟩]⟩

/-- Adds an empty scope within the scope `parent`, and gives its number. -/
def newChild (t : ScopeTree) (parent : Nat) : Nat × ScopeTree :=
  (t.nodes.length, ⟨t.nodes ++ [⟨some parent, .empty⟩]⟩)

/-- The scope around a scope. -/
def parent? (t : ScopeTree) (n : Nat) : Option Nat :=
  t.nodes[n]?.bind (·.parent)

/-- The scopes from number `n` outwards, at most `fuel` of them. -/
def chainFrom (t : ScopeTree) : Nat → Nat → Context
  | 0, _ => []
  | fuel + 1, n =>
      match t.nodes[n]? with
      | none => []
      | some node =>
          match node.parent with
          | none => [node.scope]
          | some outer => node.scope :: chainFrom t fuel outer

/-- The context of a scope: the scope and all around it. -/
def context (t : ScopeTree) (n : Nat) : Context :=
  t.chainFrom (n + 1) n

/-- Replaces a scope. -/
def setScope (t : ScopeTree) (n : Nat) (scope : Scope) : ScopeTree :=
  ⟨t.nodes.modify n fun node => { node with scope := scope }⟩

/-- A scope by its number. -/
def scope (t : ScopeTree) (n : Nat) : Scope :=
  (t.nodes[n]?.map (·.scope)).getD .empty

/-- Binds a variable in a scope. -/
def addVariable (t : ScopeTree) (n : Nat) (name : String) (object : HostObject) :
    Except BindingError ScopeTree :=
  ((t.scope n).addVariable name object).map (t.setScope n)

/-- Registers a function in a scope. -/
def addFunction (t : ScopeTree) (n : Nat) (name : String) (signature : Signature)
    (body : CallInfo → List HostObject → HostProgram) : Except FunctionFault ScopeTree :=
  ((t.scope n).addFunction name signature body).map (t.setScope n)

end ScopeTree
end ExprLang
