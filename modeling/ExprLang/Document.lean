import ExprLang.Host.Object
import ExprLang.Text.Base64
import ExprLang.Time.DurationText
import ExprLang.Time.TimestampText
import ExprLang.Value.Describe

/-!
# Documents

A document is the data that the text formats have in common: nothing, truth values, integers,
floats, texts, arrays, and objects whose members are named by text.

* `Value.toDocument` projects a value.  Every key becomes text, so two keys of a map may collide;
  then there is no projection.
* `HostObject.readValue` maps what was read from a text back to a value.
-/

namespace ExprLang

/-- The data that text formats hold. -/
inductive Document where
  | null
  | bool (b : Bool)
  | int (n : Int)
  | float (f : Float)
  | string (s : String)
  | array (items : List Document)
  | object (members : List (String × Document))
deriving Inhabited

/-- Why a value has no document, or a document no value. -/
inductive ProjectionError where
  | keyCollision (name : String)
  | functionReference (name : String)
  | integerOutOfRange (n : Int)
  | unmapped (typeName : String)
deriving DecidableEq, Repr

/-- The wording of an error. -/
def ProjectionError.message : ProjectionError → String
  | keyCollision name => "map keys collide as object key '" ++ name ++ "'"
  | functionReference name => "function reference '" ++ name ++ "' has no JSON representation"
  | integerOutOfRange n => "integer " ++ Number.intText n ++ " is out of range"
  | unmapped typeName => "cannot map " ++ typeName ++ " to a value"

/-- The name of the member that a key becomes. -/
def Key.memberName : Key → String
  | .string s => s
  | .bool b => if b then "true" else "false"
  | .int n => Number.intText n
  | .uint n => Number.natText n

namespace Document

/-- The document of a float: one that is not finite is shown by its name. -/
def ofFloat (f : Float) : Document :=
  if Number.isUndefined f then string "NaN"
  else if Number.isInfinite f then string (if Number.signBit f then "-Infinity" else "Infinity")
  else float f

mutual

/-- The members of every object in the order of their names. -/
def sorted : Document → Document
  | array items => array (sortedItems items)
  | object members => object ((sortedMembers members).mergeSort fun a b => !(b.1 < a.1))
  | d => d

/-- The items of an array, each of them sorted. -/
def sortedItems : List Document → List Document
  | [] => []
  | d :: rest => d.sorted :: sortedItems rest

/-- The members of an object where they stand, each of them sorted. -/
def sortedMembers : List (String × Document) → List (String × Document)
  | [] => []
  | (name, d) :: rest => (name, d.sorted) :: sortedMembers rest

end

mutual

/-- How deeply a document is nested. -/
def depth : Document → Nat
  | .array items => depthItems items + 1
  | .object members => depthMembers members + 1
  | _ => 0

/-- How deeply the items of an array are nested. -/
def depthItems : List Document → Nat
  | [] => 0
  | d :: rest => max d.depth (depthItems rest)

/-- How deeply the members of an object are nested. -/
def depthMembers : List (String × Document) → Nat
  | [] => 0
  | (_, d) :: rest => max d.depth (depthMembers rest)

end

mutual

/-- A document as host programs show it. -/
def describe : Document → String
  | null => "None"
  | bool b => Value.describeBool b
  | int n => Number.intText n
  | float f => Number.floatText f
  | string s => Text.Quoted.text s
  | array items => Value.describeList (describeItems items)
  | object members => "\x7b" ++ ", ".intercalate (describeMembers members) ++ "\x7d"

/-- The items of an array as host programs show them. -/
def describeItems : List Document → List String
  | [] => []
  | d :: rest => d.describe :: describeItems rest

/-- The members of an object as host programs show them. -/
def describeMembers : List (String × Document) → List String
  | [] => []
  | (name, d) :: rest => (Text.Quoted.text name ++ ": " ++ d.describe) :: describeMembers rest

end

/-- A document as text: a string stands for itself. -/
def shownText : Document → String
  | string s => s
  | d => d.describe

/-- The name that the host has for the type of a document. -/
def typeName : Document → String
  | null => "NoneType"
  | bool _ => "bool"
  | int _ => "int"
  | float _ => "float"
  | string _ => "str"
  | array _ => "list"
  | object _ => "dict"

mutual

/-- The object that holds a document. -/
def toHost : Document → HostObject
  | null => .none
  | bool b => .bool b
  | int n => .int n
  | float f => .float f
  | string s => .text s
  | array items => .list (toHostItems items)
  | object members => .dict (toHostMembers members)

/-- The objects that hold the items of an array. -/
def toHostItems : List Document → List HostObject
  | [] => []
  | d :: rest => d.toHost :: toHostItems rest

/-- The entries that hold the members of an object. -/
def toHostMembers : List (String × Document) → List (HostObject × HostObject)
  | [] => []
  | (name, d) :: rest => (.text name, d.toHost) :: toHostMembers rest

end

end Document

namespace Value

mutual

/-- Projects a value onto a document.  Octets are written in Base64, times and patterns as text. -/
def toDocument : Value → Except ProjectionError Document
  | null => .ok .null
  | bool b => .ok (.bool b)
  | int n => .ok (.int n)
  | uint n => .ok (.int n)
  | float f => .ok (Document.ofFloat f)
  | string s => .ok (.string s)
  | bytes octets => .ok (.string (String.ofList (Text.Base64.encode octets)))
  | list items => do pure (.array (← toDocuments items))
  | map entries => do pure (.object (← toMembers [] entries))
  | timestamp t => .ok (.string t.text)
  | duration d => .ok (.string d.text)
  | regex pattern => .ok (.string pattern)
  | function name => .error (.functionReference name)

/-- The documents of the items of a list. -/
def toDocuments : List Value → Except ProjectionError (List Document)
  | [] => .ok []
  | v :: rest => do
      let d ← toDocument v
      let ds ← toDocuments rest
      pure (d :: ds)

/-- The members that the entries of a map become; `taken` are the names of those before. -/
def toMembers (taken : List String) :
    List (Key × Value) → Except ProjectionError (List (String × Document))
  | [] => .ok []
  | (k, v) :: rest =>
      if taken.contains k.memberName then
        .error (.keyCollision k.memberName)
      else do
        let d ← toDocument v
        let members ← toMembers (k.memberName :: taken) rest
        pure ((k.memberName, d) :: members)

end

end Value

namespace HostObject

mutual

/-- The value of an object that was read from a text.  Integers that are too large to be signed are
unsigned, and keys become text; of two keys with one text the later wins. -/
def readValue : HostObject → Except ProjectionError Value
  | none => .ok .null
  | bool b => .ok (.bool b)
  | int n =>
      if InIntRange n then .ok (.int n)
      else if InUIntRange n then .ok (.uint n.toNat)
      else .error (.integerOutOfRange n)
  | float f => .ok (.float f)
  | text s => .ok (.string s)
  | list items => do pure (.list (← readValues items))
  | tuple items => do pure (.list (← readValues items))
  | dict entries => do pure (.map (← readEntries [] entries))
  | octets _ => .error (.unmapped "bytes")
  | timestamp _ => .error (.unmapped "datetime")
  | localTime _ => .error (.unmapped "datetime")
  | date _ => .error (.unmapped "date")
  | duration _ => .error (.unmapped "timedelta")
  | pattern _ => .error (.unmapped "Pattern")
  | opaqueObject name => .error (.unmapped name)
  | value v => .error (.unmapped (variantName v))

/-- The values of a sequence of objects. -/
def readValues : List HostObject → Except ProjectionError (List Value)
  | [] => .ok []
  | a :: rest => do
      let v ← readValue a
      let vs ← readValues rest
      pure (v :: vs)

/-- Writes the entries of a dictionary into a map, one after another. -/
def readEntries (entries : List (Key × Value)) :
    List (HostObject × HostObject) → Except ProjectionError (List (Key × Value))
  | [] => .ok entries
  | (k, a) :: rest => do
      let v ← readValue a
      readEntries (Value.putEntry entries (.string k.shownText) v) rest

end

mutual

/-- Writes dates as text, and names the entries of dictionaries by text. -/
def plain : HostObject → HostObject
  | list items => list (plainItems items)
  | dict entries => dict (plainEntries [] entries)
  | timestamp t => text t.text
  | localTime t => text (t.date.text ++ "T" ++ t.clock.text)
  | date d => text d.text
  | o => o

/-- Makes every object of a list plain. -/
def plainItems : List HostObject → List HostObject
  | [] => []
  | a :: rest => a.plain :: plainItems rest

/-- Writes plain entries into a dictionary, one after another. -/
def plainEntries (entries : List (HostObject × HostObject)) :
    List (HostObject × HostObject) → List (HostObject × HostObject)
  | [] => entries
  | (k, a) :: rest => plainEntries (putEntry entries (text k.shownText) a.plain) rest

end

end HostObject

/-- The value of a document. -/
def Document.toValue (d : Document) : Except ProjectionError Value :=
  d.toHost.readValue

end ExprLang
