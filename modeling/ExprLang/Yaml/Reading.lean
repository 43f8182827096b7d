import ExprLang.Yaml.Node
import ExprLang.Yaml.Scalar

/-!
# Reading a document

`Node.object` gives the object that a document stands for.  Keys may be scalars of every kind, and
of two keys that are the same the later counts, in the place of the first.

A document is read level by level: the scalars in a collection belong to its own level, and the
collections in it to the next one.  So of several faults the one that is found is the least deep:
see `Fault.depth_found`.
-/

namespace ExprLang
namespace Yaml

/-! ### Faults -/

/-- What is wrong in a node, so many levels below it. -/
structure Fault where
  depth : Nat
  error : ReadError
deriving DecidableEq, Repr

/-- Of two faults the one that is found; of two on one level the first. -/
def Fault.found (a b : Fault) : Fault :=
  if b.depth < a.depth then b else a

theorem Fault.depth_found (a b : Fault) : (a.found b).depth = min a.depth b.depth := by
  unfold Fault.found
  split <;> omega

/-- A fault as it is seen from the level above. -/
def Fault.deepen (a : Fault) : Fault :=
  { a with depth := a.depth + 1 }

/-- What is malformed on the level of a node. -/
def malformedHere {α : Type} : Except Fault α :=
  .error ⟨0, .malformed⟩

/-- Two results together. -/
def both {α β : Type} (a : Except Fault α) (b : Except Fault β) : Except Fault (α × β) :=
  match a, b with
  | .ok a, .ok b => .ok (a, b)
  | .ok _, .error g => .error g
  | .error f, .ok _ => .error f
  | .error f, .error g => .error (f.found g)

/-- All results together. -/
def gather {α : Type} : List (Except Fault α) → Except Fault (List α)
  | [] => .ok []
  | a :: rest => (both a (gather rest)).map fun (a, more) => a :: more

/-! ### Meanings -/

/-- What a node stands for. -/
structure Meaning where
  object : HostObject
  /-- Whether there is a collection within itself, which has no end. -/
  endless : Bool

namespace Meaning

/-- The meaning of a list. -/
def ofItems (items : List Meaning) : Meaning :=
  ⟨.list (items.map (·.object)), items.any (·.endless)⟩

/-- The meaning of a pair. -/
def ofPair (a b : Meaning) : Meaning :=
  ⟨.tuple [a.object, b.object], a.endless || b.endless⟩

/-- The meaning of a map.  An entry that is written over counts for nothing. -/
def ofEntries (entries : List (HostObject × Meaning)) : Meaning :=
  let kept := Assoc.ofList HostObject.same entries
  ⟨.dict (kept.map fun (k, m) => (k, m.object)), kept.any (·.2.endless)⟩

end Meaning

namespace Node

/-- The meaning of a scalar. -/
def scalarMeaning (tag : Tag) (content : List Char) : Except Fault Meaning :=
  match readScalar tag content with
  | .ok a => .ok ⟨a, false⟩
  | .error e => .error ⟨0, e⟩

/-- What was read of a node, as it is seen from the collection that the node is in. -/
def asItem {α : Type} (n : Node) (found : Except Fault α) : Except Fault α :=
  if n.tag.isCollection then found.mapError Fault.deepen else found

/-- What was read of a node, as a key.  A collection cannot be a key; a key that stands for its map
elsewhere is a text. -/
def asKey (n : Node) (found : Except Fault Meaning) : Except Fault HostObject :=
  match n with
  | scalar .content content => .ok (.text (String.ofList content))
  | _ => if n.tag.isCollection then malformedHere else found.map (·.object)

mutual

/-- The meaning of a node. -/
def read : Node → Except Fault Meaning
  | scalar tag content => scalarMeaning tag content
  | list .list items => (gather (readItems items)).map .ofItems
  | list .entries items => (gather (readPairs items)).map .ofItems
  | list _ _ => malformedHere
  | map .map entries => (gather (readEntries entries)).map .ofEntries
  | map .set entries => (gather (readEntries entries)).map fun _ => ⟨.opaqueObject "set", false⟩
  | map tag entries =>
      match entryContent? entries with
      | some content =>
          if tag = .moment then .error ⟨0, .momentInMap⟩ else scalarMeaning tag content
      | none => malformedHere
  | unmergeable => malformedHere
  | enclosing _ => .ok ⟨.none, true⟩

/-- The meanings of the items of a list. -/
def readItems : List Node → List (Except Fault Meaning)
  | [] => []
  | n :: rest => n.asItem (read n) :: readItems rest

/-- The keys and the meanings of the entries of a map. -/
def readEntries : List (Node × Node) → List (Except Fault (HostObject × Meaning))
  | [] => []
  | (k, n) :: rest => both (k.asKey (read k)) (n.asItem (read n)) :: readEntries rest

/-- The items of a list of entries: each is a map of one entry. -/
def readPairs : List Node → List (Except Fault Meaning)
  | [] => []
  | map _ [(k, n)] :: rest =>
      (both (k.asItem (read k)) (n.asItem (read n))).map (fun (a, b) => .ofPair a b) ::
        readPairs rest
  | _ :: _ => [malformedHere]

end

/-- The object that a node stands for.  That there is no end to it is found last. -/
def object (n : Node) : Except ReadError HostObject :=
  match n.read with
  | .error f => .error f.error
  | .ok m => if m.endless then .error .endless else .ok m.object

end Node
end Yaml
end ExprLang
