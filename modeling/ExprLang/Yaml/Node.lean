import ExprLang.Yaml.Tag

/-!
# Documents as trees

A document is a tree of scalars, lists and maps.  The entries of a map with a merge key are put in
front of its own when the map is made: see `Node.ofEntries`.
-/

namespace ExprLang
namespace Yaml

/-- A document or a part of one. -/
inductive Node where
  | scalar (tag : Tag) (content : List Char)
  | list (tag : Tag) (items : List Node)
  | map (tag : Tag) (entries : List (Node × Node))
  /-- A map with a merge key whose content is neither a map nor a list of maps. -/
  | unmergeable
  /-- The collection of a name, within itself. -/
  | enclosing (name : List Char)
deriving Inhabited

namespace Node

/-- The node that stands where nothing is written. -/
def absent : Node :=
  scalar .null []

/-- The tag of a node. -/
def tag : Node → Tag
  | scalar t _ => t
  | list t _ => t
  | map t _ => t
  | unmergeable => .map
  | enclosing _ => .map

/-! ### Merging -/

/-- The entries of a node that is merged into the map of a name, or what that map becomes instead.
Merged into itself a map adds nothing; a map that holds what is merged into it has no end. -/
def entriesFor (own : Option (List Char)) : Node → Except Node (List (Node × Node))
  | map _ entries => .ok entries
  | enclosing name => if own = some name then .ok [] else .error (enclosing name)
  | _ => .error unmergeable

/-- The entries that a merge key with a content adds.  Of the maps of a list the first counts most,
and so it comes last. -/
def mergedEntries (own : Option (List Char)) : Node → Except Node (List (Node × Node))
  | list _ items => do
      let found ← items.mapM (entriesFor own)
      pure found.reverse.flatten
  | n => n.entriesFor own

/-- A map, perhaps with a name.  What is merged into it comes first, so that its own entries count
more.  Nothing is merged into what has the tag of something else. -/
def ofEntries (own : Option (List Char)) (tag : Tag) (entries : List (Node × Node)) : Node :=
  let isMerge (e : Node × Node) : Bool := e.1.tag == .merge && (tag == .map || tag == .set)
  match (entries.filter isMerge).mapM fun e => e.2.mergedEntries own with
  | .ok added => map tag (added.flatten ++ entries.filter fun e => !isMerge e)
  | .error n => n

mutual

/-- The scalar that a node stands for: a map stands for the content of the key that says so. -/
def content? : Node → Option (List Char)
  | scalar _ content => some content
  | map _ entries => entryContent? entries
  | _ => none

/-- The scalar that the entries of a map stand for. -/
def entryContent? : List (Node × Node) → Option (List Char)
  | [] => none
  | (k, n) :: rest => if k.tag = .content then content? n else entryContent? rest

end

end Node
end Yaml
end ExprLang
