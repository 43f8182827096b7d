import ExprLang.Yaml.Lexer
import ExprLang.Yaml.Reading

/-!
# Reading YAML

`Yaml.load` reads a text with at most one document into an object.  Its tokens are composed to a
tree: `Composition` is how far that has come, with the nodes that were named on the way.
-/

namespace ExprLang
namespace Yaml

/-- How far a document has been composed. -/
structure Composition where
  /-- The tokens that are left. -/
  tokens : List Token
  /-- The nodes by name; one that is not finished encloses what is composed. -/
  named : List (List Char × Option Node)
  /-- What stands for the beginning of the names of tags. -/
  handles : List (List Char × List Char)

/-- A step in composing a document. -/
abbrev Compose := StateT Composition (Except ReadError)

namespace Compose

/-! ### Tokens -/

/-- The token that comes next, if there is one. -/
def next? : Compose (Option Token) := do
  match (← get).tokens with
  | [] => pure none
  | .broken e :: _ => throw e
  | t :: _ => pure (some t)

/-- Passes a token. -/
def skip : Compose Unit :=
  modify fun c => { c with tokens := c.tokens.drop 1 }

/-- Whether one of these tokens comes next. -/
def isNext (allowed : List Token) : Compose Bool := do
  pure (((← next?).map allowed.contains).getD false)

/-- Passes a token, if it comes next. -/
def accept (t : Token) : Compose Bool := do
  let here ← isNext [t]
  if here then skip
  pure here

/-- Passes a token that must come next. -/
def pass (t : Token) : Compose Unit := do
  if !(← accept t) then throw .malformed

/-! ### What is said in front of a node -/

/-- What is said about the tag of a node. -/
inductive TagMark where
  | none
  /-- A scalar has the tag of its spelling, also in quotes. -/
  | bySpelling
  | written (tag : Tag)

/-- What a name says. -/
def TagMark.ofName (name : List Char) : TagMark :=
  if name = ['!'] then bySpelling else written (Tag.ofName name)

/-- The tag of a scalar. -/
def TagMark.scalarTag (m : TagMark) (plain : Bool) (content : List Char) : Tag :=
  match m with
  | none => if plain then tagOf content else .text
  | bySpelling => tagOf content
  | written tag => tag

/-- The tag of a collection. -/
def TagMark.collectionTag (m : TagMark) (usual : Tag) : Tag :=
  match m with
  | written tag => tag
  | _ => usual

/-- What is said in front of a node. -/
structure Properties where
  name : Option (List Char)
  mark : TagMark
  /-- Whether anything is said. -/
  given : Bool

/-- What a tag says. -/
def tagMark (handle : Option (List Char)) (suffix : List Char) : Compose TagMark := do
  match handle with
  | none => pure (.ofName suffix)
  | some handle =>
      match (← get).handles.lookup handle with
      | some start => pure (.ofName (start ++ suffix))
      | none => throw .malformed

/-- What is said in front of a node: its name and its tag, in either order. -/
def properties : Compose Properties := do
  match ← next? with
  | some (.anchor name) =>
      skip
      match ← next? with
      | some (.tag handle suffix) =>
          skip
          pure ⟨some name, ← tagMark handle suffix, true⟩
      | _ => pure ⟨some name, .none, true⟩
  | some (.tag handle suffix) =>
      skip
      match ← next? with
      | some (.anchor name) =>
          skip
          pure ⟨some name, ← tagMark handle suffix, true⟩
      | _ => pure ⟨none, ← tagMark handle suffix, true⟩
  | _ => pure ⟨none, .none, false⟩

/-- Gives a name to a node.  In the node itself the name stands for what encloses it. -/
def naming (name : Option (List Char)) (body : Compose Node) : Compose Node := do
  match name with
  | none => body
  | some name =>
      if ((← get).named.lookup name).isSome then throw .malformed
      modify fun c => { c with named := (name, none) :: c.named }
      let n ← body
      modify fun c => { c with named := (name, some n) :: c.named }
      pure n

/-- The node of a name. -/
def named (name : List Char) : Compose Node := do
  match (← get).named.lookup name with
  | some n => pure (n.getD (.enclosing name))
  | none => throw .malformed

/-! ### Nodes -/

/-- What stands in a block, up to the end of it. -/
def closed {α : Type} (body : Compose α) : Compose α := do
  let a ← body
  pass .closeBlock
  pure a

mutual

/-- The node at the front of the tokens.  A block collection stands only within a block; a list
without a mark that opens it stands only as the content of a key. -/
def node (block bare : Bool) : Nat → Compose Node
  | 0 => throw .malformed
  | fuel + 1 => do
      match ← next? with
      | some (.alias name) =>
          skip
          named name
      | _ =>
          let p ← properties
          let asList (body : Compose (List Node)) : Compose Node :=
            naming p.name do pure (.list (p.mark.collectionTag .list) (← body))
          let asMap (body : Compose (List (Node × Node))) : Compose Node :=
            naming p.name do pure (.ofEntries p.name (p.mark.collectionTag .map) (← body))
          match ← next?, block, bare with
          | some .dash, _, true => asList (blockItems true fuel)
          | some (.scalar plain content), _, _ =>
              skip
              naming p.name (pure (.scalar (p.mark.scalarTag plain content) content))
          | some .openList, _, _ => asList do skip; listItems true fuel
          | some .openMap, _, _ => asMap do skip; mapEntries true fuel
          | some .openBlockList, true, _ => asList do skip; closed (blockItems false fuel)
          | some .openBlockMap, true, _ => asMap do skip; closed (blockEntries fuel)
          | _, _, _ =>
              if !p.given then throw .malformed
              naming p.name (pure (.scalar (p.mark.scalarTag true []) []))

/-- The node at the front of the tokens, unless one of the given tokens comes in its place. -/
def nodeBefore (block bare : Bool) (ends : List Token) : Nat → Compose Node
  | 0 => throw .malformed
  | fuel + 1 => do
      if ← isNext ends then pure .absent else node block bare fuel

/-- The items of a block list.  The items of a bare list may be followed by a further key. -/
def blockItems (bare : Bool) : Nat → Compose (List Node)
  | 0 => throw .malformed
  | fuel + 1 => do
      if ← accept .dash then
        let ends := if bare then [.dash, .key, .colon, .closeBlock] else [.dash, .closeBlock]
        let item ← nodeBefore true false ends fuel
        pure (item :: (← blockItems bare fuel))
      else pure []

/-- The entries of a block map. -/
def blockEntries : Nat → Compose (List (Node × Node))
  | 0 => throw .malformed
  | fuel + 1 => do
      if ← accept .key then
        let key ← nodeBefore true true [.key, .colon, .closeBlock] fuel
        let content ←
          if ← accept .colon then nodeBefore true true [.key, .colon, .closeBlock] fuel
          else pure .absent
        pure ((key, content) :: (← blockEntries fuel))
      else pure []

/-- The entry after the mark of a key between brackets or braces, up to what may end it. -/
def flowEntry (ends : List Token) : Nat → Compose (Node × Node)
  | 0 => throw .malformed
  | fuel + 1 => do
      let key ← nodeBefore false false (.colon :: ends) fuel
      let content ← if ← accept .colon then nodeBefore false false ends fuel else pure .absent
      pure (key, content)

/-- The items of a list between brackets, up to the closing one; an item may be an entry, which is
a map of its own. -/
def listItems (first : Bool) : Nat → Compose (List Node)
  | 0 => throw .malformed
  | fuel + 1 => do
      if ← accept .closeList then return []
      unless first do pass .comma
      if ← accept .closeList then return []
      let item ←
        if ← accept .key then do
          pure (.ofEntries none .map [← flowEntry [.comma, .closeList] fuel])
        else node false false fuel
      pure (item :: (← listItems false fuel))

/-- The entries of a map between braces, up to the closing one; an entry may be a key alone. -/
def mapEntries (first : Bool) : Nat → Compose (List (Node × Node))
  | 0 => throw .malformed
  | fuel + 1 => do
      if ← accept .closeMap then return []
      unless first do pass .comma
      if ← accept .closeMap then return []
      let entry ←
        if ← accept .key then flowEntry [.comma, .closeMap] fuel
        else do pure (← node false false fuel, .absent)
      pure (entry :: (← mapEntries false fuel))

end

/-! ### Documents -/

/-- The handles that stand for something where nothing is said about them. -/
def standardHandles : List (List Char × List Char) :=
  [(['!'], ['!']), (['!', '!'], Tag.nameStart)]

/-- The handles that directives set, and what follows them.  One directive may be about the version,
which must be a first one, and one about each handle. -/
def readDirectives (version : Bool) (handles : List (List Char × List Char)) :
    List Token → Except ReadError (List (List Char × List Char) × List Token)
  | .directive (.version major) :: rest =>
      if version ∨ major ≠ 1 then .error .malformed else readDirectives true handles rest
  | .directive (.tagHandle handle start) :: rest =>
      if (handles.lookup handle).isSome then .error .malformed
      else readDirectives version ((handle, start) :: handles) rest
  | .directive .other :: rest => readDirectives version handles rest
  | ts => .ok (handles, ts)

/-- Passes the directives in front of a document, and tells whether there are any. -/
def directives : Compose Bool := do
  let ts := (← get).tokens
  let (handles, rest) ← readDirectives false [] ts
  modify fun c => { c with handles := handles ++ standardHandles, tokens := rest }
  pure (rest.length != ts.length)

/-- Whether a document ends or begins here. -/
def isDocumentBound : Option Token → Bool
  | none => true
  | some .documentStart => true
  | some .documentEnd => true
  | some (.directive _) => true
  | _ => false

/-- The document at the front of the tokens.  After directives there is a mark that begins it; a
document without that mark is not empty. -/
def document (fuel : Nat) : Compose Node := do
  let directed ← directives
  if ← accept .documentStart then
    if isDocumentBound (← next?) then pure .absent else node true false fuel
  else
    if directed then throw .malformed
    node true false fuel

/-- Refuses a second document, after the directives in front of it. -/
def ending : Compose Unit := do
  modify fun c => { c with tokens := c.tokens.dropWhile (· == .documentEnd) }
  if (← next?).isSome then
    let _ ← directives
    let _ ← next?
    throw .malformed

/-- The one document of a text, if there is one. -/
def ofText (fuel : Nat) : Compose (Option Node) := do
  if (← next?).isNone then pure none
  else
    let n ← document fuel
    ending
    pure (some n)

end Compose

/-- Reads a YAML text; without a document it stands for nothing. -/
def load (text : String) : Except ReadError HostObject := do
  let ts := tokens text.toList
  let (found, _) ← (Compose.ofText (3 * ts.length + 3)).run ⟨ts, [], []⟩
  match found with
  | none => pure .none
  | some n => n.object

end Yaml
end ExprLang
