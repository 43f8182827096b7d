import ExprLang.Config
import ExprLang.Document
import ExprLang.Yaml.Parser

/-!
# Settings from a file

A file of settings is a YAML map from the names of settings to their contents.  The contents are
kept as they are read, whatever they are; unknown names are refused.
-/

namespace ExprLang

/-- Settings as a file holds them. -/
structure Settings where
  maxNestingDepth : HostObject
  debug : HostObject
  programCacheSize : HostObject
deriving Inhabited

/-- Why a file is not read as settings. -/
inductive SettingsError where
  | yaml (error : Yaml.ReadError)
  | notMapping (path typeName : String)
  | unknownNames (path : String) (names : List String)
  /-- An unknown name is no text. -/
  | unnamed (typeName : String)
  /-- Unknown names of different types cannot be put in order. -/
  | unordered (left right : String)

/-- The wording of an error. -/
def SettingsError.message : SettingsError → String
  | yaml error => error.message
  | notMapping path typeName => path ++ ": expected a mapping, got " ++ typeName
  | unknownNames path names =>
      path ++ ": unknown configuration keys: " ++ ", ".intercalate names
  | unnamed typeName => "sequence item 0: expected str instance, " ++ typeName ++ " found"
  | unordered left right =>
      "'<' not supported between instances of '" ++ left ++ "' and '" ++ right ++ "'"

namespace Settings

/-- The settings where a file says nothing. -/
def standard : Settings :=
  let c := Config.standard
  ⟨.int c.maxNestingDepth, .bool c.debug, .int c.programCacheSize⟩

/-- Whether an object counts as an empty file. -/
def isNothing : HostObject → Bool
  | .none => true
  | .bool b => !b
  | .int n => n = 0
  | .float f => f == 0.0
  | .text s => s.isEmpty
  | .list items => items.isEmpty
  | .dict entries => entries.isEmpty
  | _ => false

/-- The names of the settings. -/
def names : List String := ["max_nesting_depth", "debug", "program_cache_size"]

/-- Whether an object is the name of a setting. -/
def isName : HostObject → Bool
  | .text s => names.contains s
  | _ => false

/-- The text that an object is. -/
def textOf? : HostObject → Option String
  | .text s => some s
  | _ => none

/-- The error about keys that name no setting; there is at least one. -/
def unknownError (path : String) (unknown : List HostObject) : SettingsError :=
  match unknown.mapM textOf? with
  | some found => .unknownNames path (found.mergeSort fun a b => !(b < a))
  | none =>
      match unknown with
      | [] => .unknownNames path []
      | first :: rest =>
          match rest.find? fun k => first.number?.isSome != k.number?.isSome with
          | some other => .unordered other.typeName first.typeName
          | none => .unnamed first.typeName

/-- What a dictionary holds under a name. -/
def find? (entries : List (HostObject × HostObject)) (name : String) : Option HostObject :=
  Assoc.find? HostObject.same (.text name) entries

/-- The settings of an object that was read from a file. -/
def ofHost (path : String) (found : HostObject) : Except SettingsError Settings :=
  if isNothing found then .ok standard
  else
    match found with
    | .dict entries =>
        let unknown := (entries.map (·.1)).filter fun k => !isName k
        if unknown.isEmpty then
          .ok {
            maxNestingDepth := (find? entries "max_nesting_depth").getD standard.maxNestingDepth
            debug := (find? entries "debug").getD standard.debug
            programCacheSize := (find? entries "program_cache_size").getD standard.programCacheSize }
        else .error (unknownError path unknown)
    | other => .error (.notMapping path other.typeName)

/-- Reads settings from the text of a file. -/
def load (path text : String) : Except SettingsError Settings := do
  let found ← (Yaml.load text).mapError .yaml
  ofHost path found

end Settings
end ExprLang
