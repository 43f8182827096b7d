import ExprLang.Json.Parser
import ExprLang.Json.Printer
import ExprLang.Text.Utf8
import ExprLang.Toml.Parser
import ExprLang.Toml.Printer
import ExprLang.Xml.Parser
import ExprLang.Xml.Printer
import ExprLang.Yaml.Parser
import ExprLang.Yaml.Printer

/-!
# Values as texts of common formats

`Value.serialize` writes a value as JSON, YAML, TOML or XML; `Value.deserialize` reads one back.
-/

namespace ExprLang

/-- The formats that values are written in. -/
inductive TextFormat where
  | json
  | yaml
  | toml
  | xml
deriving DecidableEq, Repr

/-- The format of a name, in upper or lower case. -/
def TextFormat.ofName? (name : String) : Option TextFormat :=
  match String.ofList (name.toList.map Char.toLower) with
  | "json" => some .json
  | "yaml" => some .yaml
  | "toml" => some .toml
  | "xml" => some .xml
  | _ => none

/-- Why a value was not written or a text not read. -/
inductive SerializationError where
  | projection (error : ProjectionError)
  /-- There is no format of this name; `none` where no format was named. -/
  | unsupportedFormat (name : Option String)
  /-- The text is not of the format. -/
  | malformed (format : TextFormat)
  /-- An integer in a text has too many digits. -/
  | tooManyDigits (count : Nat)
  | yamlRead (error : Yaml.ReadError)
  | tomlRead (error : Toml.ReadError)
  | tomlWrite (error : Toml.WriteError)
  | xmlRead (error : Xml.ReadError)
  | xmlWrite (error : Xml.WriteError)

/-- The wording of an error. -/
def SerializationError.message : SerializationError → String
  | projection error => error.message
  | unsupportedFormat name =>
      "Unsupported serialization format: " ++ ((name.map Text.Quoted.text).getD "None")
  | malformed _ => "malformed document"
  | tooManyDigits count => Number.tooManyDigitsMessage count
  | yamlRead error => error.message
  | tomlRead error => error.message
  | tomlWrite error => error.message
  | xmlRead error => error.message
  | xmlWrite error => error.message

namespace Value

/-- The members that TOML and XML begin with: those of an object, or one that holds the rest. -/
def rootMembers (root : String) : Document → List (String × Document)
  | .object members => members
  | d => [(root, d)]

/-- Writes a document in a format; `root` names the root where there is none. -/
def writeDocument (pretty : Bool) (root : String) (d : Document) :
    TextFormat → Except SerializationError String
  | .json => .ok (Json.render (if pretty then .indented else .compact) d)
  | .yaml => .ok (Yaml.render pretty d)
  | .toml => (Toml.render (rootMembers root d)).mapError .tomlWrite
  | .xml =>
      (match rootMembers root d with
        | [(name, content)] => Xml.render pretty name content
        | members => Xml.render pretty root (.object members)).mapError .xmlWrite

/-- Writes a value in the format of a name. -/
def serialize (format : Option String) (pretty : Bool) (root : String) (v : Value) :
    Except SerializationError String := do
  let d ← v.toDocument.mapError .projection
  match format.bind TextFormat.ofName? with
  | none => throw (.unsupportedFormat format)
  | some format => writeDocument pretty root d format

/-- Reads a text of a format. -/
def readText (text : String) : TextFormat → Except SerializationError HostObject
  | .json =>
      match Json.parse text with
      | .ok d => .ok d.toHost
      | .error .malformed => .error (.malformed .json)
      | .error (.tooManyDigits count) => .error (.tooManyDigits count)
  | .yaml =>
      match Yaml.load text with
      | .ok found => .ok found
      | .error .malformed => .error (.malformed .yaml)
      | .error e => .error (.yamlRead e)
  | .toml =>
      match Toml.load text with
      | .ok found => .ok found
      | .error .malformed => .error (.malformed .toml)
      | .error e => .error (.tomlRead e)
  | .xml =>
      match Xml.load text with
      | .ok d => .ok d.toHost
      | .error .malformed => .error (.malformed .xml)
      | .error e => .error (.xmlRead e)

/-- Reads a text in the format of a name; without a name it is JSON. -/
def deserialize (format : Option String) (text : String) : Except SerializationError Value :=
  let name := match format with
    | none => "json"
    | some name => if name.isEmpty then "json" else name
  match TextFormat.ofName? name with
  | none => .error (.unsupportedFormat format)
  | some format => do
      let found ← readText text format
      found.plain.readValue.mapError .projection

end Value
end ExprLang
