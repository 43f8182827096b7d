import ExprLang.Document
import ExprLang.Text.Position
import ExprLang.Xml.Doctype

/-!
# Reading XML

`Xml.load` reads an XML text with one root element.  An element becomes the object of its attributes,
whose names get a leading `@`, and of its elements; several elements of one name become an array.
The text of an element, blanks at its ends aside, is its content, or its member `#text` where it has
attributes or elements.
-/

namespace ExprLang
namespace Xml

/-! ### Tags -/

/-- The attributes of a tag, each after a blank and of a name of its own, and what follows. -/
def takeAttributes? (complete : Bool) :
    Nat → List (List Char × List Char) → List Char →
    Option (List (List Char × List Char) × List Char)
  | 0, _, _ => none
  | fuel + 1, found, cs =>
      match skipGap cs with
      | [] => none
      | c :: rest =>
          if c = '>' ∨ c = '/' then some (found, c :: rest)
          else if (cs.head?.map isGap).getD false then do
            let (name, rest) ← takeName? (c :: rest)
            match skipGap rest with
            | '=' :: rest => do
                let (literal, rest) ← takeLiteral? (skipGap rest)
                let content ← attributeText? complete (literal.length + 1) literal
                if Assoc.has (· == ·) name found then none
                else takeAttributes? complete fuel (found ++ [(name, content)]) rest
            | _ => none
          else none

/-- The members that attributes become. -/
def attributeMembers (attributes : List (List Char × List Char)) : List (String × Document) :=
  attributes.map fun (name, content) =>
    (String.ofList ('@' :: name), .string (String.ofList content))

/-! ### Elements -/

/-- Adds an element to the members of an object; a further one of the same name makes an array. -/
def pushMember (members : List (String × Document)) (name : String) (d : Document) :
    List (String × Document) :=
  match Assoc.find? (· == ·) name members with
  | none => members ++ [(name, d)]
  | some (.array items) => Assoc.put (· == ·) name (.array (items ++ [d])) members
  | some first => Assoc.put (· == ·) name (.array [first, d]) members

/-- The content of an element with the given members and text. -/
def contentOf (members : List (String × Document)) (text : List Char) : Document :=
  let text := Text.strip text
  if members.isEmpty then
    if text.isEmpty then .null else .string (String.ofList text)
  else if text.isEmpty then .object members
  else .object (pushMember members "#text" (.string (String.ofList text)))

mutual

/-- The element after `<`, and what follows it. -/
def element? (d : Doctype) : Nat → List Char → Option (List Char × Document × List Char)
  | 0, _ => none
  | fuel + 1, cs => do
      let (name, rest) ← takeName? cs
      let (given, rest) ← takeAttributes? d.complete (rest.length + 1) [] rest
      let attributes := attributeMembers (d.complement name given)
      match rest with
      | '/' :: '>' :: rest => some (name, contentOf attributes [], rest)
      | '>' :: rest => do
          let (members, text, rest) ← content? d fuel attributes rest
          let (closing, rest) ← takeName? rest
          match skipGap rest with
          | '>' :: rest =>
              if closing = name then some (name, contentOf members text, rest) else none
          | _ => none
      | _ => none

/-- The members and the text of an element up to its closing tag, and what follows `</`. -/
def content? (d : Doctype) : Nat → List (String × Document) → List Char →
    Option (List (String × Document) × List Char × List Char)
  | 0, _, _ => none
  | fuel + 1, members, cs =>
      let onwards (piece rest : List Char) :
          Option (List (String × Document) × List Char × List Char) :=
        (content? d fuel members rest).map fun (members, text, rest) =>
          (members, piece ++ text, rest)
      match cs with
      | '<' :: '/' :: rest => some (members, [], rest)
      | '<' :: '!' :: '-' :: '-' :: rest => do onwards [] (← skipComment? rest)
      | '<' :: '?' :: rest => do onwards [] (← skipInstruction? rest)
      | '<' :: '!' :: rest =>
          if "[CDATA[".toList.isPrefixOf rest then do
            let (piece, rest) ← takeUntil? "]]>".toList (rest.drop 7)
            onwards piece rest
          else none
      | '<' :: rest => do
          let (name, found, rest) ← element? d fuel rest
          content? d fuel (pushMember members (String.ofList name) found) rest
      | '&' :: rest => do
          let (meant, rest) ← takeReference? d.complete rest
          onwards meant rest
      | c :: rest => if "]]>".toList.isPrefixOf (c :: rest) then none else onwards [c] rest
      | [] => none

end

/-- Drops blanks, comments and instructions around the root, at most `fuel` of them. -/
def skipAround : Nat → List Char → List Char
  | 0, cs => cs
  | fuel + 1, cs =>
      match skipGap cs with
      | '<' :: '!' :: '-' :: '-' :: rest =>
          match skipComment? rest with
          | some rest => skipAround fuel rest
          | none => skipGap cs
      | '<' :: '?' :: rest =>
          match skipInstruction? rest with
          | some rest => skipAround fuel rest
          | none => skipGap cs
      | rest => rest

/-! ### The declaration -/

/-- One setting of a declaration: a name and its content; nothing comes back at the end. -/
def takeSetting? (cs : List Char) : Option (Option (List Char × List Char) × List Char) :=
  match skipGap cs with
  | [] => some (none, [])
  | c :: rest =>
      if !(cs.head?.map isGap).getD false then none
      else
        let name := (c :: rest).takeWhile fun c => !isGap c && c != '='
        match skipGap ((c :: rest).dropWhile fun c => !isGap c && c != '=') with
        | '=' :: rest => do
            let (content, rest) ← takeLiteral? (skipGap rest)
            let isPlain (c : Char) : Bool := c.isAlphanum || c == '.' || c == '-' || c == '_'
            if content.all isPlain then some (some (name, content), rest) else none
        | _ => none

/-- Whether the declaration between `<?xml` and `?>` says that the text stands alone: a version comes
first, then perhaps an encoding, and last perhaps this. -/
def isStandalone? (cs : List Char) : Option Bool := do
  let (first, rest) ← takeSetting? cs
  let (version, _) ← first
  if version ≠ "version".toList then none
  else
    let (second, afterSecond) ← takeSetting? rest
    let isEncoding := (second.map fun e => e.1 == "encoding".toList).getD false
    let encoding := if isEncoding then (second.map (·.2)).getD [] else ['x']
    if !(encoding.head?.map Char.isAlpha).getD false then none
    else
      let (last, rest) ←
        if isEncoding then takeSetting? afterSecond else some (second, afterSecond)
      match last with
      | none => some false
      | some (name, content) =>
          if name ≠ "standalone".toList ∨ !(skipGap rest).isEmpty then none
          else if content = "yes".toList then some true
          else if content = "no".toList then some false
          else none

/-- What follows the declaration at the front of a text, if there is one, and whether it says that
the text stands alone. -/
def skipDeclaration? (cs : List Char) : Option (Bool × List Char) :=
  if "<?xml".toList.isPrefixOf cs && ((cs.drop 5).head?.map isGap).getD false then do
    let (declaration, rest) ← takeUntil? ['?', '>'] (cs.drop 5)
    some (← isStandalone? declaration, rest)
  else some (false, cs)

/-- The root and what follows it. -/
def root? (d : Doctype) (cs : List Char) : Option Document :=
  match skipAround cs.length cs with
  | '<' :: rest => do
      let (name, found, rest) ← element? d (cs.length + 1) rest
      if (skipAround cs.length rest).isEmpty then
        some (.object [(String.ofList name, found)])
      else none
  | _ => none

/-- Reads an XML text.  What follows a character that may not stand in it is never met. -/
def load (text : String) : Except ReadError Document := do
  let cs := Text.unifyBreaks text.toList
  let cs := if cs.head? = some '\uFEFF' then cs.drop 1 else cs
  let met := (cs.takeWhile isAllowed).length
  match skipDeclaration? (cs.take (met + 1)) with
  | none => throw .malformed
  | some (standalone, rest) =>
      let (d, rest) ← Doctype.take standalone (skipAround rest.length rest)
      if met < cs.length then throw .malformed
      match root? d rest with
      | none => throw .malformed
      | some found => pure found

end Xml
end ExprLang
