import ExprLang.Assoc
import ExprLang.Xml.Name

/-!
# Document type declarations

`Doctype.take` reads what stands between the declaration of an XML text and its root.  Of all that is
declared there only attributes matter: those that an element has without being given them, and those
whose blanks do not count.  A text that declares an entity is refused.
-/

namespace ExprLang
namespace Xml

/-- Why a text is not read. -/
inductive ReadError where
  | malformed
  /-- The text declares an entity. -/
  | entityDeclared
deriving DecidableEq, Repr

/-- The wording of an error. -/
def ReadError.message : ReadError → String
  | malformed => "malformed document"
  | entityDeclared => "entities are disabled"

/-- An attribute as it is declared. -/
structure DeclaredAttribute where
  element : List Char
  name : List Char
  /-- Whether its content is a sequence of words. -/
  isWords : Bool
  /-- The content where none is given. -/
  standard : Option (List Char)

/-- What is declared for a text. -/
structure Doctype where
  /-- The declared attributes in order; of one attribute only the first declaration counts. -/
  attributes : List DeclaredAttribute
  /-- Whether no entity can have been declared elsewhere. -/
  complete : Bool

/-! ### Marks -/

/-- The parts of a declaration. -/
inductive Mark where
  | name (cs : List Char)
  /-- A name with a sign for how often it occurs. -/
  | counted (cs : List Char)
  /-- A word that is no name. -/
  | word (cs : List Char)
  | keyword (cs : List Char)
  | literal (cs : List Char)
  | openGroup
  /-- The end of a group, perhaps with a sign for how often it occurs. -/
  | closeGroup (count : Option Char)
  | comma
  | bar
  | percent
  /-- The bracket that opens the declarations inside a declaration. -/
  | subset
  | finish
deriving DecidableEq

/-- Whether one of some characters, a blank or the end of the text follows. -/
def isFollowed (allowed : List Char) : List Char → Bool
  | [] => true
  | c :: _ => isGap c || allowed.contains c

/-- A sign for how often something occurs. -/
def takeCount? : List Char → Option (Char × List Char)
  | c :: rest => if c = '?' ∨ c = '*' ∨ c = '+' then some (c, rest) else none
  | [] => none

/-- A name or word at the front of a text. -/
def takeWord? (cs : List Char) : Option (Mark × List Char) :=
  let word := cs.takeWhile isNameCharacter
  let rest := cs.dropWhile isNameCharacter
  let isName := (word.head?.map isNameStart).getD false
  if isFollowed ['>', ')', ',', '|', '[', '%'] rest then
    some (if isName then .name word else .word word, rest)
  else if isName then (takeCount? rest).map fun (_, rest) => (.counted word, rest)
  else none

/-- The part of a declaration at the front of a text. -/
def takeMark? (cs : List Char) : Option (Mark × List Char) :=
  match skipGap cs with
  | [] => none
  | '>' :: rest => some (.finish, rest)
  | '[' :: rest => some (.subset, rest)
  | '(' :: rest => some (.openGroup, rest)
  | ',' :: rest => some (.comma, rest)
  | '|' :: rest => some (.bar, rest)
  | ')' :: rest =>
      match takeCount? rest with
      | some (c, rest) => some (.closeGroup (some c), rest)
      | none => if isFollowed ['>', ',', '|', ')'] rest then some (.closeGroup none, rest) else none
  | '%' :: rest => if isFollowed ['%'] rest then some (.percent, rest) else none
  | '#' :: rest => do
      let (word, rest) ← takeName? rest
      if isFollowed [')', '>', '%', '|'] rest then some (.keyword word, rest) else none
  | c :: rest =>
      if c = '"' ∨ c = '\'' then do
        let (content, rest) ← takeLiteral? (c :: rest)
        if isFollowed ['>', '%', '['] rest then some (.literal content, rest) else none
      else if isNameCharacter c then takeWord? (c :: rest)
      else none

/-- The parts of a declaration up to its end or to the declarations inside, at most `fuel` of them,
and what follows where it ends well. -/
def takeMarks : Nat → List Char → List Mark × Option (Mark × List Char)
  | 0, _ => ([], none)
  | fuel + 1, cs =>
      match takeMark? cs with
      | none => ([], none)
      | some (mark, rest) =>
          if mark = .finish ∨ mark = .subset then ([], some (mark, rest))
          else
            let (marks, last) := takeMarks fuel rest
            (mark :: marks, last)

/-! ### Declarations -/

/-- Whether a literal may name something publicly. -/
def isPublicId (cs : List Char) : Bool :=
  cs.all fun c => c.isAlphanum || " \n-'()+,./:=?;!*#@$_%".toList.contains c

/-- Whether the parts name something outside of the text. -/
def isExternal : List Mark → Bool
  | [.name word, .literal _] => word == "SYSTEM".toList
  | [.name word, .literal pub, .literal _] => word == "PUBLIC".toList && isPublicId pub
  | _ => false

/-- Whether the parts between the brackets of a content model fit; `groups` are the signs between the
items of the open groups, the innermost first. -/
def isModel (groups : List (Option Mark)) (item : Bool) : List Mark → Bool
  | [] => groups.isEmpty && !item
  | .openGroup :: rest => item && isModel (none :: groups) true rest
  | .name _ :: rest => item && isModel groups false rest
  | .counted _ :: rest => item && isModel groups false rest
  | .closeGroup _ :: rest => !item && !groups.isEmpty && isModel (groups.drop 1) false rest
  | mark :: rest =>
      match groups with
      | [] => false
      | sign :: outer =>
          !item && (mark == .comma || mark == .bar) && (sign == none || sign == some mark) &&
            isModel (some mark :: outer) true rest

/-- Whether the parts after `#PCDATA` fit: a group of names, or nothing. -/
def isMixed : List Mark → Bool
  | [.closeGroup count] => count == none || count == some '*'
  | .bar :: .name _ :: rest =>
      match rest with
      | [.closeGroup count] => count == some '*'
      | _ => isMixed rest && rest.head? == some .bar
  | _ => false

/-- Whether the parts after the name of an element declare what it holds. -/
def isContentModel : List Mark → Bool
  | [.name word] => word == "EMPTY".toList || word == "ANY".toList
  | .openGroup :: .keyword word :: rest => word == "PCDATA".toList && isMixed rest
  | .openGroup :: rest => isModel [none] true rest
  | _ => false

/-- Drops the names or words of a group after its opening bracket. -/
def dropGroup? (holds : Mark → Bool) : List Mark → Option (List Mark)
  | item :: .bar :: rest => if holds item then dropGroup? holds rest else none
  | item :: .closeGroup none :: rest => if holds item then some rest else none
  | _ => none

/-- The type of an attribute: whether it is a sequence of words, and what follows. -/
def takeType? : List Mark → Option (Bool × List Mark)
  | .openGroup :: rest =>
      (dropGroup? (fun m => match m with
        | .name _ => true
        | .word _ => true
        | _ => false) rest).map (true, ·)
  | .name word :: rest =>
      if word == "NOTATION".toList then
        match rest with
        | .openGroup :: rest =>
            (dropGroup? (fun m => match m with
              | .name _ => true
              | _ => false) rest).map (true, ·)
        | _ => none
      else if word == "CDATA".toList then some (false, rest)
      else if ["ID", "IDREF", "IDREFS", "ENTITY", "ENTITIES", "NMTOKEN", "NMTOKENS"].contains
          (String.ofList word) then some (true, rest)
      else none
  | _ => none

/-- The content of an attribute where none is given, and what follows. -/
def takeStandard? : List Mark → Option (Option (List Char) × List Mark)
  | .literal cs :: rest => some (some cs, rest)
  | .keyword word :: rest =>
      if word == "IMPLIED".toList ∨ word == "REQUIRED".toList then some (none, rest)
      else if word == "FIXED".toList then
        match rest with
        | .literal cs :: rest => some (some cs, rest)
        | _ => none
      else none
  | _ => none

/-- The words of a text with one blank between them. -/
def joinWords (cs : List Char) : List Char :=
  let trim (cs : List Char) : List Char := cs.dropWhile (· == ' ')
  let squeezed := cs.foldr (fun c rest =>
    if c = ' ' ∧ (rest.head? = some ' ' ∨ rest.isEmpty) then rest else c :: rest) []
  trim squeezed

/-- The attributes that the parts after the name of an element declare, at most `fuel` of them. -/
def takeDeclared? (complete : Bool) (element : List Char) :
    Nat → List Mark → Option (List DeclaredAttribute)
  | _, [] => some []
  | fuel + 1, .name name :: rest => do
      let (isWords, rest) ← takeType? rest
      let (standard, rest) ← takeStandard? rest
      let standard ← standard.mapM fun cs => do
        let cs ← attributeText? complete (cs.length + 1) cs
        pure (if isWords then joinWords cs else cs)
      let more ← takeDeclared? complete element fuel rest
      pure (⟨element, name, isWords, standard⟩ :: more)
  | _, _ => none

namespace Doctype

/-- What holds for a text without declarations. -/
def empty : Doctype := ⟨[], true⟩

/-- Adds a declaration, unless the attribute is declared already. -/
def declare (d : Doctype) (a : DeclaredAttribute) : Doctype :=
  if d.attributes.any fun b => b.element == a.element && b.name == a.name then d
  else { d with attributes := d.attributes ++ [a] }

/-- Whether the parts name the source of an entity, which may be no text. -/
def isEntitySource (marks : List Mark) : Bool :=
  match marks.reverse with
  | .name _ :: .name word :: rest => word == "NDATA".toList && isExternal rest.reverse
  | _ => isExternal marks

/-- Whether the declaration of an entity is told: not for a name that stands for a character, and
only when its content or its source has come; `ended` tells whether no part follows. -/
def declaresEntity (marks : List Mark) (ended : Bool) : Bool :=
  let predefined := ["lt", "gt", "amp", "quot", "apos"].map String.toList
  match marks with
  | .percent :: .name _ :: .literal _ :: _ => true
  | .percent :: .name _ :: rest => ended && isExternal rest
  | .name name :: rest =>
      !predefined.contains name &&
        match rest with
        | .literal _ :: _ => true
        | kind :: pub :: .name word :: .name kindName :: _ =>
            isEntitySource [kind, pub, .name word, .name kindName]
        | kind :: pub :: system :: .name word :: .name kindName :: _ =>
            isEntitySource [kind, pub, system, .name word, .name kindName]
        | _ => ended && isExternal rest
  | _ => false

/-- Whether a text may be the content of an entity, at most `fuel` characters of it: references are
well formed, and none to declarations elsewhere stands in it. -/
def isEntityContent : Nat → List Char → Bool
  | 0, _ => false
  | _ + 1, [] => true
  | fuel + 1, c :: rest =>
      if c = '%' then false
      else if c = '&' then
        match takeReference? false rest with
        | some (_, rest) => isEntityContent fuel rest
        | none => false
      else isEntityContent fuel rest

/-- Whether the parts after the name of a notation tell where it is defined. -/
def isNotationSource : List Mark → Bool
  | [.name word, .literal pub] =>
      word == "SYSTEM".toList || (word == "PUBLIC".toList && isPublicId pub)
  | marks => isExternal marks

/-- Takes a declaration of some kind into account. -/
def addDeclaration (d : Doctype) (processing : Bool) (kind : String) (marks : List Mark)
    (ended : Bool) : Except ReadError Doctype :=
  if kind = "ENTITY" ∧ processing ∧ declaresEntity marks ended then .error .entityDeclared
  else if !ended then .error .malformed
  else
    match kind, marks with
    | "ELEMENT", .name _ :: rest => if isContentModel rest then .ok d else .error .malformed
    | "NOTATION", .name _ :: rest => if isNotationSource rest then .ok d else .error .malformed
    | "ENTITY", .name _ :: [.literal cs] =>
        if isEntityContent (cs.length + 1) cs || !processing then .ok d else .error .malformed
    | "ENTITY", .percent :: .name _ :: [.literal _] => .ok d
    | "ENTITY", .percent :: .name _ :: rest => if isExternal rest then .ok d else .error .malformed
    | "ENTITY", .name _ :: rest =>
        if isEntitySource rest then .ok d else .error .malformed
    | "ATTLIST", .name element :: rest =>
        match takeDeclared? d.complete element (rest.length + 1) rest with
        | none => .error .malformed
        | some found => .ok (if processing then found.foldl declare d else d)
    | _, _ => .error .malformed

/-- Reads the declarations between brackets, at most `fuel` of them.  After a reference to
declarations elsewhere nothing more is taken into account, unless the text stands alone. -/
def takeSubset (standalone : Bool) : Nat → Doctype → Bool → List Char →
    Except ReadError (Doctype × List Char)
  | 0, _, _, _ => .error .malformed
  | fuel + 1, d, processing, cs =>
      match skipGap cs with
      | ']' :: rest =>
          match skipGap rest with
          | '>' :: rest => .ok (d, rest)
          | _ => .error .malformed
      | '%' :: rest =>
          match takeName? rest with
          | some (_, ';' :: rest) =>
              takeSubset standalone fuel { d with complete := standalone } standalone rest
          | _ => .error .malformed
      | '<' :: '?' :: rest =>
          match skipInstruction? rest with
          | some rest => takeSubset standalone fuel d processing rest
          | none => .error .malformed
      | '<' :: '!' :: '-' :: '-' :: rest =>
          match skipComment? rest with
          | some rest => takeSubset standalone fuel d processing rest
          | none => .error .malformed
      | '<' :: '!' :: rest =>
          let kind := String.ofList (rest.takeWhile Char.isAlpha)
          let after := rest.dropWhile Char.isAlpha
          if !isFollowed [] after then .error .malformed
          else
            let (marks, last) := takeMarks (after.length + 1) after
            match last with
            | some (.finish, rest) => do
                let d ← addDeclaration d processing kind marks true
                takeSubset standalone fuel d processing rest
            | _ => do
                let _ ← addDeclaration d processing kind marks false
                throw .malformed
      | _ => .error .malformed

/-- The name and the source of a document type. -/
def isHeader : List Mark → Bool
  | [.name _] => true
  | .name _ :: rest => isExternal rest
  | _ => false

/-- Reads the document type declaration at the front of a text, if there is one.  `standalone` tells
whether the text says that it depends on no declarations elsewhere. -/
def take (standalone : Bool) (cs : List Char) : Except ReadError (Doctype × List Char) :=
  let mark := "<!DOCTYPE".toList
  if mark.isPrefixOf cs && isFollowed [] (cs.drop mark.length) then
    let (marks, last) := takeMarks (cs.length + 1) (cs.drop mark.length)
    let d : Doctype := ⟨[], marks.length = 1 || standalone⟩
    if !isHeader marks then .error .malformed
    else
      match last with
      | some (.finish, rest) => .ok (d, rest)
      | some (.subset, rest) => takeSubset standalone (cs.length + 1) d true rest
      | _ => .error .malformed
  else .ok (empty, cs)

/-- The attributes of an element with those that it has without being given them. -/
def complement (d : Doctype) (element : List Char) (given : List (List Char × List Char)) :
    List (List Char × List Char) :=
  let declared := d.attributes.filter fun a => a.element == element
  let words := (declared.filter (·.isWords)).map (·.name)
  let given := given.map fun (name, content) =>
    (name, if words.contains name then joinWords content else content)
  given ++ declared.filterMap fun a =>
    if Assoc.has (· == ·) a.name given then none else a.standard.map fun content => (a.name, content)

end Doctype
end Xml
end ExprLang
