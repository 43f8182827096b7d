import Mathlib.Data.List.TakeWhile
import ExprLang.Proofs.FloatSign
import ExprLang.Proofs.PrintedText
import ExprLang.Proofs.Subtrees

/-!
# Trees that were read from source

Not every tree is read from some source: names are identifiers, literals have no sign that belongs
to the notation of another node, and calls lay their conditions on their arguments.  Scanning gives
lawful tokens, and each rule of the grammar makes lawful tokens into nodes of such trees.

* `FromSource`: what holds of a node that was read.
* `lawful_scanFrom`: the tokens of a text are lawful.
* `fromSource_of_derives`, `fromSource_of_parse`: every node of a tree that was read is such a node.
-/

namespace ExprLang

/-! ### Tokens -/

namespace Lexer

open Grammar (IsField)
open Literal (Item)

/-- What a text has to be for a token of a kind to have it: names are identifiers, and floats have
no sign. -/
def LawfulText (text : List Char) : TokenKind → Prop
  | .ident => IsField (String.ofList text)
  | .float f => Number.IsUnsigned f
  | _ => True

/-- Whether a token is one that scanning may give. -/
def Lawful (t : Token) : Prop :=
  LawfulText t.text.toList t.kind

/-- Whether the token of an item, if there is one, is lawful; `cs` is the text that starts with the
item. -/
def LawfulItem (cs : List Char) (item : Item) : Prop :=
  ∀ kind ∈ item.kind, LawfulText (cs.take item.length) kind

section Items

variable {pos : Nat} {c : Char} {cs rest : List Char}

theorem lawfulItem_integerItem
    (length value : Nat) :
    LawfulItem cs (Literal.integerItem length value rest) := by
  unfold Literal.integerItem
  split <;> rintro kind ⟨⟩ <;> trivial

theorem lawfulItem_scanHex
    (digits : List Char) :
    LawfulItem cs (Literal.scanHex pos digits) := by
  unfold Literal.scanHex
  dsimp only
  split
  · nofun
  · exact lawfulItem_integerItem _ _

/-- The float of a number without a sign has none. -/
theorem lawfulItem_scanDecimal
    (digits : List Char) :
    LawfulItem cs (Literal.scanDecimal pos digits) := by
  unfold Literal.scanDecimal
  dsimp only
  split
  · rintro kind ⟨⟩
    cases read : Number.readDecimal? _ with
    | none => exact Number.isUnsigned_ofScientific 0 true 1
    | some f => exact Number.isUnsigned_readDecimal? read
  split
  · nofun
  · exact lawfulItem_integerItem _ _

theorem lawfulItem_scanNumber
    (digits : List Char) :
    LawfulItem cs (Literal.scanNumber pos digits) := by
  unfold Literal.scanNumber
  split
  · split
    · exact lawfulItem_scanHex _
    · exact lawfulItem_scanDecimal _
  · exact lawfulItem_scanDecimal _

theorem lawfulItem_scanString
    (o : Literal.Opening)
    (text : List Char) :
    LawfulItem cs (Literal.scanString pos o text) := by
  unfold Literal.scanString
  dsimp only
  rintro kind ⟨⟩
  split <;> trivial

/-- A word is an identifier, unless it is a keyword. -/
theorem lawfulText_wordKind
    {word : List Char}
    (start : isIdentStart c = true)
    (parts : ∀ d ∈ word, isIdentPart d = true) :
    LawfulText (c :: word) (wordKind (c :: word)) := by
  generalize isKind : wordKind (c :: word) = kind
  cases kind with
  | ident =>
      refine ⟨?_, by rw [String.toList_ofList]; exact isKind⟩
      rw [String.toList_ofList]
      simpa [isIdentifier, start] using parts
  | float f =>
      unfold wordKind at isKind
      split at isKind <;> cases isKind
  | _ => trivial

theorem lawfulItem_word
    (start : isIdentStart c = true) :
    LawfulItem (c :: rest)
      (.good ((c :: rest).takeWhile isIdentPart).length
        (wordKind ((c :: rest).takeWhile isIdentPart))) := by
  rintro kind ⟨⟩
  have word : (c :: rest).take ((c :: rest).takeWhile isIdentPart).length =
      (c :: rest).takeWhile isIdentPart :=
    (List.prefix_iff_eq_take.mp (List.takeWhile_prefix _)).symm
  have first : (c :: rest).takeWhile isIdentPart = c :: rest.takeWhile isIdentPart := by
    simp [isIdentPart_of_isIdentStart start]
  simp only [Item.good]
  rw [word, first]
  exact lawfulText_wordKind start fun d member => List.mem_takeWhile_imp member

theorem lawfulItem_scanSymbol
    (text : List Char) :
    LawfulItem cs (scanSymbol pos c text) := by
  unfold scanSymbol
  split
  · rintro kind ⟨⟩
    trivial
  split
  · rintro kind ⟨⟩
    trivial
  · nofun

theorem lawfulItem_scanItem : LawfulItem (c :: rest) (scanItem pos c rest) := by
  unfold scanItem
  dsimp only
  split
  · nofun
  split
  · nofun
  split
  · exact lawfulItem_scanNumber _
  split
  · exact lawfulItem_scanString _ _
  split
  · next start => exact lawfulItem_word start
  · exact lawfulItem_scanSymbol _

end Items

/-- The tokens of a text are lawful. -/
theorem lawful_scanFrom
    (pos skip : Nat)
    (cs : List Char) :
    ∀ t ∈ (scanFrom pos skip cs).tokens, Lawful t := by
  induction cs generalizing pos skip with
  | nil =>
      rw [scanFrom]
      exact List.forall_mem_nil _
  | cons c rest ih =>
      cases skip with
      | succ skip => exact ih _ _
      | zero =>
          have lawful : LawfulItem (c :: rest) (scanItem pos c rest) := lawfulItem_scanItem
          rw [scanFrom]
          dsimp only [Scan.push]
          split
          · next kind isKind =>
              refine List.forall_mem_cons.mpr ⟨?_, ih _ _⟩
              simpa [Lawful] using lawful kind isKind
          · exact ih _ _

end Lexer

/-! ### Nodes -/

namespace Expr

/-- Literals that a token stands for, perhaps with a minus sign before an integer. -/
def IsSourceLiteral : Value → Prop
  | .int n => InIntRange n
  | .uint n => n ≤ maxUInt
  | .float f => Number.IsUnsigned f
  | .string _ | .bytes _ | .bool _ | .null => True
  | _ => False

/-- What holds of a node that was read. -/
def FromSource : Expr → Prop
  | literal _ v => IsSourceLiteral v
  | ident _ name | localRef _ name => Grammar.IsName name
  | select _ _ field => Grammar.IsField field
  | call _ function none _ => Grammar.IsName function ∧ function ≠ "has"
  | call _ function (some _) args =>
      Grammar.IsField function ∧
        (Comprehension.ofName? function = none ∨ (args.length ≠ 2 ∧ args.length ≠ 3))
  | has _ access => access.isAccess = true
  | comprehension _ kind _ names guard _ =>
      (∀ name ∈ names, Grammar.IsName name) ∧ names.Nodup ∧
        match guard with
        | none => names.length = 1 ∨ names.length = 2
        | some e => kind = .map ∧ names.length = 1 ∧ e.occurrenceName? = none
  | _ => True

@[simp] theorem occurrenceName?_bindLocals
    (names : List String)
    (e : Expr) :
    (bindLocals names e).occurrenceName? = e.occurrenceName? := by
  cases e with
  | ident _ name => by_cases h : name ∈ names <;> simp [bindLocals, occurrenceName?, h]
  | _ => rfl

@[simp] theorem isAccess_bindLocals
    (names : List String)
    (e : Expr) :
    (bindLocals names e).isAccess = e.isAccess := by
  cases e with
  | ident _ name => by_cases h : name ∈ names <;> simp [bindLocals, isAccess, h]
  | _ => rfl

@[simp] theorem occurrenceName?_erase
    (e : Expr) :
    e.erase.occurrenceName? = e.occurrenceName? := by
  cases e <;> simp [occurrenceName?]

theorem FromSource.bindLocals
    {e : Expr}
    (h : FromSource e)
    (names : List String) :
    FromSource (bindLocals names e) := by
  cases e with
  | ident _ name => by_cases bound : name ∈ names <;> simpa [Expr.bindLocals, bound, FromSource] using h
  | call _ _ target args =>
      cases target <;> simpa [Expr.bindLocals, bindOption, FromSource, bindItems_eq_map] using h
  | comprehension _ _ _ _ guard _ =>
      cases guard <;> simpa [Expr.bindLocals, bindOption, FromSource] using h
  | has _ access => simpa [Expr.bindLocals, FromSource] using h
  | _ => exact h

theorem fromSource_erase
    (e : Expr) :
    FromSource e.erase ↔ FromSource e := by
  cases e with
  | call _ _ target args => cases target <;> simp [FromSource]
  | comprehension _ _ _ _ guard _ => cases guard <;> simp [FromSource]
  | _ => simp [FromSource]

theorem everywhere_fromSource_bindLocals
    {e : Expr}
    (h : Everywhere FromSource e)
    (names : List String) :
    Everywhere FromSource (bindLocals names e) :=
  (everywhere_map_iff (keepsShape_bindLocals names)).mpr (h.mono fun _ hx => hx.bindLocals names)

end Expr

/-! ### Derivations -/

namespace Grammar

open ExprLang.Expr (Everywhere FromSource everywhere_iff blank WellScoped)
open Lexer (Lawful)

theorem isField_of_lawful
    {t : Token}
    (lawful : Lawful t)
    (isIdent : t.isIdent = true) :
    IsField t.text := by
  obtain ⟨kind, text, span⟩ := t
  cases kind with
  | ident => simpa [Lawful, Lexer.LawfulText] using lawful
  | _ => cases isIdent

theorem isName_of_lawful
    {t : Token}
    (lawful : Lawful t)
    (isIdent : t.isIdent = true)
    (unreserved : t.text ∉ reservedWords) :
    IsName t.text :=
  ⟨isField_of_lawful lawful isIdent, unreserved⟩

theorem isSourceLiteral_of_lawful
    {t : Token} {v : Value}
    (lawful : Lawful t)
    (value : literalValue? t = some v) :
    Expr.IsSourceLiteral v := by
  obtain ⟨kind, text, span⟩ := t
  cases kind with
  | int n =>
      simp only [literalValue?, Option.ite_none_right_eq_some, Option.some.injEq] at value
      obtain ⟨inRange, rfl⟩ := value
      exact inRange
  | uint n =>
      simp only [literalValue?, Option.ite_none_right_eq_some, Option.some.injEq] at value
      obtain ⟨inRange, rfl⟩ := value
      exact inRange
  | float f =>
      cases value
      exact lawful
  | _ =>
      cases value
      try trivial

theorem fromSource_prefixed
    (ops : List UnaryOp)
    {e : Expr}
    (h : Everywhere FromSource e) :
    Everywhere FromSource (prefixed ops e) := by
  induction ops with
  | nil => exact h
  | cons op ops ih =>
      exact everywhere_iff.mpr ⟨trivial, fun c child => List.mem_singleton.mp child ▸ ih⟩

theorem fromSource_functionCall
    {name : String} {args : List Expr} {e : Expr}
    (isName : IsName name)
    (meaning : FunctionCall name args e)
    (hargs : ∀ arg ∈ args, Everywhere FromSource arg) :
    Everywhere FromSource e := by
  cases meaning with
  | presence isAccess =>
      exact everywhere_iff.mpr ⟨isAccess, by simpa [Expr.children] using hargs⟩
  | call other =>
      exact everywhere_iff.mpr ⟨⟨isName, other⟩, by simpa [Expr.children] using hargs⟩

/-- The variables of a comprehension were read as names, and its guard as something else. -/
theorem fromSource_methodCall
    {name : String} {target : Expr} {args : List Expr} {e : Expr}
    (isField : IsField name)
    (meaning : MethodCall name target args e)
    (htarget : Everywhere FromSource target)
    (hargs : ∀ arg ∈ args, Everywhere FromSource arg)
    (wellScoped : ∀ arg ∈ args, WellScoped [] arg) :
    Everywhere FromSource e := by
  have isName : ∀ {x : String}, .ident blank x ∈ args → IsName x :=
    fun member => (hargs _ member).root
  have bound : ∀ {arg : Expr} (names : List String), arg ∈ args →
      Everywhere FromSource (Expr.bindLocals names arg) :=
    fun names member => Expr.everywhere_fromSource_bindLocals (hargs _ member) names
  cases meaning with
  | call other =>
      refine everywhere_iff.mpr ⟨⟨isField, other⟩, ?_⟩
      simpa [Expr.children, htarget] using hargs
  | single named =>
      refine everywhere_iff.mpr ⟨⟨?_, by simp, .inl rfl⟩, ?_⟩
      · simpa using isName (by simp)
      · simpa [Expr.children, htarget] using bound _ (by simp)
  | @pair _ _ _ x y named distinct =>
      refine everywhere_iff.mpr ⟨⟨?_, by simpa using distinct, .inr rfl⟩, ?_⟩
      · simpa using ⟨isName (x := x) (by simp), isName (x := y) (by simp)⟩
      · simpa [Expr.children, htarget] using bound _ (by simp)
  | @guarded _ guard _ _ named noName =>
      have noVariable : guard.occurrenceName? = none := by
        have fits := wellScoped guard (by simp) [] guard .root
        cases guard with
        | ident => cases noName
        | localRef => simp [Expr.Fits] at fits
        | _ => rfl
      refine everywhere_iff.mpr ⟨⟨?_, by simp, rfl, rfl, by simpa using noVariable⟩, ?_⟩
      · simpa using isName (by simp)
      · simpa [Expr.children, htarget] using ⟨bound _ (by simp), bound _ (by simp)⟩

/-- The trees of a phrase were read from source, if those were that the phrase completes. -/
def PhraseFromSource : Phrase → Prop
  | .expr e | .chain _ e | .unary e | .member e | .primary e => Everywhere FromSource e
  | .operators _ _ left e => Everywhere FromSource left → Everywhere FromSource e
  | .postfixes inner e => Everywhere FromSource inner → Everywhere FromSource e
  | .items _ es => ∀ e ∈ es, Everywhere FromSource e
  | .entries kvs => ∀ kv ∈ kvs, Everywhere FromSource kv.1 ∧ Everywhere FromSource kv.2

/-- Whether all tokens are lawful. -/
def AllLawful (i : List Token) : Prop :=
  ∀ t ∈ i, Lawful t

section AllLawful

variable {t : Token} {i r : List Token}

theorem AllLawful.head
    (h : AllLawful (t :: i)) :
    Lawful t :=
  h t List.mem_cons_self

theorem AllLawful.tail
    (h : AllLawful (t :: i)) :
    AllLawful i :=
  fun t member => h t (List.mem_cons_of_mem _ member)

/-- The tokens that a phrase leaves are lawful still. -/
theorem AllLawful.after
    {n : Nat} {p : Phrase}
    (h : AllLawful i)
    (derived : Derives n p i r) :
    AllLawful r :=
  fun t member => h t (derived.suffix.subset member)

end AllLawful

/-- A phrase of lawful tokens was read from source. -/
theorem fromSource_of_derives
    {n : Nat} {p : Phrase} {i r : List Token}
    (h : Derives n p i r) :
    AllLawful i → PhraseFromSource p := by
  induction h with
  | plain _ ih => exact ih
  | ternary condition _ ifTrue _ _ ihc iha ihb =>
      intro lawful
      have afterCondition := (lawful.after condition).tail
      have afterTrue := (afterCondition.after ifTrue).tail
      refine everywhere_iff.mpr ⟨trivial, ?_⟩
      simpa [Expr.children] using ⟨ihc lawful, iha afterCondition, ihb afterTrue⟩
  | operand _ ih => exact ih
  | chain first _ ihFirst ihOthers =>
      exact fun lawful => ihOthers (lawful.after first) (ihFirst lawful)
  | operatorsEnd => exact fun _ => id
  | operator _ _ next _ ihNext ihOthers =>
      intro lawful left
      refine ihOthers (lawful.tail.after next) (everywhere_iff.mpr ⟨trivial, ?_⟩)
      simpa [Expr.children] using ⟨left, ihNext lawful.tail⟩
  | prefixed _ _ _ ih =>
      intro lawful
      exact fromSource_prefixed _ (ih fun t member => lawful t (by simp [member]))
  | negative _ _ _ inRange =>
      exact fun _ =>
        fromSource_prefixed _ (everywhere_iff.mpr ⟨inRange, by simp [Expr.children]⟩)
  | member first _ ihFirst ihOthers =>
      exact fun lawful => ihOthers (lawful.after first) (ihFirst lawful)
  | postfixesEnd => exact fun _ => id
  | field _ isName _ _ ih =>
      intro lawful inner
      have isField := isField_of_lawful lawful.tail.head isName
      refine ih lawful.tail.tail (everywhere_iff.mpr ⟨isField, ?_⟩)
      simpa [Expr.children] using inner
  | method _ isName _ arguments meaning _ ihArguments ih =>
      intro lawful inner
      have isField := isField_of_lawful lawful.tail.head isName
      have inside := lawful.tail.tail.tail
      exact ih (inside.after arguments) (fromSource_methodCall isField meaning inner
        (ihArguments inside) (wellScoped_of_derives arguments))
  | index _ inside _ _ ihKey ih =>
      intro lawful inner
      refine ih (lawful.tail.after inside).tail (everywhere_iff.mpr ⟨trivial, ?_⟩)
      simpa [Expr.children] using ⟨inner, ihKey lawful.tail⟩
  | invocation _ arguments _ ihArguments ih =>
      intro lawful inner
      refine ih (lawful.tail.after arguments) (everywhere_iff.mpr ⟨trivial, ?_⟩)
      exact List.forall_mem_cons.mpr ⟨inner, ihArguments lawful.tail⟩
  | literal value =>
      intro lawful
      have isLiteral := isSourceLiteral_of_lawful lawful.head value
      exact everywhere_iff.mpr ⟨isLiteral, by simp [Expr.children]⟩
  | name isName unreserved _ =>
      intro lawful
      have named := isName_of_lawful lawful.head isName unreserved
      exact everywhere_iff.mpr ⟨named, by simp [Expr.children]⟩
  | call isName unreserved _ _ meaning ih =>
      intro lawful
      have named := isName_of_lawful lawful.head isName unreserved
      exact fromSource_functionCall named meaning (ih lawful.tail.tail)
  | group _ _ _ ih => exact fun lawful => ih lawful.tail
  | list _ _ ih => exact fun lawful => everywhere_iff.mpr ⟨trivial, ih lawful.tail⟩
  | map _ _ ih =>
      refine fun lawful => everywhere_iff.mpr ⟨trivial, fun c child => ?_⟩
      obtain ⟨kv, member, isPart⟩ := List.mem_flatMap.mp child
      rcases List.mem_pair.mp isPart with rfl | rfl
      · exact (ih lawful.tail kv member).1
      · exact (ih lawful.tail kv member).2
  | itemsEnd => exact fun _ => List.forall_mem_nil _
  | lastItem _ _ ih => exact fun lawful => List.forall_mem_singleton.mpr (ih lawful)
  | item first _ _ ihFirst ihOthers =>
      exact fun lawful => List.forall_mem_cons.mpr
        ⟨ihFirst lawful, ihOthers (lawful.after first).tail⟩
  | entriesEnd => exact fun _ => List.forall_mem_nil _
  | lastEntry key _ _ _ ihKey ihValue =>
      exact fun lawful => List.forall_mem_singleton.mpr
        ⟨ihKey lawful, ihValue (lawful.after key).tail⟩
  | entry key _ value _ _ ihKey ihValue ihOthers =>
      intro lawful
      have afterKey := (lawful.after key).tail
      exact List.forall_mem_cons.mpr
        ⟨⟨ihKey lawful, ihValue afterKey⟩, ihOthers (afterKey.after value).tail⟩

end Grammar

/-- Every node of a tree that is parsed was read from source. -/
theorem fromSource_of_parse
    {limit : Int} {source : List Char} {e : Expr}
    (parsed : parse limit source = .ok e) :
    Expr.Everywhere Expr.FromSource e := by
  have derived := (parse_eq_ok_iff (scan_errors_of_parse parsed) _).mp ⟨e, parsed, rfl⟩
  have inside := Grammar.fromSource_of_derives derived (Lexer.lawful_scanFrom 0 0 source)
  rw [Grammar.PhraseFromSource, Expr.everywhere_map_iff Expr.keepsShape_erase] at inside
  exact inside.mono fun x => (Expr.fromSource_erase x).mp

end ExprLang
