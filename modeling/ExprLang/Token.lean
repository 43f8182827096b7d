import ExprLang.Text.Position

/-!
# Tokens

A token is a piece of source text with its kind; literals carry the value that they denote.
-/

namespace ExprLang

/-- The kinds of tokens. -/
inductive TokenKind where
  | int (n : Nat)
  | uint (n : Nat)
  | float (f : Float)
  | string (s : String)
  | bytes (octets : List UInt8)
  | bool (b : Bool)
  | null
  | ident
  | operator
  | punctuation
  | endOfInput

/-- A token: its kind, its text, and where it stands. -/
structure Token where
  kind : TokenKind
  text : String
  span : Text.Span

namespace Token

/-- Whether a token is the operator or punctuation mark of the given text. -/
def isSymbol (t : Token) (text : String) : Bool :=
  match t.kind with
  | .operator => t.text = text
  | .punctuation => t.text = text
  | _ => false

/-- Whether a token is an identifier. -/
def isIdent (t : Token) : Bool :=
  match t.kind with
  | .ident => true
  | _ => false

/-- The token after the last character of a text of the given length. -/
def endOfInput (length : Nat) : Token :=
  ⟨.endOfInput, "", ⟨length, length⟩⟩

end Token

/-- Words that stand for values. -/
def valueKeywords : List String := ["true", "false", "null"]

/-- Words that no variable or function may be named. -/
def reservedWords : List String :=
  ["as", "break", "const", "continue", "else", "for", "function", "if", "import", "let", "loop",
    "package", "namespace", "return", "var", "void", "while"]

/-- Whether a character may start an identifier. -/
def isIdentStart (c : Char) : Bool :=
  c.isAlpha || c == '_'

/-- Whether a character may stand inside an identifier. -/
def isIdentPart (c : Char) : Bool :=
  c.isAlphanum || c == '_'

/-- Whether a text is an ASCII letter or underscore followed by letters, digits and underscores. -/
def isIdentifier (name : List Char) : Bool :=
  match name with
  | [] => false
  | c :: rest => isIdentStart c && rest.all isIdentPart

end ExprLang
