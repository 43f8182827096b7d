import ExprLang.Number.FloatText
import ExprLang.Text.Quoted
import ExprLang.Time.DurationText
import ExprLang.Time.TimestampText
import ExprLang.Value.Basic

/-!
# Values as source text

`Value.print` writes a value as an expression that evaluates to it.  Strings stand between double
quotes; lists and maps stand on one line as long as it fits, else each item has a line of its own.
-/

namespace ExprLang

/-- How values are laid out: the blanks of one level of indentation, and the length up to which a
list or map stays on one line. -/
structure Layout where
  indent : Nat
  width : Int
deriving DecidableEq, Repr

/-- Two blanks and eighty columns. -/
def Layout.standard : Layout := ⟨2, 80⟩

namespace Printer

/-- The escapes that have a letter, and the characters that are escaped by themselves. -/
def letterEscape? (c : Char) : Option (List Char) :=
  if c = '\\' then some ['\\', '\\']
  else if c = '"' then some ['\\', '"']
  else if c = '\n' then some ['\\', 'n']
  else if c = '\r' then some ['\\', 'r']
  else if c = '\t' then some ['\\', 't']
  else none

/-- A character inside a string literal. -/
def quoteChar (c : Char) : List Char :=
  match letterEscape? c with
  | some escape => escape
  | none => if Text.isPrintable c then [c] else Text.Quoted.numericEscape c

/-- A string literal. -/
def quote (s : String) : String :=
  String.ofList ('"' :: s.toList.flatMap quoteChar ++ ['"'])

/-- An octet inside a literal of octets. -/
def quoteOctet (octet : UInt8) : List Char :=
  let c := Char.ofNat octet.toNat
  match letterEscape? c with
  | some escape => escape
  | none =>
      if 32 ≤ octet.toNat ∧ octet.toNat < 127 then [c]
      else '\\' :: 'x' :: Text.Quoted.hex 2 octet.toNat

/-- A literal of octets. -/
def quoteOctets (octets : List UInt8) : String :=
  String.ofList ('b' :: '"' :: octets.flatMap quoteOctet ++ ['"'])

/-- A float as an expression; what is not finite is converted from its name. -/
def printFloat (f : Float) : String :=
  match Number.extended f with
  | .undefined => "double(\"NaN\")"
  | .infinite false => "double(\"Infinity\")"
  | .infinite true => "double(\"-Infinity\")"
  | .finite _ => Number.floatText f

/-- A key as an expression. -/
def printKey : Key → String
  | .int n => Number.intText n
  | .uint n => Number.natText n ++ "u"
  | .bool b => if b then "true" else "false"
  | .string s => quote s

/-- The blanks in front of a line. -/
def margin (layout : Layout) (level : Nat) : String :=
  String.ofList (List.replicate (layout.indent * level) ' ')

/-- Whether a text has several lines. -/
def isBroken (s : String) : Bool :=
  s.toList.contains '\n'

/-- Parts between brackets: on one line if they fit, else one part to a line. -/
def block (layout : Layout) (level : Nat) (opening closing : String) (parts : List String) :
    String :=
  let oneLine := opening ++ ", ".intercalate parts ++ closing
  if (oneLine.length + layout.indent * level : Nat) ≤ layout.width ∧ !isBroken oneLine then
    oneLine
  else
    let lines := parts.map fun part => margin layout (level + 1) ++ part ++ ","
    opening ++ "\n" ++ "\n".intercalate lines ++ "\n" ++ margin layout level ++ closing

end Printer

namespace Value

open Printer

mutual

/-- A value as source text, at a level of indentation. -/
def print (layout : Layout) (level : Nat) : Value → String
  | null => "null"
  | bool b => printKey (.bool b)
  | int n => printKey (.int n)
  | uint n => printKey (.uint n)
  | float f => printFloat f
  | string s => quote s
  | bytes octets => quoteOctets octets
  | list items => block layout level "[" "]" (printItems layout (level + 1) items)
  | map entries => block layout level "\x7b" "\x7d" (printEntries layout (level + 1) entries)
  | timestamp t => "timestamp(" ++ quote t.text ++ ")"
  | duration d => "duration(" ++ quote d.text ++ ")"
  | regex pattern => "Regex(" ++ quote pattern ++ ")"
  | function name => name

/-- The items of a list as source texts. -/
def printItems (layout : Layout) (level : Nat) : List Value → List String
  | [] => []
  | v :: rest => print layout level v :: printItems layout level rest

/-- The entries of a map as source texts. -/
def printEntries (layout : Layout) (level : Nat) : List (Key × Value) → List String
  | [] => []
  | (k, v) :: rest =>
      (printKey k ++ ": " ++ print layout level v) :: printEntries layout level rest

end

end Value
end ExprLang
