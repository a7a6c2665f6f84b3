import DesignTree.Data.Value
import DesignTree.Text.Digit

/-! # Writing JSON

Two layouts: on one line, and with one item a line under an indentation of two spaces a level. In
the second an empty list or record stays on one line. The first escapes surrogates, so that it can
always be encoded; the second keeps them as they are.
-/

namespace DesignTree.Json

open Text

/-- What is written for a code point inside a quoted text, if it is not written as itself: quote,
backslash and the control characters have an escape. -/
def escape? (c : CodePoint) : Option String :=
  if c = '"' then some "\\\""
  else if c = '\\' then some "\\\\"
  else if c = '\n' then some "\\n"
  else if c = '\r' then some "\\r"
  else if c = '\t' then some "\\t"
  else if c = '\x08' then some "\\b"
  else if c = '\x0c' then some "\\f"
  else if c.toNat < 0x20 then some ("\\u" ++ hexPadded 4 c.toNat)
  else none

/-- A quoted text. -/
def quote (s : Text) : Text :=
  let written (c : CodePoint) : Text := match escape? c with
    | some form => form
    | none => Text.ofList [c]
  Text.join ["\"", Text.join (s.toList.map written), "\""]

/-- A quoted text with its surrogates escaped, which are no characters. -/
def quoteWhole (s : Text) : String :=
  let written (c : CodePoint) : String := match escape? c, c.toChar? with
    | some form, _ => form
    | none, some c => String.singleton c
    | none, none => "\\u" ++ hexPadded 4 c.toNat
  "\"" ++ String.join (s.toList.map written) ++ "\""

/-- A number; the values that are no finite numbers are written as words. -/
def numberText : Number → String
  | .float (.infinity negative) => if negative then "-Infinity" else "Infinity"
  | .float (.notANumber _) => "NaN"
  | n => n.text

mutual

/-- A value on one line. -/
def compact : Value → String
  | .null => "null"
  | .bool b => if b then "true" else "false"
  | .number n => numberText n
  | .text s => quoteWhole s
  | .list items => "[" ++ String.intercalate "," (compactItems items) ++ "]"
  | .record fields => "\x7b" ++ String.intercalate "," (compactFields fields) ++ "\x7d"

def compactItems : List Value → List String
  | [] => []
  | v :: rest => compact v :: compactItems rest

def compactFields : List (Text × Value) → List String
  | [] => []
  | (k, v) :: rest => (quoteWhole k ++ ":" ++ compact v) :: compactFields rest

end

/-- The start of a line at a level of indentation. -/
def newline (level : Nat) : Text := Text.ofList ('\n' :: List.replicate (2 * level) ' ')

/-- Lines at the level after `level`, commas between them, and brackets around them at `level`. -/
def block (level : Nat) (opening closing : Text) (lines : List Text) : Text :=
  let inner := newline (level + 1)
  Text.join [opening, inner, Text.intercalate ("," ++ inner) lines, newline level, closing]

mutual

/-- A value over several lines, starting at a level of indentation. -/
def indented (level : Nat) : Value → Text
  | .null => "null"
  | .bool b => if b then "true" else "false"
  | .number n => numberText n
  | .text s => quote s
  | .list [] => "[]"
  | .list items => block level "[" "]" (indentedItems (level + 1) items)
  | .record [] => "\x7b\x7d"
  | .record fields => block level "\x7b" "\x7d" (indentedFields (level + 1) fields)

def indentedItems (level : Nat) : List Value → List Text
  | [] => []
  | v :: rest => indented level v :: indentedItems level rest

def indentedFields (level : Nat) : List (Text × Value) → List Text
  | [] => []
  | (k, v) :: rest => Text.join [quote k, ": ", indented level v] :: indentedFields level rest

end

/-- A value as a document of its own. -/
def pretty (v : Value) : Text := indented 0 v

end DesignTree.Json
