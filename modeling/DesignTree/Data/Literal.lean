import DesignTree.Data.Value
import DesignTree.Text.Printable
import DesignTree.Text.Digit

/-! # Values inside messages

The text of a value in a message. A text on its own is shown as it is; inside a list or a record it
is quoted, and characters without a visible form are shown by their number.
-/

namespace DesignTree.Literal

open Text

/-- A character inside quotes. -/
def escapeChar (quote c : CodePoint) : Text :=
  if c = quote ∨ c = '\\' then Text.ofList ['\\', c]
  else if c = '\n' then "\\n"
  else if c = '\r' then "\\r"
  else if c = '\t' then "\\t"
  else if isPrintable c then Text.ofList [c]
  else if c.toNat < 0x100 then "\\x" ++ hexPadded 2 c.toNat
  else if c.toNat < 0x10000 then "\\u" ++ hexPadded 4 c.toNat
  else "\\U" ++ hexPadded 8 c.toNat

/-- A quoted text. Single quotes stand around it, unless it holds some and no double ones. -/
def quoted (s : Text) : Text :=
  let cs := s.toList
  let quote : CodePoint := if cs.contains '\'' && !cs.contains '"' then '"' else '\''
  Text.ofList [quote] ++ Text.join (cs.map (escapeChar quote)) ++ Text.ofList [quote]

mutual

/-- A value as part of a list or a record. -/
def nested : Value → Text
  | .null => "None"
  | .bool b => if b then "True" else "False"
  | .number n => n.text
  | .text s => quoted s
  | .list items => "[" ++ Text.intercalate ", " (nestedItems items) ++ "]"
  | .record fields => "\x7b" ++ Text.intercalate ", " (nestedFields fields) ++ "\x7d"

def nestedItems : List Value → List Text
  | [] => []
  | v :: rest => nested v :: nestedItems rest

def nestedFields : List (Text × Value) → List Text
  | [] => []
  | (k, v) :: rest => (quoted k ++ ": " ++ nested v) :: nestedFields rest

end

/-- A value on its own in a message. -/
def text : Value → Text
  | .text s => s
  | v => nested v

end DesignTree.Literal
