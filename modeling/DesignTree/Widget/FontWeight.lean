import DesignTree.Data.Literal
import DesignTree.Text.Blank
import DesignTree.Text.Search
import DesignTree.Decode.Scalar

/-! # Font weights

A weight comes as a number, as its digits, or as a name such as "w700" or "FontWeight.w700", and is
kept as text.
-/

namespace DesignTree.FontWeight

open Text

/-- What stands in front of the members of the weight vocabulary. -/
def qualifier : Text := "FontWeight."

/-- The digits after a letter w; other texts stay as they are. -/
def dropLetter : List CodePoint → List CodePoint
  | c :: rest => if c = 'w' && !rest.isEmpty && rest.all isDigit then rest else c :: rest
  | [] => []

/-- A weight's text without blanks around it, its vocabulary, and the letter before its digits. -/
def normalizeText (s : Text) : Text :=
  Text.ofList (dropLetter (dropLeading qualifier.toList (trimList isBlank s.toList)))

/-- A weight as text; absent and truth values stay what they are. -/
def normalize : Value → Except Problem Value
  | .null => .ok .null
  | .bool b => .ok (.bool b)
  | .number n =>
    match n.truncate? with
    | some i => .ok (.text i.repr)
    | none =>
      .error (if n.toDouble.isNaN then .weightWithoutValue else .weightBeyondNumbers)
  | v => .ok (.text (normalizeText (Literal.text v)))

/-- A weight in a document. -/
def decode (v : Value) : Decoded (Option Text) :=
  match normalize v with
  | .ok w => Decoded.nullable .text w
  | .error problem => .fail problem

/-- The font styles of weights. -/
def styles : Entries Text := [
  ("100", "Thin"), ("200", "Extra Light"), ("300", "Light"), ("400", "Regular"), ("500", "Medium"),
  ("600", "Semi Bold"), ("700", "Bold"), ("800", "Extra Bold"), ("900", "Black"),
  ("normal", "Regular"), ("bold", "Bold")]

/-- The font style for a weight; weights without a style of their own are regular. -/
def styleName (weight : Option Text) : Text := (weight.bind styles.get?).getD "Regular"

end DesignTree.FontWeight
