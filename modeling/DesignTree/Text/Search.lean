import DesignTree.Text.Basic

/-! # Parts of texts -/

namespace DesignTree.Text

/-- Whether `part` occurs in `cs` without a gap. -/
def containsList (part : List CodePoint) : List CodePoint → Bool
  | [] => part.isEmpty
  | c :: rest => part.isPrefixOf (c :: rest) || containsList part rest

/-- Whether a text occurs in another one. -/
def contains (s part : Text) : Bool := containsList part.toList s.toList

/-- Whether a text starts with another one. -/
def startsWith (s part : Text) : Bool := part.toList.isPrefixOf s.toList

/-- A text without a first part, if it starts with it. -/
def dropLeading (part cs : List CodePoint) : List CodePoint :=
  if part.isPrefixOf cs then cs.drop part.length else cs

/-- The parts of a text between the places of a character. -/
def split (c : Char) (s : Text) : List Text := (s.toList.splitOnP (· == .ofChar c)).map ofList

/-- A text in which one character stands for another. -/
def replaceChar (old new : Char) (s : Text) : Text :=
  ofList (s.toList.map fun c => if c = .ofChar old then .ofChar new else c)

/-- A text before each capital of which a character is put. -/
def markCapitals (mark : Char) (cs : List CodePoint) : List CodePoint :=
  cs.flatMap fun c : CodePoint => if 'A' ≤ c ∧ c ≤ 'Z' then [.ofChar mark, c] else [c]

end DesignTree.Text
