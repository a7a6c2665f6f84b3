import DesignTree.Text.Basic

/-! # Blank characters

Two sets of blanks are in use. Names, paths and colours are trimmed of white space and of the four
information separators; numbers written as text are trimmed of white space alone.
-/

namespace DesignTree.Text

/-- The characters with the Unicode property of white space. -/
def whiteSpaceRanges : List (Nat × Nat) := [
  (0x9, 0xD), (0x20, 0x20), (0x85, 0x85), (0xA0, 0xA0), (0x1680, 0x1680), (0x2000, 0x200A),
  (0x2028, 0x2029), (0x202F, 0x202F), (0x205F, 0x205F), (0x3000, 0x3000)]

/-- Whether a character is Unicode white space. -/
def isWhiteSpace (c : CodePoint) : Bool := inRanges whiteSpaceRanges c.toNat

/-- Whether a character separates words: white space or an information separator. -/
def isBlank (c : CodePoint) : Bool := isWhiteSpace c || (0x1C ≤ c.toNat && c.toNat ≤ 0x1F)

/-- What is left of `cs` without the items of a class at either end. -/
def trimList (p : α → Bool) (cs : List α) : List α :=
  ((cs.dropWhile p).reverse.dropWhile p).reverse

/-- A text without the characters of a class at either end. -/
def trimBy (p : CodePoint → Bool) (s : Text) : Text := ofList (trimList p s.toList)

/-- A text without the blanks at either end. -/
def trim (s : Text) : Text := trimBy isBlank s

/-- The longest pieces of `cs` that hold no item of the class `p`, empty ones left out. -/
def wordsBy (p : α → Bool) (cs : List α) : List (List α) :=
  (cs.splitOnP p).filter (!·.isEmpty)

/-- Every run of blanks becomes one space. -/
def squeeze : List CodePoint → List CodePoint
  | [] => []
  | c :: rest =>
    if isBlank c then
      match rest with
      | [] => [' ']
      | d :: _ => if isBlank d then squeeze rest else ' ' :: squeeze rest
    else c :: squeeze rest

end DesignTree.Text
