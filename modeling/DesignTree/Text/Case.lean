import DesignTree.Text.Basic
import DesignTree.Text.CaseTable

/-! # Lower and upper case

The full case forms of Unicode: a character may have a form of several characters, and a capital
sigma that ends a word has a lower-case form of its own.
-/

namespace DesignTree.Text

/-- The partner of `n` in one progression, if it belongs to it. -/
def CaseRange.partner? (r : CaseRange) (n : Nat) : Option Nat :=
  if r.first ≤ n ∧ n ≤ r.last ∧ (n - r.first) % r.step = 0 then some (n + r.shift).toNat else none

/-- The single-character partner of `c` in a table, or `c` itself. -/
def partner (table : List CaseRange) (c : CodePoint) : CodePoint :=
  match table.findSome? (·.partner? c.toNat) with
  | some n => .ofNat n
  | none => c

/-- The lower-case form of a character on its own. -/
def lowerChar (c : CodePoint) : List CodePoint :=
  if c = '\u0130' then ['i', '\u0307'] else [partner lowerRanges c]

/-- The upper-case form of a character. -/
def upperChar (c : CodePoint) : List CodePoint :=
  match upperExpansions.find? (·.1 == c.toNat) with
  | some form => form.2.map .ofNat
  | none => [partner upperRanges c]

/-- Whether a character is a letter that ends or continues a word. -/
def isCased (c : CodePoint) : Bool := inRanges casedRanges c.toNat

/-- Whether a character is passed over when looking for a neighbouring letter. -/
def isCaseIgnorable (c : CodePoint) : Bool := inRanges caseIgnorableRanges c.toNat

/-- Whether the next character that counts is a letter. -/
def letterFollows (cs : List CodePoint) : Bool :=
  match cs.dropWhile isCaseIgnorable with
  | [] => false
  | c :: _ => isCased c

/-- The lower-case form of `cs`, where `afterLetter` says whether a letter comes before it. -/
def lowerFrom (afterLetter : Bool) : List CodePoint → List CodePoint
  | [] => []
  | c :: rest =>
    let form : List CodePoint :=
      if c = 'Σ' then [if afterLetter && !letterFollows rest then 'ς' else 'σ'] else lowerChar c
    form ++ lowerFrom (if isCaseIgnorable c then afterLetter else isCased c) rest

/-- The lower-case form of a text. -/
def lower (s : Text) : Text := ofList (lowerFrom false s.toList)

/-- The upper-case form of a text. -/
def upper (s : Text) : Text := ofList (s.toList.flatMap upperChar)

/-- A text whose first character is in upper case. -/
def capitalizeFirst (s : Text) : Text :=
  match s.toList with
  | [] => s
  | c :: rest => ofList (upperChar c ++ rest)

end DesignTree.Text
