import DesignTree.Diagnostics.Fault
import DesignTree.Text.Blank
import DesignTree.Text.Digit
import DesignTree.Text.Search

/-! # Colours

A colour has three channels from zero to one. Its hexadecimal form has three or six digits after an
optional number sign; with three digits each one counts twice.
-/

namespace DesignTree

/-- A colour by its channels. -/
structure Rgb where
  r : Double
  g : Double
  b : Double
  deriving DecidableEq, Repr

namespace Rgb

open Text

/-- A text without blanks around it and without one number sign in front. -/
def hexDigits (s : Text) : List CodePoint :=
  dropLeading ['#'] (trimList isBlank s.toList)

/-- The channels of a hexadecimal colour, from 0 to 255. -/
def hexChannels? (s : Text) : Option (Nat × Nat × Nat) :=
  match (hexDigits s).mapM hexValue? with
  | some [r, g, b] => some (17 * r, 17 * g, 17 * b)
  | some [r, r', g, g', b, b'] => some (16 * r + r', 16 * g + g', 16 * b + b')
  | _ => none

/-- The channel for a number from 0 to 255. -/
def channel (n : Nat) : Double := .ofRat (mkRat n 255)

/-- The colour with channels from 0 to 255. -/
def ofChannels (r g b : Nat) : Rgb := ⟨channel r, channel g, channel b⟩

/-- The colour of a hexadecimal text. -/
def ofHex? (s : Text) : Option Rgb := (hexChannels? s).map fun (r, g, b) => ofChannels r g b

/-- The colour of a hexadecimal text, or the error for a malformed one. -/
def ofHex (s : Text) : Except DesignError Rgb :=
  match ofHex? s with
  | some c => .ok c
  | none => .error (.invalidColor s)

/-- The integer nearest to a double. -/
def nearestInt (x : Double) : Except Fault Int :=
  match x.nearestInt? with
  | some n => .ok n
  | none => .error (if x.isNaN then .noInteger else .infiniteInteger)

/-- An integer in upper-case hexadecimal, with a zero in front of a single digit. -/
def hexText (n : Int) : String :=
  let digits := (Nat.toDigits 16 n.natAbs).map Char.toUpper
  if n < 0 then "-" ++ String.ofList digits
  else String.ofList (List.replicate (2 - digits.length) '0' ++ digits)

/-- The hexadecimal text of a colour. Channels outside of their range are written as they are. -/
def toHex (c : Rgb) : Except Fault Text := do
  let channels ← [c.r, c.g, c.b].mapM fun x => nearestInt (x * Double.ofInt 255)
  return "#" ++ String.join (channels.map hexText)

def white : Rgb := ⟨.ofInt 1, .ofInt 1, .ofInt 1⟩

def black : Rgb := ⟨.ofInt 0, .ofInt 0, .ofInt 0⟩

def decode : Value → Decoded Rgb :=
  .record "RGB" fun fs =>
    Rgb.mk
      <$> fs.required (.word "r") .double
      <*> fs.required (.word "g") .double
      <*> fs.required (.word "b") .double

def toValue (c : Rgb) : Value :=
  .record [("r", .ofDouble c.r), ("g", .ofDouble c.g), ("b", .ofDouble c.b)]

end Rgb

end DesignTree
