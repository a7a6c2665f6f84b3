import DesignTree.Text.Basic

/-! # Texts as bytes

How many bytes of UTF-8 a text takes, and where its encoding stops. Surrogates have no bytes, but
in the names of files some of them stand for bytes that are no UTF-8.
-/

namespace DesignTree

namespace CodePoint

/-- Whether a code point stands for a single byte in the name of a file. -/
def standsForByte (p : CodePoint) : Bool := 0xDC80 ≤ p.toNat && p.toNat < 0xDD00

/-- The bytes that a code point takes in the name of a file. -/
def byteSize (p : CodePoint) : Nat :=
  if p.toNat < 0x80 || p.standsForByte then 1
  else if p.toNat < 0x800 then 2
  else if p.toNat < 0x10000 then 3
  else 4

end CodePoint

namespace Text

/-- The bytes that the name of a file takes. -/
def byteSize (s : Text) : Nat := s.toList.foldr (fun p size => p.byteSize + size) 0

/-- Surrogates in a text: the first of them, its place, and the place of the last one. -/
structure SurrogateRun where
  surrogate : CodePoint
  first : Nat
  last : Nat
  deriving DecidableEq, Repr

/-- The surrogates that start with the first one of which a condition holds. -/
def surrogateRun? (isBroken : CodePoint → Bool) (s : Text) : Option SurrogateRun :=
  let before := s.toList.takeWhile fun p => !(p.isSurrogate && isBroken p)
  let rest := s.toList.drop before.length
  rest.head?.map fun surrogate =>
    let run := rest.takeWhile (·.isSurrogate)
    ⟨surrogate, before.length, before.length + run.length - 1⟩

end Text

end DesignTree
