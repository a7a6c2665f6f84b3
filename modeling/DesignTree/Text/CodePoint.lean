/-! # Code points

The numbers that Unicode gives to characters. Beside the characters they take in the surrogates,
which stand for the two units of a pair in UTF-16 and make no character on their own. A set of
characters is a list of closed intervals of code points.
-/

namespace DesignTree

/-- A code point of Unicode. -/
structure CodePoint where
  toNat : Nat
  isLt : toNat < 0x110000
  deriving DecidableEq

namespace CodePoint

/-- The code point of a character. -/
def ofChar (c : Char) : CodePoint :=
  ⟨c.val.toNat, c.valid.elim (fun h => Nat.lt_trans h (by decide)) fun h => h.2⟩

instance : Coe Char CodePoint := ⟨ofChar⟩

instance : Inhabited CodePoint := ⟨⟨0, by decide⟩⟩

instance : LT CodePoint := ⟨fun p q => p.toNat < q.toNat⟩

instance : LE CodePoint := ⟨fun p q => p.toNat ≤ q.toNat⟩

instance (p q : CodePoint) : Decidable (p < q) := inferInstanceAs (Decidable (p.toNat < q.toNat))

instance (p q : CodePoint) : Decidable (p ≤ q) := inferInstanceAs (Decidable (p.toNat ≤ q.toNat))

/-- The code point with a number. Numbers beyond the code points have none, and zero stands in. -/
def ofNat (n : Nat) : CodePoint := if h : n < 0x110000 then ⟨n, h⟩ else default

/-- Whether a code point is the first unit of a pair. -/
def isHighSurrogate (p : CodePoint) : Bool := 0xD800 ≤ p.toNat && p.toNat < 0xDC00

/-- Whether a code point is the second unit of a pair. -/
def isLowSurrogate (p : CodePoint) : Bool := 0xDC00 ≤ p.toNat && p.toNat < 0xE000

/-- Whether a code point is a unit of a pair, and no character. -/
def isSurrogate (p : CodePoint) : Bool := 0xD800 ≤ p.toNat && p.toNat < 0xE000

/-- The character of a code point; a surrogate has none. -/
def toChar? (p : CodePoint) : Option Char :=
  if h : p.toNat.isValidChar then some (Char.ofNatAux p.toNat h) else none

/-- The code point of a pair of surrogates. -/
def ofPair (high low : CodePoint) : CodePoint :=
  ofNat (0x10000 + (high.toNat - 0xD800) * 0x400 + (low.toNat - 0xDC00))

instance : Repr CodePoint where
  reprPrec p _ := match p.toChar? with
    | some c => repr c
    | none => repr p.toNat

@[simp]
theorem toNat_ofChar (c : Char) : (ofChar c).toNat = c.toNat := rfl

@[simp]
theorem toChar?_ofChar (c : Char) : (ofChar c).toChar? = some c := by
  have h : (ofChar c).toNat.isValidChar := c.valid
  rw [toChar?, dif_pos h]
  exact congrArg some (Char.toNat_inj.1 rfl)

theorem lt_or_gt_of_ne {p q : CodePoint} (h : p ≠ q) : p < q ∨ q < p := by
  have numbers : p.toNat ≠ q.toNat := by
    intro he
    cases p
    cases q
    exact h (by simpa using he)
  exact Nat.lt_or_gt_of_ne numbers

theorem ofChar_inj {c d : Char} : ofChar c = ofChar d ↔ c = d := by
  constructor
  · intro h
    have : c.toNat = d.toNat := congrArg toNat h
    exact Char.toNat_inj.1 this
  · exact congrArg ofChar

end CodePoint

namespace Text

/-- Whether `n` lies in one of the closed intervals of `table`. -/
def inRanges (table : List (Nat × Nat)) (n : Nat) : Bool :=
  table.any fun r => r.1 ≤ n && n ≤ r.2

@[simp]
theorem inRanges_nil (n : Nat) : inRanges [] n = false := rfl

theorem inRanges_eq_true_iff {table : List (Nat × Nat)} {n : Nat} :
    inRanges table n = true ↔ ∃ r ∈ table, r.1 ≤ n ∧ n ≤ r.2 := by
  simp [inRanges]

end Text

end DesignTree
