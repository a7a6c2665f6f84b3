import DesignTree.Number.Basic

/-! # Numbers and the range of doubles

An integer has no double near it if the nearest one is an infinity, which does not hang on its sign.
-/

namespace DesignTree

namespace Double

/-- Whether a double is one of the infinities. -/
def isInfinite : Double → Bool
  | .infinity _ => true
  | _ => false

theorem isInfinite_ofMagnitude (negative other : Bool) (num den : Nat) :
    (ofMagnitude negative num den).isInfinite = (ofMagnitude other num den).isInfinite := by
  unfold ofMagnitude
  by_cases hz : gridSteps num den (gridExponent num den) = 0
  · simp only [hz, if_true]
    cases negative <;> cases other <;> rfl
  · simp only [hz, if_false]
    split <;> rfl

end Double

namespace Number

/-- The number as it stands in a node that was made from it. -/
def asLength (n : Number) : Number := .float n.toDouble

/-- One length: the same number, or two numbers at the same point. -/
def SameLength (a b : Number) : Prop := a = b ∨ a.same b = true

theorem fitsDouble_int (n : Int) : fitsDouble (.int n) = !(Double.ofInt n).isInfinite := by
  simp only [fitsDouble]
  cases Double.ofInt n <;> rfl

theorem fitsDouble_neg (n : Number) : n.neg.fitsDouble = n.fitsDouble := by
  cases n with
  | float x => rfl
  | int i =>
    rw [neg, fitsDouble_int, fitsDouble_int, Double.ofInt, Double.ofInt, Int.natAbs_neg,
      Double.isInfinite_ofMagnitude]

/-- Numbers with doubles near them have a difference. -/
theorem isSome_sub? {a b : Number} (ha : a.fitsDouble) (hb : b.fitsDouble) :
    (a.sub? b).isSome = true := by
  cases a <;> cases b <;> simp [sub?, ha, hb]

theorem fitsDouble_of_isZero {n : Number} (h : n.isZero = true) : n.fitsDouble = true := by
  cases n with
  | float x => rfl
  | int i =>
    have hi : i = 0 := of_decide_eq_true ((same_int i 0).symm.trans h)
    subst hi
    decide +kernel

theorem less_int (a b : Int) : less (.int a) (.int b) = decide (a < b) := by
  simp only [less, place, Place.less]
  exact decide_eq_decide.2 Rat.intCast_lt_intCast

end Number

end DesignTree
