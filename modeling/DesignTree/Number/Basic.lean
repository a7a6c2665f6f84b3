import DesignTree.Number.Shortest

/-! # Numbers

A number keeps how it was written: an integer of any size, or a double. The two kinds compare by
the value that they stand for.
-/

namespace DesignTree

inductive Number
  | int (value : Int)
  | float (value : Double)
  deriving DecidableEq, Repr

namespace Number

instance : Inhabited Number := ⟨.int 0⟩

instance (n : Nat) : OfNat Number n := ⟨.int n⟩

/-- The least integer above those of 64 bits with a sign. -/
def wordBound : Nat := Nat.pow 2 63

/-- A point of the extended number line. -/
inductive Place
  | below
  | at (value : Rat)
  | above
  deriving DecidableEq, Repr

/-- Whether one point of the line comes before another. -/
def Place.less : Place → Place → Bool
  | .below, .below => false
  | .below, _ => true
  | .at p, .at q => p < q
  | .at _, .above => true
  | _, _ => false

/-- Where a number lies; the value that is no number lies nowhere. -/
def place : Number → Option Place
  | .int n => some (.at n)
  | .float (.infinity true) => some .below
  | .float (.infinity false) => some .above
  | .float x => x.value?.map .at

/-- Whether two numbers lie at the same point. -/
def same (a b : Number) : Bool :=
  match a.place, b.place with
  | some p, some q => decide (p = q)
  | _, _ => false

/-- Whether two numbers count as one value: they lie at the same point, or both are what documents
name as no number. -/
def alike : Number → Number → Bool
  | .float (.notANumber true), .float (.notANumber true) => true
  | a, b => a.same b

/-- Whether `a` lies before `b`. -/
def less (a b : Number) : Bool :=
  match a.place, b.place with
  | some p, some q => p.less q
  | _, _ => false

/-- Whether `a` lies before `b` or at the same point. -/
def atMost (a b : Number) : Bool := a.less b || a.same b

/-- Whether a number is one of the zeros. -/
def isZero (a : Number) : Bool := a.same 0

/-- The greatest number of a list that starts with `first`; of equal ones the first. -/
def maximum (first : Number) (rest : List Number) : Number :=
  rest.foldl (fun best n => if best.less n then n else best) first

/-- The double nearest to a number; an integer out of range goes to infinity. -/
def toDouble : Number → Double
  | .int n => Double.ofInt n
  | .float x => x

/-- Whether a number has a double near it. -/
def fitsDouble : Number → Bool
  | .int n => !((Double.ofInt n) matches .infinity _)
  | .float _ => true

/-- The sign of a number turned. -/
def neg : Number → Number
  | .int n => .int (-n)
  | .float x => .float (-x)

/-- Difference of two numbers: exact on integers, and by doubles as soon as one of them is a
double. An integer out of the range of doubles has no difference with a double. -/
def sub? : Number → Number → Option Number
  | .int a, .int b => some (.int (a - b))
  | a, b => if a.fitsDouble && b.fitsDouble then some (.float (a.toDouble - b.toDouble)) else none

/-- Product with an integer: exact on integers, rounded to a double on doubles. -/
def times : Number → Int → Number
  | .int a, k => .int (a * k)
  | .float x, k => .float (x * Double.ofInt k)

/-- A number in decimal. -/
def text : Number → String
  | .int n => n.repr
  | .float x => x.text

/-- The number without the part after the point, for finite numbers. -/
def truncate? : Number → Option Int
  | .int n => some n
  | .float x => x.value?.map fun q => q.num.tdiv q.den

@[simp]
theorem same_int (a b : Int) : same (.int a) (.int b) = decide (a = b) := by
  simp [same, place]

theorem same_iff {a b : Number} : a.same b = true ↔ ∃ p, a.place = some p ∧ b.place = some p := by
  unfold same
  split
  · next p q hp hq => simp [hp, hq, eq_comm]
  · next h =>
    simp only [Bool.false_eq_true, false_iff, not_exists, not_and]
    exact fun p hp hq => h p p hp hq

theorem same_comm (a b : Number) : a.same b = b.same a := by
  rw [Bool.eq_iff_iff, same_iff, same_iff]
  simp [and_comm]

theorem same_trans {a b c : Number} (h : a.same b = true) (g : b.same c = true) :
    a.same c = true := by
  obtain ⟨p, ha, hb⟩ := same_iff.1 h
  obtain ⟨q, hb', hc⟩ := same_iff.1 g
  exact same_iff.2 ⟨p, ha, by simp_all⟩

end Number

end DesignTree
