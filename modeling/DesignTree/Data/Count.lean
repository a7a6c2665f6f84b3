import DesignTree.Diagnostics.Fault

/-! # Counts as they are given

A count is a number, or a flag that counts as one or zero. Where a count bounds how many items are
taken it has to be a whole number from zero on.
-/

namespace DesignTree

/-- A count as it is given. -/
inductive Count
  | flag (value : Bool)
  | number (value : Number)
  deriving DecidableEq, Repr

namespace Count

instance : Coe Nat Count := ⟨fun n => .number (.int n)⟩

/-- The number that a count stands for. -/
def toNumber : Count → Number
  | .flag b => if b then 1 else 0
  | .number n => n

def toValue : Count → Value
  | .flag b => .bool b
  | .number n => .number n

/-- The count that a value is; other values raise a fault of their own. -/
def ofValue (other : Value → Fault) : Value → Except Fault Count
  | .bool b => .ok (.flag b)
  | .number n => .ok (.number n)
  | v => .error (other v)

/-- Whether a count lies above zero. -/
def isPositive (c : Count) : Bool := Number.less 0 c.toNumber

/-- The smaller one of two counts; of equal ones the first. -/
def min (a b : Count) : Count := if b.toNumber.less a.toNumber then b else a

/-- How many items a count lets through. -/
def toNat (c : Count) : Except Fault Nat :=
  match c.toNumber with
  | .int n => if 0 ≤ n then .ok n.toNat else .error (.notACount (.int n))
  | .float x => .error (.notACount (.float x))

@[simp]
theorem toNat_ofNat (n : Nat) : (Count.number (.int n)).toNat = .ok n := by
  simp [toNat, toNumber]

end Count

end DesignTree
