/-! # Double-precision numbers

A double is held as the rational number that it stands for, so that comparison and arithmetic are
exact up to one rounding at the end. Zero has two signs, and there are two infinities and a value
that is no number.

What is no number differs from everything, itself included. Only one that a document names is a
value of its own, which can be found again.
-/

namespace DesignTree

inductive Double
  /-- A finite number other than the negative zero. -/
  | rational (value : Rat)
  | negativeZero
  | infinity (negative : Bool)
  /-- What is no number: one that a document names, or what comes of a text or a calculation. -/
  | notANumber (named : Bool)
  deriving DecidableEq, Repr

namespace Double

instance : Inhabited Double := ⟨.rational 0⟩

/-- The zero of the given sign. -/
def zero (negative : Bool) : Double := if negative then .negativeZero else .rational 0

/-- The integer nearest to a quotient of naturals; a half goes to the even neighbour. -/
def roundQuotient (num den : Nat) : Nat :=
  let low := num / den
  let rest := 2 * (num % den)
  if rest < den then low
  else if den < rest then low + 1
  else if low % 2 = 0 then low else low + 1

/-- The exponent of the last of 53 binary digits of `num / den`, at least -1074. -/
def gridExponent (num den : Nat) : Int :=
  let gap : Int := num.log2 - den.log2
  let reached :=
    if 0 ≤ gap then den * Nat.pow 2 gap.toNat ≤ num else den ≤ num * Nat.pow 2 (-gap).toNat
  max (-1074) ((if reached then gap else gap - 1) - 52)

/-- The number of steps of `2 ^ e` nearest to `num / den`. -/
def gridSteps (num den : Nat) (e : Int) : Nat :=
  if 0 ≤ e then roundQuotient num (den * Nat.pow 2 e.toNat)
  else roundQuotient (num * Nat.pow 2 (-e).toNat) den

/-- The rational `n * 2 ^ e`. -/
def scale (n : Nat) (e : Int) : Rat :=
  if 0 ≤ e then ((n * Nat.pow 2 e.toNat : Nat) : Rat) else mkRat n (Nat.pow 2 (-e).toNat)

/-- The double nearest to `num / den` with the given sign. -/
def ofMagnitude (negative : Bool) (num den : Nat) : Double :=
  let e := gridExponent num den
  let n := gridSteps num den e
  if n = 0 then zero negative
  else
    let value := scale n e
    if (Nat.pow 2 1024 : Nat) ≤ value then .infinity negative
    else .rational (if negative then -value else value)

/-- The double nearest to a rational. -/
def ofRat (q : Rat) : Double := ofMagnitude (q < 0) q.num.natAbs q.den

/-- The double nearest to an integer. -/
def ofInt (n : Int) : Double := ofMagnitude (n < 0) n.natAbs 1

/-- The double nearest to `digits * 10 ^ e`; far out of range the power is not computed. A binary
place is worth between 30 and 31 hundredths of a decimal one. -/
def ofDecimal (negative : Bool) (digits : Nat) (e : Int) : Double :=
  if digits = 0 then zero negative
  else
    let bits : Int := digits.log2
    if 400 < bits * 30 / 100 + e then .infinity negative
    else if (bits + 1) * 31 / 100 + e < -400 then zero negative
    else if 0 ≤ e then ofMagnitude negative (digits * Nat.pow 10 e.toNat) 1
    else ofMagnitude negative digits (Nat.pow 10 (-e).toNat)

/-- The rational that a finite double stands for. -/
def value? : Double → Option Rat
  | .rational q => some q
  | .negativeZero => some 0
  | .infinity _ | .notANumber _ => none

/-- Whether a double is no number. -/
def isNaN : Double → Bool
  | .notANumber _ => true
  | _ => false

/-- The integer nearest to a finite double; a half goes to the even neighbour. -/
def nearestInt? (x : Double) : Option Int :=
  x.value?.map fun q =>
    let n := roundQuotient q.num.natAbs q.den
    if q < 0 then -(n : Int) else n

/-- Whether a double is a number below zero or the zero below it. -/
def isNegative : Double → Bool
  | .rational q => q < 0
  | .negativeZero => true
  | .infinity negative => negative
  | .notANumber _ => false

def neg : Double → Double
  | .rational q => if q = 0 then .negativeZero else .rational (-q)
  | .negativeZero => .rational 0
  | .infinity negative => .infinity !negative
  | .notANumber _ => .notANumber false

def add : Double → Double → Double
  | .notANumber _, _ | _, .notANumber _ => .notANumber false
  | .infinity s, .infinity t => if s = t then .infinity s else .notANumber false
  | .infinity s, _ | _, .infinity s => .infinity s
  | .negativeZero, .negativeZero => .negativeZero
  | .rational p, .rational q => ofRat (p + q)
  | .rational p, .negativeZero | .negativeZero, .rational p => .rational p

def sub (a b : Double) : Double := a.add b.neg

def mul (a b : Double) : Double :=
  let negative := a.isNegative != b.isNegative
  match a, b with
  | .notANumber _, _ | _, .notANumber _ => .notANumber false
  | .infinity _, b => if b.value? = some 0 then .notANumber false else .infinity negative
  | a, .infinity _ => if a.value? = some 0 then .notANumber false else .infinity negative
  | a, b =>
    let product := a.value?.getD 0 * b.value?.getD 0
    ofMagnitude negative product.num.natAbs product.den

instance : Neg Double := ⟨neg⟩
instance : Add Double := ⟨add⟩
instance : Sub Double := ⟨sub⟩
instance : Mul Double := ⟨mul⟩

end Double

end DesignTree
