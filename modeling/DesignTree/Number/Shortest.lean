import DesignTree.Number.Double

/-! # The shortest decimal of a double

Of all decimals that read back as a given double, the one with the fewest digits is written, and
of those the one nearest to it.
-/

namespace DesignTree

/-- The decimal `0.d₁d₂… * 10 ^ point` with the digits of `digits`. -/
structure Decimal where
  digits : List Char
  point : Int
  deriving Repr, DecidableEq

namespace Decimal

/-- The reals that round to the positive rational `q`; both ends belong to it or neither does. -/
structure Neighbourhood where
  low : Rat
  high : Rat
  closed : Bool

/-- The neighbourhood of a positive double. Below a power of two the gap is half as wide, and the
ends round to an even significand. -/
def neighbourhood (q : Rat) : Neighbourhood :=
  let e := Double.gridExponent q.num.natAbs q.den
  let m := Double.gridSteps q.num.natAbs q.den e
  let low :=
    if m = Nat.pow 2 52 ∧ -1074 < e then Double.scale (4 * m - 1) (e - 2)
    else Double.scale (2 * m - 1) (e - 1)
  ⟨low, Double.scale (2 * m + 1) (e - 1), m % 2 = 0⟩

def Neighbourhood.contains (i : Neighbourhood) (x : Rat) : Bool :=
  if i.closed then i.low ≤ x && x ≤ i.high else i.low < x && x < i.high

/-- The exponent `k` with `10 ^ (k - 1) ≤ q < 10 ^ k`, for a positive `q`. -/
def pointOf (q : Rat) : Int :=
  let num := q.num.natAbs
  if q.den ≤ num then (Nat.toDigits 10 (num / q.den)).length
  else 1 - ((Nat.toDigits 10 ((q.den - 1) / num)).length : Int)

/-- The rational `n * 10 ^ e`. -/
def scaleTen (n : Nat) (e : Int) : Rat :=
  if 0 ≤ e then ((n * Nat.pow 10 e.toNat : Nat) : Rat) else mkRat n (Nat.pow 10 (-e).toNat)

/-- The integer part of `q / 10 ^ e`, for a positive `q`. -/
def floorTen (q : Rat) (e : Int) : Nat :=
  if 0 ≤ e then q.num.natAbs / (q.den * Nat.pow 10 e.toNat)
  else q.num.natAbs * Nat.pow 10 (-e).toNat / q.den

/-- The number of units of `10 ^ e` that reads back as `q`, if one of the two nearest does. -/
def candidate? (i : Neighbourhood) (q : Rat) (e : Int) : Option Nat :=
  let low := floorTen q e
  let below := scaleTen low e
  let above := scaleTen (low + 1) e
  match i.contains below, i.contains above with
  | true, true =>
    if q - below < above - q then some low
    else if above - q < q - below then some (low + 1)
    else if low % 2 = 0 then some low else some (low + 1)
  | true, false => some low
  | false, true => some (low + 1)
  | false, false => none

/-- Seventeen digits always suffice. -/
def search (i : Neighbourhood) (q : Rat) (point : Int) : Nat → Nat × Int
  | 0 => (floorTen q (point - 17), point - 17)
  | left + 1 =>
    let e := point - (17 - left)
    match candidate? i q e with
    | some n => (n, e)
    | none => search i q point left

/-- The shortest decimal that reads back as the positive double `q`. -/
def shortest (q : Rat) : Decimal :=
  let (n, e) := search (neighbourhood q) q (pointOf q) 17
  let digits := Nat.toDigits 10 n
  let kept := (digits.reverse.dropWhile (· == '0')).reverse
  ⟨kept, e + digits.length⟩

/-- A decimal is written with a point from four zeros after the point up to sixteen digits before
it, and with an exponent of two digits or more beyond. -/
def text (d : Decimal) : String :=
  let count : Int := d.digits.length
  if -4 < d.point ∧ d.point ≤ 16 then
    if d.point ≤ 0 then
      "0." ++ String.ofList (List.replicate (-d.point).toNat '0' ++ d.digits)
    else if count ≤ d.point then
      String.ofList (d.digits ++ List.replicate (d.point - count).toNat '0') ++ ".0"
    else
      String.ofList (d.digits.take d.point.toNat) ++ "." ++
        String.ofList (d.digits.drop d.point.toNat)
  else
    let mantissa := match d.digits with
      | [] => "0"
      | [c] => String.ofList [c]
      | c :: rest => String.ofList (c :: '.' :: rest)
    let exponent := d.point - 1
    let size := Nat.toDigits 10 exponent.natAbs
    mantissa ++ (if exponent < 0 then "e-" else "e+") ++
      String.ofList (List.replicate (2 - size.length) '0' ++ size)

end Decimal

/-- The text of a double, with the words for the values that have no decimal. -/
def Double.text : Double → String
  | .rational q =>
    if q = 0 then "0.0"
    else if q < 0 then "-" ++ (Decimal.shortest (-q)).text
    else (Decimal.shortest q).text
  | .negativeZero => "-0.0"
  | .infinity negative => if negative then "-inf" else "inf"
  | .notANumber _ => "nan"

end DesignTree
