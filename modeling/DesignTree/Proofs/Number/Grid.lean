import DesignTree.Number.Shortest
import Mathlib.Algebra.Order.Field.Power
import Mathlib.Data.Rat.Cast.Order
import Mathlib.Tactic.Linarith
import Mathlib.Tactic.Positivity
import Mathlib.Tactic.Ring

/-! # The grid of doubles

A positive double is a number of steps of a power of two, which has 53 binary digits unless the
steps are the smallest ones (`Grid`). The numbers around it that round to it are its neighbourhood,
which holds all that is nearer to it than its 54th binary digit (`Decimal.contains_of_near`). The
neighbourhoods of different doubles have nothing in common (`Decimal.eq_of_contains`).
-/

namespace DesignTree

/-- A multiple of a power, on integers and fractions of them. -/
theorem scaled_eq (b n : Nat) (e : Int) :
    (if 0 ≤ e then ((n * Nat.pow b e.toNat : Nat) : Rat) else mkRat n (Nat.pow b (-e).toNat)) =
      n * (b : Rat) ^ e := by
  split
  · next h =>
    obtain ⟨k, rfl⟩ := Int.eq_ofNat_of_zero_le h
    simp
  · next h =>
    obtain ⟨k, hk⟩ := Int.eq_ofNat_of_zero_le (Int.neg_nonneg_of_nonpos (Int.le_of_not_le h))
    obtain rfl : e = -k := by omega
    rw [Rat.mkRat_eq_div, zpow_neg, zpow_natCast, div_eq_mul_inv]
    simp

theorem natAbs_num_div_den {q : Rat} (hq : 0 < q) : (q.num.natAbs : Rat) / q.den = q := by
  have h : ((q.num.natAbs : Int) : Rat) = q.num := by
    rw [Int.natAbs_of_nonneg (Rat.num_pos.2 hq).le]
  rw [← Int.cast_natCast, h, Rat.num_div_den]

namespace Double

theorem scale_eq (n : Nat) (e : Int) : scale n e = n * (2 : Rat) ^ e :=
  scaled_eq 2 n e

/-- A comparison of a quotient with a power of two, on integers alone. -/
theorem reaches_iff {num den : Nat} (hd : den ≠ 0) (gap : Int) :
    (if 0 ≤ gap then den * Nat.pow 2 gap.toNat ≤ num else den ≤ num * Nat.pow 2 (-gap).toNat) ↔
      (2 : Rat) ^ gap ≤ num / den := by
  have positive : (0 : Rat) < den := by exact_mod_cast Nat.pos_of_ne_zero hd
  rw [le_div_iff₀ positive]
  split
  · next h =>
    obtain ⟨k, rfl⟩ := Int.eq_ofNat_of_zero_le h
    rw [zpow_natCast, mul_comm]
    exact_mod_cast Iff.rfl
  · next h =>
    obtain ⟨k, hk⟩ := Int.eq_ofNat_of_zero_le (Int.neg_nonneg_of_nonpos (Int.le_of_not_le h))
    obtain rfl : gap = -k := by omega
    rw [zpow_neg, zpow_natCast, inv_mul_le_iff₀ (by positivity), mul_comm, neg_neg]
    exact_mod_cast Iff.rfl

/-- The exponent of the first binary digit of a positive number. -/
theorem exists_gridExponent_eq {num den : Nat} (hn : num ≠ 0) (hd : den ≠ 0) :
    ∃ g : Int, gridExponent num den = max (-1074) (g - 52) ∧
      (2 : Rat) ^ g ≤ num / den ∧ (num : Rat) / den < 2 ^ (g + 1) := by
  have positive : (0 : Rat) < den := by exact_mod_cast Nat.pos_of_ne_zero hd
  have numLow : (2 : Rat) ^ (num.log2 : Int) ≤ num := by exact_mod_cast Nat.log2_self_le hn
  have numHigh : (num : Rat) < 2 ^ ((num.log2 : Int) + 1) := by exact_mod_cast Nat.lt_log2_self
  have denLow : (2 : Rat) ^ (den.log2 : Int) ≤ den := by exact_mod_cast Nat.log2_self_le hd
  have denHigh : (den : Rat) < 2 ^ ((den.log2 : Int) + 1) := by exact_mod_cast Nat.lt_log2_self
  unfold gridExponent
  simp only [reaches_iff hd]
  by_cases reached : (2 : Rat) ^ ((num.log2 : Int) - den.log2) ≤ num / den
  · refine ⟨num.log2 - den.log2, by rw [if_pos reached], reached, ?_⟩
    rw [div_lt_iff₀ positive]
    calc (num : Rat) < 2 ^ ((num.log2 : Int) + 1) := numHigh
      _ = 2 ^ ((num.log2 : Int) - den.log2 + 1) * 2 ^ (den.log2 : Int) := by
        rw [← zpow_add₀ two_ne_zero]; congr 1; ring
      _ ≤ 2 ^ ((num.log2 : Int) - den.log2 + 1) * den :=
        mul_le_mul_of_nonneg_left denLow (by positivity)
  · refine ⟨num.log2 - den.log2 - 1, by rw [if_neg reached], ?_, ?_⟩
    · rw [le_div_iff₀ positive]
      calc (2 : Rat) ^ ((num.log2 : Int) - den.log2 - 1) * den
          ≤ 2 ^ ((num.log2 : Int) - den.log2 - 1) * 2 ^ ((den.log2 : Int) + 1) :=
          mul_le_mul_of_nonneg_left denHigh.le (by positivity)
        _ = 2 ^ (num.log2 : Int) := by
          rw [← zpow_add₀ two_ne_zero]; congr 1; ring
        _ ≤ num := numLow
    · rw [sub_add_cancel]
      exact not_le.1 reached

/-- A double that stands for the number that it is rounded to. What is read or computed is one. -/
def Exact : Double → Prop
  | .rational q => ofRat q = .rational q
  | _ => True

instance : DecidablePred Exact := fun x => by
  cases x <;> unfold Exact <;> infer_instance

end Double

open Double

/-- A positive number is `m` steps of `2 ^ e`: as many as 53 binary digits can count, and no fewer
than half of that unless the steps are the smallest ones. -/
structure Grid (q : Rat) (m : Nat) (e : Int) : Prop where
  value : q = m * 2 ^ e
  least : -1074 ≤ e
  lt : m < 2 ^ 53
  full : -1074 < e → 2 ^ 52 ≤ m

theorem grid_of_exact {q : Rat} (hq : 0 < q) (h : Exact (.rational q)) :
    Grid q (gridSteps q.num.natAbs q.den (gridExponent q.num.natAbs q.den))
      (gridExponent q.num.natAbs q.den) := by
  obtain ⟨g, exponent, low, high⟩ := exists_gridExponent_eq
    (Int.natAbs_ne_zero.2 (Rat.num_pos.2 hq).ne') q.den_nz
  rw [natAbs_num_div_den hq] at low high
  generalize he : gridExponent q.num.natAbs q.den = e at exponent ⊢
  generalize hm : gridSteps q.num.natAbs q.den e = m
  have value : q = m * 2 ^ e := by
    unfold Exact ofRat ofMagnitude at h
    simp only [he, hm, scale_eq, decide_eq_false hq.not_gt] at h
    split at h
    · cases h
      exact absurd hq (lt_irrefl 0)
    · split at h
      · cases h
      · simpa [eq_comm] using h
  have step : (0 : Rat) < 2 ^ e := by positivity
  refine ⟨value, by omega, ?_, fun he => ?_⟩
  · have : (m : Rat) < 2 ^ 53 := by
      refine lt_of_mul_lt_mul_right ?_ step.le
      calc (m : Rat) * 2 ^ e = q := value.symm
        _ < 2 ^ (g + 1) := high
        _ ≤ 2 ^ (53 + e) := zpow_le_zpow_right₀ one_le_two (by omega)
        _ = 2 ^ 53 * 2 ^ e := by rw [zpow_add₀ two_ne_zero]; norm_cast
    exact_mod_cast this
  · have : (2 : Rat) ^ 52 ≤ m := by
      refine le_of_mul_le_mul_right ?_ step
      calc (2 : Rat) ^ 52 * 2 ^ e = 2 ^ (52 + e) := by rw [zpow_add₀ two_ne_zero]; norm_cast
        _ = 2 ^ g := by congr 1; omega
        _ ≤ q := low
        _ = m * 2 ^ e := value
    exact_mod_cast this

namespace Grid

variable {q p x : Rat} {m n : Nat} {e f : Int}

theorem exponent_le (hq : Grid q m e) (hp : Grid p n f) (h : q < p) : e ≤ f := by
  refine le_of_not_gt fun lt => h.not_ge ?_
  have full : (2 : Rat) ^ 52 ≤ m := by exact_mod_cast hq.full (hp.least.trans_lt lt)
  have few : (n : Rat) ≤ 2 ^ 53 := by exact_mod_cast hp.lt.le
  rw [hq.value, hp.value]
  calc (n : Rat) * 2 ^ f ≤ 2 ^ 53 * 2 ^ f := mul_le_mul_of_nonneg_right few (by positivity)
    _ = 2 ^ (53 + f) := by rw [zpow_add₀ two_ne_zero]; norm_cast
    _ ≤ 2 ^ (52 + e) := zpow_le_zpow_right₀ one_le_two (by omega)
    _ = 2 ^ 52 * 2 ^ e := by rw [zpow_add₀ two_ne_zero]; norm_cast
    _ ≤ m * 2 ^ e := mul_le_mul_of_nonneg_right full (by positivity)

theorem steps_pos (hq : Grid q m e) (h : 0 < q) : 0 < m := by
  refine Nat.pos_of_ne_zero ?_
  rintro rfl
  simp [hq.value] at h

/-- How many quarters of a step the neighbourhood goes down. -/
def below (m : Nat) (e : Int) : Nat := if m = 2 ^ 52 ∧ -1074 < e then 1 else 2

/-- The neighbourhoods of two numbers of the grid touch at most, and if so where one of them is
open. -/
theorem quarters_lt (hq : Grid q m e) {d : Nat} (hp : Grid p n (e + d)) (h : q < p) :
    4 * m + 2 < (4 * n - below n (e + d)) * 2 ^ d ∨
      4 * m + 2 = (4 * n - below n (e + d)) * 2 ^ d ∧ (m % 2 = 1 ∨ n % 2 = 1) := by
  have steps : m < n * 2 ^ d := by
    have lt : (m : Rat) * 2 ^ e < n * 2 ^ d * 2 ^ e := by
      rw [mul_assoc, ← zpow_natCast, ← zpow_add₀ two_ne_zero, add_comm (d : Int), ← hp.value,
        ← hq.value]
      exact h
    exact_mod_cast lt_of_mul_lt_mul_right lt (by positivity)
  have few := hq.lt
  have least := hq.least
  cases d with
  | zero =>
    have full := hq.full
    simp only [below, Nat.cast_zero, add_zero, pow_zero, mul_one] at steps ⊢
    split <;> omega
  | succ d =>
    have full := hp.full (by omega)
    have room : 2 ^ 54 - 1 ≤ 4 * n - below n (e + (d + 1 : Nat)) := by
      unfold below
      split <;> omega
    rcases Nat.eq_zero_or_pos d with rfl | hd
    · simp only [below] at room ⊢
      split <;> omega
    · refine .inl ?_
      have four : 2 ^ 2 ≤ 2 ^ (d + 1) := Nat.pow_le_pow_right two_pos (by omega)
      calc 4 * m + 2 < (2 ^ 54 - 1) * 2 ^ 2 := by omega
        _ ≤ (4 * n - below n (e + (d + 1 : Nat))) * 2 ^ (d + 1) := Nat.mul_le_mul room four

theorem apart (hq : Grid q m e) (hp : Grid p n f) (h : q < p) :
    ((4 * m + 2 : Nat) : Rat) * 2 ^ (e - 2) < (4 * n - below n f : Nat) * 2 ^ (f - 2) ∨
      ((4 * m + 2 : Nat) : Rat) * 2 ^ (e - 2) = (4 * n - below n f : Nat) * 2 ^ (f - 2) ∧
        (m % 2 = 1 ∨ n % 2 = 1) := by
  obtain ⟨d, rfl⟩ := Int.le.dest (hq.exponent_le hp h)
  have scaled : ((4 * n - below n (e + d) : Nat) : Rat) * 2 ^ (e + d - 2) =
      ((4 * n - below n (e + d)) * 2 ^ d : Nat) * 2 ^ (e - 2) := by
    rw [show e + d - 2 = d + (e - 2) by ring, zpow_add₀ two_ne_zero, zpow_natCast]
    push_cast
    ring
  have quarter : (0 : Rat) < 2 ^ (e - 2) := by positivity
  rw [scaled]
  rcases hq.quarters_lt hp h with lt | ⟨eq, odd⟩
  · exact .inl (mul_lt_mul_of_pos_right (by exact_mod_cast lt) quarter)
  · exact .inr ⟨by rw [eq], odd⟩

end Grid

namespace Decimal

/-- The double that is `m` steps of `2 ^ e` has a neighbourhood of half a step upwards. -/
theorem neighbourhood_eq {q : Rat} (hq : 0 < q) (h : Exact (.rational q)) :
    ∃ m e, Grid q m e ∧ neighbourhood q =
      ⟨(4 * m - Grid.below m e : Nat) * 2 ^ (e - 2), (4 * m + 2 : Nat) * 2 ^ (e - 2),
        m % 2 = 0⟩ := by
  refine ⟨_, _, grid_of_exact hq h, ?_⟩
  generalize he : gridExponent q.num.natAbs q.den = e
  generalize hm : gridSteps q.num.natAbs q.den e = m
  have half (n : Nat) : (n : Rat) * 2 ^ (e - 1) = (2 * n : Nat) * 2 ^ (e - 2) := by
    rw [show e - 1 = 1 + (e - 2) by ring, zpow_add₀ two_ne_zero, zpow_one]
    push_cast
    ring
  have low : (if m = Nat.pow 2 52 ∧ -1074 < e then scale (4 * m - 1) (e - 2)
      else scale (2 * m - 1) (e - 1)) = (4 * m - Grid.below m e : Nat) * 2 ^ (e - 2) := by
    rw [scale_eq, scale_eq, half, Nat.mul_sub, ← Nat.mul_assoc, Grid.below]
    exact (apply_ite (fun n : Nat => ((4 * m - n : Nat) : Rat) * 2 ^ (e - 2)) _ 1 2).symm
  unfold neighbourhood
  simp only [he, hm, low]
  rw [scale_eq, half, Nat.mul_add, ← Nat.mul_assoc]

theorem low_pos {q : Rat} (hq : 0 < q) (h : Exact (.rational q)) : 0 < (neighbourhood q).low := by
  obtain ⟨m, e, grid, nq⟩ := neighbourhood_eq hq h
  have quarters : 0 < 4 * m - Grid.below m e := by
    have := grid.steps_pos hq
    unfold Grid.below
    split <;> omega
  rw [nq]
  positivity

theorem le_of_contains {i : Neighbourhood} {x : Rat} (h : i.contains x = true) :
    i.low ≤ x ∧ x ≤ i.high ∧ (i.closed = true ∨ i.low < x ∧ x < i.high) := by
  unfold Neighbourhood.contains at h
  cases hc : i.closed with
  | true => simpa [hc] using h
  | false =>
    have inside : i.low < x ∧ x < i.high := by simpa [hc] using h
    exact ⟨inside.1.le, inside.2.le, .inr inside⟩

theorem contains_of_lt {i : Neighbourhood} {x : Rat} (low : i.low < x) (high : x < i.high) :
    i.contains x = true := by
  unfold Neighbourhood.contains
  split <;> simp [low, high, low.le, high.le]

theorem not_contains_of_lt {p q x : Rat} (hp : 0 < p) (hq : 0 < q) (ep : Exact (.rational p))
    (eq : Exact (.rational q)) (lt : p < q) (hx : (neighbourhood p).contains x = true) :
    (neighbourhood q).contains x = false := by
  obtain ⟨m, e, gp, np⟩ := neighbourhood_eq hp ep
  obtain ⟨n, f, gq, nq⟩ := neighbourhood_eq hq eq
  refine Bool.eq_false_iff.2 fun hx' => ?_
  obtain ⟨-, high, openp⟩ := le_of_contains hx
  obtain ⟨low, -, openq⟩ := le_of_contains hx'
  rw [np] at high openp
  rw [nq] at low openq
  simp only [decide_eq_true_eq] at high openp low openq
  rcases gp.apart gq lt with less | ⟨touch, odd⟩
  · exact absurd (low.trans high) less.not_ge
  · have same := le_antisymm high (touch ▸ low)
    rcases odd with hm | hn
    · rcases openp with even | inside
      · omega
      · exact inside.2.ne same
    · rcases openq with even | inside
      · omega
      · exact inside.1.ne (touch ▸ same.symm)

theorem eq_of_contains {p q x : Rat} (hp : 0 < p) (hq : 0 < q) (ep : Exact (.rational p))
    (eq : Exact (.rational q)) (hx : (neighbourhood p).contains x = true)
    (hx' : (neighbourhood q).contains x = true) : p = q := by
  rcases lt_trichotomy p q with lt | same | gt
  · exact absurd hx' (by simp [not_contains_of_lt hp hq ep eq lt hx])
  · exact same
  · exact absurd hx (by simp [not_contains_of_lt hq hp eq ep gt hx'])

/-- What is nearer to a double than its 54th binary digit rounds to it. -/
theorem contains_of_near {q x : Rat} (hq : 0 < q) (h : Exact (.rational q))
    (near : |x - q| < q / 2 ^ 54) : (neighbourhood q).contains x = true := by
  obtain ⟨m, e, grid, nq⟩ := neighbourhood_eq hq h
  rw [nq]
  rw [abs_lt] at near
  have value : q = (4 * m : Nat) * 2 ^ (e - 2) := by
    calc q = m * 2 ^ (2 + (e - 2)) := by rw [grid.value, add_sub_cancel]
      _ = (4 * m : Nat) * 2 ^ (e - 2) := by
        rw [zpow_add₀ two_ne_zero]
        push_cast
        ring
  have quarter : (0 : Rat) < 2 ^ (e - 2) := by positivity
  generalize (2 : Rat) ^ (e - 2) = u at *
  have few : q / 2 ^ 54 < 2 * u := by
    have : (m : Rat) < 2 ^ 53 := by exact_mod_cast grid.lt
    rw [div_lt_iff₀ (by positivity), value]
    push_cast
    nlinarith
  have room : q / 2 ^ 54 ≤ Grid.below m e * u := by
    unfold Grid.below
    split
    · next hm =>
      rw [value, hm.1]
      push_cast
      linarith
    · push_cast
      exact few.le
  have positive : Grid.below m e ≤ 4 * m := by
    have := grid.steps_pos hq
    unfold Grid.below
    split <;> omega
  refine contains_of_lt ?_ ?_
  · push_cast [positive] at value ⊢
    linarith
  · push_cast at value ⊢
    linarith

end Decimal

end DesignTree
