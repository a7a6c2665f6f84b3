import DesignTree.Proofs.Number.Grid
import Mathlib.Algebra.Order.Floor.Semifield
import Mathlib.Data.List.TakeWhile
import Mathlib.Data.Rat.Floor

/-! # The shortest decimal

Seventeen digits always find a decimal in the neighbourhood of a double (`candidate?_seventeen`),
and so does the search for fewer of them. What is found is a number, of which the zeros at the end
are left out (`value_shortest`), and it rounds to the double (`contains_value_shortest`).
-/

namespace DesignTree

theorem lt_pow_length_toDigits (n : Nat) : n < 10 ^ (Nat.toDigits 10 n).length :=
  (Nat.length_toDigits_le_iff (by decide) Nat.length_toDigits_pos).1 (Nat.le_refl _)

theorem pow_length_toDigits_le {n : Nat} (hn : 0 < n) :
    10 ^ ((Nat.toDigits 10 n).length - 1) ≤ n := by
  rcases Nat.eq_zero_or_pos ((Nat.toDigits 10 n).length - 1) with single | several
  · rw [single]
    exact hn
  · refine Nat.le_of_not_lt fun lt => ?_
    have := (Nat.length_toDigits_le_iff (by decide) several).2 lt
    omega

namespace Decimal

open Double

theorem scaleTen_eq (n : Nat) (e : Int) : scaleTen n e = n * (10 : Rat) ^ e := scaled_eq 10 n e

theorem floorTen_eq {q : Rat} (hq : 0 < q) (e : Int) : floorTen q e = ⌊q / 10 ^ e⌋₊ := by
  unfold floorTen
  conv_rhs => rw [← natAbs_num_div_den hq]
  split
  · next h =>
    obtain ⟨k, rfl⟩ := Int.eq_ofNat_of_zero_le h
    rw [← Nat.floor_div_eq_div (K := Rat), zpow_natCast, div_div]
    simp
  · next h =>
    obtain ⟨k, hk⟩ := Int.eq_ofNat_of_zero_le (Int.neg_nonneg_of_nonpos (Int.le_of_not_le h))
    obtain rfl : e = -k := by omega
    rw [← Nat.floor_div_eq_div (K := Rat), zpow_neg, zpow_natCast, div_inv_eq_mul,
      div_mul_eq_mul_div]
    simp

theorem pow_pointOf_le {q : Rat} (hq : 0 < q) : (10 : Rat) ^ (pointOf q - 1) ≤ q := by
  have den : (0 : Rat) < q.den := by exact_mod_cast q.den_pos
  have num : 0 < q.num.natAbs := Int.natAbs_pos.2 (Rat.num_pos.2 hq).ne'
  conv_rhs => rw [← natAbs_num_div_den hq]
  rw [le_div_iff₀ den]
  unfold pointOf
  simp only
  split
  · next h =>
    have low := pow_length_toDigits_le (Nat.div_pos h q.den_pos)
    have some : 0 < (Nat.toDigits 10 (q.num.natAbs / q.den)).length := Nat.length_toDigits_pos
    rw [Nat.le_div_iff_mul_le q.den_pos] at low
    rw [← Int.natCast_pred_of_pos some, zpow_natCast]
    exact_mod_cast low
  · have high := lt_pow_length_toDigits ((q.den - 1) / q.num.natAbs)
    rw [Nat.div_lt_iff_lt_mul num] at high
    rw [show (1 : Int) - _ - 1 = -(Nat.toDigits 10 ((q.den - 1) / q.num.natAbs)).length by ring,
      zpow_neg, zpow_natCast, inv_mul_le_iff₀ (by positivity)]
    have : q.den ≤ 10 ^ (Nat.toDigits 10 ((q.den - 1) / q.num.natAbs)).length * q.num.natAbs := by
      omega
    exact_mod_cast this

theorem contains_of_candidate? {i : Neighbourhood} {q : Rat} {e : Int} {n : Nat}
    (h : candidate? i q e = some n) : i.contains (scaleTen n e) = true := by
  unfold candidate? at h
  simp only at h
  split at h
  · next below above =>
    split at h
    · cases h; exact below
    · split at h
      · cases h; exact above
      · split at h
        · cases h; exact below
        · cases h; exact above
  · next below _ => cases h; exact below
  · next _ above => cases h; exact above
  · cases h

theorem candidate?_ne_none {i : Neighbourhood} {q : Rat} {e : Int}
    (h : i.contains (scaleTen (floorTen q e) e) = true ∨
      i.contains (scaleTen (floorTen q e + 1) e) = true) : candidate? i q e ≠ none := by
  unfold candidate?
  simp only
  split
  · split
    · simp
    · split
      · simp
      · split <;> simp
  · simp
  · simp
  · next below above => simp [below, above] at h

/-- Of seventeen digits the last one counts less than two units of the 54th binary digit, so that
one of the two nearest decimals is in the neighbourhood. -/
theorem candidate?_seventeen {q : Rat} (hq : 0 < q) (h : Exact (.rational q)) :
    candidate? (neighbourhood q) q (pointOf q - 17) ≠ none := by
  have unit : (10 : Rat) ^ (pointOf q - 17) * 10 ^ 16 ≤ q := by
    calc (10 : Rat) ^ (pointOf q - 17) * 10 ^ 16 = 10 ^ (pointOf q - 1) := by
          rw [show pointOf q - 1 = (pointOf q - 17) + 16 by ring, zpow_add₀ (by norm_num)]
          norm_cast
      _ ≤ q := pow_pointOf_le hq
  refine candidate?_ne_none ?_
  rw [scaleTen_eq, scaleTen_eq, floorTen_eq hq]
  have positive : (0 : Rat) < 10 ^ (pointOf q - 17) := by positivity
  generalize (10 : Rat) ^ (pointOf q - 17) = u at *
  have low : ⌊q / u⌋₊ * u ≤ q := by
    rw [← le_div_iff₀ positive]
    exact Nat.floor_le (by positivity)
  have high : q < (⌊q / u⌋₊ + 1 : Nat) * u := by
    rw [← div_lt_iff₀ positive]
    exact_mod_cast Nat.lt_floor_add_one _
  have half : u / 2 < q / 2 ^ 54 := by
    rw [lt_div_iff₀ (by positivity)]
    linarith
  rcases le_total (q - ⌊q / u⌋₊ * u) (u / 2) with near | far
  · refine .inl (contains_of_near hq h ?_)
    rw [abs_sub_comm, abs_of_nonneg (sub_nonneg.2 low)]
    linarith
  · refine .inr (contains_of_near hq h ?_)
    rw [abs_of_pos (sub_pos.2 high)]
    push_cast
    linarith

theorem contains_search {i : Neighbourhood} {q : Rat} {point : Int}
    (h : candidate? i q (point - 17) ≠ none) (left : Nat) :
    i.contains (scaleTen (search i q point (left + 1)).1 (search i q point (left + 1)).2) =
      true := by
  induction left with
  | zero =>
    obtain ⟨n, hn⟩ := Option.ne_none_iff_exists'.1 h
    have e : point - (17 - (0 : Nat)) = point - 17 := rfl
    rw [search]
    simp only [e, hn]
    exact contains_of_candidate? hn
  | succ left ih =>
    rw [search]
    cases hn : candidate? i q (point - (17 - (left + 1 : Nat))) with
    | some n => exact contains_of_candidate? hn
    | none => exact ih

/-! ## The digits that are kept -/

/-- The number that a decimal stands for. -/
def value (d : Decimal) : Rat :=
  Nat.ofDigitChars 10 d.digits 0 * 10 ^ (d.point - d.digits.length)

/-- Zeros at the end of a number are left out. -/
theorem exists_eq_append_zeros (digits : List Char) :
    ∃ k, digits = (digits.reverse.dropWhile (· == '0')).reverse ++ List.replicate k '0' := by
  refine ⟨(digits.reverse.takeWhile (· == '0')).length, ?_⟩
  have zeros : digits.reverse.takeWhile (· == '0') =
      List.replicate (digits.reverse.takeWhile (· == '0')).length '0' :=
    List.eq_replicate_of_mem fun c hc => by simpa using List.mem_takeWhile_imp hc
  rw [← List.reverse_replicate, ← zeros, ← List.reverse_append, List.takeWhile_append_dropWhile,
    List.reverse_reverse]

theorem isDigit_of_mem_shortest (q : Rat) : ∀ c ∈ (shortest q).digits, c.isDigit = true := by
  intro c hc
  have h : c ∈ Nat.toDigits 10 (search (neighbourhood q) q (pointOf q) 17).1 :=
    List.mem_reverse.1 ((List.dropWhile_sublist _).subset (List.mem_reverse.1 hc))
  exact Nat.isDigit_of_mem_toDigits (by decide) (by decide) h

theorem value_shortest (q : Rat) :
    (shortest q).value = scaleTen (search (neighbourhood q) q (pointOf q) 17).1
      (search (neighbourhood q) q (pointOf q) 17).2 := by
  generalize hs : search (neighbourhood q) q (pointOf q) 17 = found
  obtain ⟨n, e⟩ := found
  obtain ⟨k, hk⟩ := exists_eq_append_zeros (Nat.toDigits 10 n)
  have n_eq := Nat.ofDigitChars_toDigits (b := 10) (n := n) (by decide) (by decide)
  have length := congrArg List.length hk
  rw [hk, Nat.ofDigitChars_append, Nat.ofDigitChars_replicate_zero] at n_eq
  rw [List.length_append, List.length_replicate] at length
  rw [value, shortest, hs, scaleTen_eq]
  simp only
  generalize (Nat.toDigits 10 n).reverse.dropWhile (· == '0') = kept at *
  rw [show e + ((Nat.toDigits 10 n).length : Int) - kept.reverse.length = k + e by omega,
    zpow_add₀ (by norm_num), zpow_natCast, ← n_eq]
  push_cast
  ring

/-- **The shortest decimal of a double rounds to it.** -/
theorem contains_value_shortest {q : Rat} (hq : 0 < q) (h : Exact (.rational q)) :
    (neighbourhood q).contains (shortest q).value = true := by
  rw [value_shortest]
  exact contains_search (candidate?_seventeen hq h) 16

end Decimal

end DesignTree
