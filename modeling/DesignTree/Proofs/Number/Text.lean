import DesignTree.Number.Basic
import DesignTree.Proofs.Number.Shortest

/-! # Written numbers

A decimal is written in one of four forms, and in each of them it can be read for its value
(`Decimal.valueOf_text`). So doubles with one text have one size, since their neighbourhoods meet in
the number that is read (`Double.text_inj`), and integers are written without the marks of a double
(`Number.text_inj`).
-/

namespace DesignTree

namespace Decimal

/-! ## Reading -/

/-- How many digits stand after the point. -/
def places (mantissa : List Char) : Nat := (mantissa.dropWhile (· != '.')).tail.length

/-- The integer with a sign before its digits, and zero where nothing stands. -/
def exponentOf (cs : List Char) : Int :=
  let n : Int := Nat.ofDigitChars 10 cs.tail 0
  if cs.head? = some '-' then -n else n

/-- The number that a written decimal stands for: its digits are counted in units of the last place,
and moved by the exponent after the letter E. -/
def valueOf (cs : List Char) : Rat :=
  let mantissa := cs.takeWhile (· != 'e')
  Nat.ofDigitChars 10 (mantissa.filter Char.isDigit) 0 *
    10 ^ (exponentOf (cs.dropWhile (· != 'e')).tail - places mantissa)

theorem bne_of_isDigit {c d : Char} (hc : c.isDigit = true) (hd : d.isDigit = false) :
    (c != d) = true := by
  rw [bne_iff_ne]
  rintro rfl
  exact absurd hc (by simp [hd])

/-- A mantissa is read for its digits and for the place of the point. -/
structure Mantissa (cs digits : List Char) (fraction : Nat) : Prop where
  plain : ∀ c ∈ cs, (c != 'e') = true
  digits : cs.filter Char.isDigit = digits
  places : places cs = fraction

variable {whole fraction mantissa : List Char}

theorem mantissa_of_whole (h : ∀ c ∈ whole, c.isDigit = true) : Mantissa whole whole 0 where
  plain c hc := bne_of_isDigit (h c hc) (by decide)
  digits := List.filter_eq_self.2 h
  places := by
    rw [places, List.dropWhile_eq_nil_iff.2 fun c hc => bne_of_isDigit (h c hc) (by decide)]
    rfl

theorem mantissa_of_point (hw : ∀ c ∈ whole, c.isDigit = true)
    (hf : ∀ c ∈ fraction, c.isDigit = true) :
    Mantissa (whole ++ '.' :: fraction) (whole ++ fraction) fraction.length where
  plain c hc := by
    rcases List.mem_append.1 hc with h | h
    · exact bne_of_isDigit (hw c h) (by decide)
    · rcases List.mem_cons.1 h with rfl | h
      · decide
      · exact bne_of_isDigit (hf c h) (by decide)
  digits := by
    rw [List.filter_append, List.filter_eq_self.2 hw, List.filter_cons_of_neg (by decide),
      List.filter_eq_self.2 hf]
  places := by
    rw [places, List.dropWhile_append_of_pos fun c hc => bne_of_isDigit (hw c hc) (by decide),
      List.dropWhile_cons_of_neg (by decide)]
    rfl

theorem valueOf_mantissa {digits : List Char} {n : Nat} (h : Mantissa mantissa digits n) :
    valueOf mantissa = Nat.ofDigitChars 10 digits 0 * 10 ^ (-(n : Int)) := by
  rw [valueOf, List.takeWhile_eq_self_iff.2 h.plain, List.dropWhile_eq_nil_iff.2 h.plain, h.digits,
    h.places]
  simp [exponentOf]

theorem valueOf_exponent {digits : List Char} {n : Nat} (h : Mantissa mantissa digits n)
    (exponent : List Char) :
    valueOf (mantissa ++ 'e' :: exponent) =
      Nat.ofDigitChars 10 digits 0 * 10 ^ (exponentOf exponent - n) := by
  rw [valueOf, List.takeWhile_append_of_pos h.plain, List.dropWhile_append_of_pos h.plain,
    List.takeWhile_cons_of_neg (p := fun c => c != 'e') (by decide),
    List.dropWhile_cons_of_neg (p := fun c => c != 'e') (by decide), List.append_nil, h.digits,
    h.places]
  rfl

theorem isDigit_of_mem_replicate {n : Nat} {c : Char} (h : c ∈ List.replicate n '0') :
    c.isDigit = true := by
  rw [List.eq_of_mem_replicate h]
  decide

theorem ofDigitChars_zeros (n : Nat) (cs : List Char) :
    Nat.ofDigitChars 10 (List.replicate n '0' ++ cs) 0 = Nat.ofDigitChars 10 cs 0 := by
  rw [Nat.ofDigitChars_append, Nat.ofDigitChars_replicate_zero, Nat.mul_zero]

/-- The exponent is written with its sign and with zeros before a single digit. -/
theorem exponentOf_written (e : Int) (n : Nat) :
    exponentOf ((if e < 0 then '-' else '+') ::
      (List.replicate n '0' ++ Nat.toDigits 10 e.natAbs)) = e := by
  rw [exponentOf, List.tail_cons, ofDigitChars_zeros,
    Nat.ofDigitChars_toDigits (by decide) (by decide)]
  by_cases negative : e < 0
  · rw [if_pos negative, List.head?_cons, if_pos rfl]
    omega
  · rw [if_neg negative, List.head?_cons, if_neg (by decide)]
    omega

/-! ## The four forms -/

section Forms

variable {d : Decimal}

theorem text_of_small (far : -4 < d.point) (small : d.point ≤ 0) :
    d.text.toList = ['0'] ++ '.' :: (List.replicate (-d.point).toNat '0' ++ d.digits) := by
  have ordinary : -4 < d.point ∧ d.point ≤ 16 := ⟨far, by omega⟩
  simp [text, ordinary, small]

theorem text_of_whole {k : Nat} (positive : 0 < d.point) (near : d.point ≤ 16)
    (moved : d.point = d.digits.length + k) :
    d.text.toList = d.digits ++ List.replicate k '0' ++ '.' :: ['0'] := by
  have ordinary : -4 < d.point ∧ d.point ≤ 16 := ⟨by omega, near⟩
  have few : (d.digits.length : Int) ≤ d.point := by omega
  have zeros : (d.point - d.digits.length).toNat = k := by omega
  simp [text, ordinary, positive.not_ge, few, zeros]

theorem text_of_point (positive : 0 < d.point) (near : d.point ≤ 16)
    (many : d.point < d.digits.length) :
    d.text.toList = d.digits.take d.point.toNat ++ '.' :: d.digits.drop d.point.toNat := by
  have ordinary : -4 < d.point ∧ d.point ≤ 16 := ⟨by omega, near⟩
  simp [text, ordinary, positive.not_ge, many.not_ge]

/-- The digits of a decimal with an exponent: the point stands after the first one. -/
def pointed : List Char → List Char
  | [] => ['0']
  | [c] => [c]
  | c :: rest => c :: '.' :: rest

/-- The exponent after its letter. -/
def writtenExponent (e : Int) : List Char :=
  (if e < 0 then '-' else '+') ::
    (List.replicate (2 - (Nat.toDigits 10 e.natAbs).length) '0' ++ Nat.toDigits 10 e.natAbs)

theorem text_of_far (far : ¬(-4 < d.point ∧ d.point ≤ 16)) :
    d.text.toList = pointed d.digits ++ 'e' :: writtenExponent (d.point - 1) := by
  have sign (below : Prop) [Decidable below] :
      (if below then "e-" else "e+").toList = ['e', if below then '-' else '+'] := by split <;> rfl
  rcases hd : d.digits with _ | ⟨c, _ | ⟨c', rest⟩⟩ <;>
    simp [text, hd, far, sign, pointed, writtenExponent]

end Forms

/-! ## Each form is read for its value -/

section Value

variable {d : Decimal} (h : ∀ c ∈ d.digits, c.isDigit = true)
include h

theorem valueOf_text_of_small (far : -4 < d.point) (small : d.point ≤ 0) :
    valueOf d.text.toList = d.value := by
  have zero : ∀ c ∈ ['0'], c.isDigit = true := fun _ => isDigit_of_mem_replicate (n := 1)
  have fraction : ∀ c ∈ List.replicate (-d.point).toNat '0' ++ d.digits, c.isDigit = true :=
    List.forall_mem_append.2 ⟨fun _ => isDigit_of_mem_replicate, h⟩
  rw [text_of_small far small, valueOf_mantissa (mantissa_of_point zero fraction), value,
    ← List.append_assoc, ← List.replicate_one, ← List.replicate_add, ofDigitChars_zeros,
    List.length_append, List.length_replicate]
  congr 2
  omega

theorem valueOf_text_of_whole {k : Nat} (positive : 0 < d.point) (near : d.point ≤ 16)
    (moved : d.point = d.digits.length + k) : valueOf d.text.toList = d.value := by
  have zero : ∀ c ∈ ['0'], c.isDigit = true := fun _ => isDigit_of_mem_replicate (n := 1)
  have whole : ∀ c ∈ d.digits ++ List.replicate k '0', c.isDigit = true :=
    List.forall_mem_append.2 ⟨h, fun _ => isDigit_of_mem_replicate⟩
  have power : d.point - d.digits.length = k := by omega
  rw [text_of_whole positive near moved, valueOf_mantissa (mantissa_of_point whole zero), value,
    power, List.append_assoc, ← List.replicate_one, ← List.replicate_add, Nat.ofDigitChars_append,
    Nat.ofDigitChars_replicate_zero, List.length_replicate, zpow_neg, zpow_natCast, zpow_natCast]
  push_cast
  ring

theorem valueOf_text_of_point (positive : 0 < d.point) (near : d.point ≤ 16)
    (many : d.point < d.digits.length) : valueOf d.text.toList = d.value := by
  have whole : ∀ c ∈ d.digits.take d.point.toNat, c.isDigit = true :=
    fun c hc => h c (List.mem_of_mem_take hc)
  have fraction : ∀ c ∈ d.digits.drop d.point.toNat, c.isDigit = true :=
    fun c hc => h c (List.mem_of_mem_drop hc)
  rw [text_of_point positive near many, valueOf_mantissa (mantissa_of_point whole fraction), value,
    List.take_append_drop, List.length_drop]
  congr 2
  omega

/-- The place of the point is made up for by the exponent, which is one less. -/
theorem mantissa_pointed : ∃ digits n, Mantissa (pointed d.digits) digits n ∧
    Nat.ofDigitChars 10 digits 0 * (10 : Rat) ^ (d.point - 1 - n) = d.value := by
  rw [value]
  rcases hd : d.digits with _ | ⟨c, rest⟩
  · have zero : ∀ c ∈ ['0'], c.isDigit = true := fun _ => isDigit_of_mem_replicate (n := 1)
    have none : Nat.ofDigitChars 10 ['0'] 0 = 0 := rfl
    exact ⟨['0'], 0, mantissa_of_whole zero, by simp [none]⟩
  · rw [hd, List.forall_mem_cons] at h
    have first : ∀ x ∈ [c], x.isDigit = true := List.forall_mem_singleton.2 h.1
    rcases rest with _ | ⟨c', rest⟩
    · exact ⟨[c], 0, mantissa_of_whole first, by simp⟩
    · refine ⟨_, _, mantissa_of_point first h.2, ?_⟩
      rw [List.singleton_append, List.length_cons (a := c)]
      congr 2
      push_cast
      ring

theorem valueOf_text_of_far (far : ¬(-4 < d.point ∧ d.point ≤ 16)) :
    valueOf d.text.toList = d.value := by
  obtain ⟨digits, n, mantissa, value⟩ := mantissa_pointed h
  rw [text_of_far far, valueOf_exponent mantissa, writtenExponent, exponentOf_written, value]

/-- A written decimal is read as the number that it stands for. -/
theorem valueOf_text : valueOf d.text.toList = d.value := by
  by_cases ordinary : -4 < d.point ∧ d.point ≤ 16
  · obtain ⟨far, near⟩ := ordinary
    rcases le_or_gt d.point 0 with small | positive
    · exact valueOf_text_of_small h far small
    · rcases le_or_gt (d.digits.length : Int) d.point with few | many
      · obtain ⟨k, hk⟩ := Int.le.dest few
        exact valueOf_text_of_whole h positive near hk.symm
      · exact valueOf_text_of_point h positive near many
  · exact valueOf_text_of_far h ordinary

end Value

theorem valueOf_zero : valueOf "0.0".toList = 0 := by
  have zero : ∀ c ∈ ['0'], c.isDigit = true := List.forall_mem_singleton.2 (by decide)
  have written : "0.0".toList = ['0'] ++ '.' :: ['0'] := by decide
  have none : Nat.ofDigitChars 10 (['0'] ++ ['0']) 0 = 0 := by decide
  rw [written, valueOf_mantissa (mantissa_of_point zero zero), none, Nat.cast_zero, zero_mul]

/-- The text of a double is read as a number that rounds to it. -/
theorem contains_valueOf_shortest {q : Rat} (hq : 0 < q) (h : Double.Exact (.rational q)) :
    (neighbourhood q).contains (valueOf (shortest q).text.toList) = true := by
  rw [valueOf_text (isDigit_of_mem_shortest q)]
  exact contains_value_shortest hq h

/-- A written decimal starts with a digit, and has a point or an exponent. -/
theorem exists_cons_text {d : Decimal} (h : ∀ c ∈ d.digits, c.isDigit = true) :
    ∃ c rest, d.text.toList = c :: rest ∧ c.isDigit = true ∧ ('.' ∈ rest ∨ 'e' ∈ rest) := by
  by_cases ordinary : -4 < d.point ∧ d.point ≤ 16
  · obtain ⟨far, near⟩ := ordinary
    rcases le_or_gt d.point 0 with small | positive
    · exact ⟨'0', _, text_of_small far small, by decide, by simp⟩
    · rcases le_or_gt (d.digits.length : Int) d.point with few | many
      · obtain ⟨k, hk⟩ := Int.le.dest few
        rw [text_of_whole positive near hk.symm]
        rcases hd : d.digits with _ | ⟨c, rest⟩
        · obtain ⟨j, rfl⟩ : ∃ j, k = j + 1 := ⟨k - 1, by simp [hd] at hk; omega⟩
          exact ⟨'0', _, rfl, by decide, by simp⟩
        · exact ⟨c, _, rfl, h c (by simp [hd]), by simp⟩
      · rw [text_of_point positive near many]
        obtain ⟨j, hj⟩ : ∃ j, d.point.toNat = j + 1 := ⟨d.point.toNat - 1, by omega⟩
        rcases hd : d.digits with _ | ⟨c, rest⟩
        · simp [hd] at many
          omega
        · rw [hj]
          exact ⟨c, _, rfl, h c (by simp [hd]), by simp⟩
  · rw [text_of_far ordinary]
    rcases hd : d.digits with _ | ⟨c, _ | ⟨c', rest⟩⟩
    · exact ⟨'0', _, rfl, by decide, by simp⟩
    · exact ⟨c, _, rfl, h c (by simp [hd]), by simp⟩
    · exact ⟨c, _, rfl, h c (by simp [hd]), by simp⟩

end Decimal

namespace Double

open Decimal

theorem ofMagnitude_of_negative {num den : Nat} {q : Rat}
    (h : ofMagnitude true num den = .rational q) : ofMagnitude false num den = .rational (-q) := by
  unfold ofMagnitude at h ⊢
  simp only at h ⊢
  split at h
  · cases h
  · next some =>
    rw [if_neg some]
    split at h
    · cases h
    · next fits =>
      rw [if_neg fits]
      simp only [if_true, rational.injEq] at h
      simp [← h]

theorem exact_abs {q : Rat} (h : Exact (.rational q)) : Exact (.rational |q|) := by
  rcases le_or_gt 0 q with positive | negative
  · rwa [abs_of_nonneg positive]
  · rw [abs_of_neg negative]
    change ofMagnitude (decide (q < 0)) q.num.natAbs q.den = .rational q at h
    change ofMagnitude (decide (-q < 0)) (-q).num.natAbs (-q).den = .rational (-q)
    rw [decide_eq_true negative] at h
    rw [Rat.neg_num, Rat.neg_den, Int.natAbs_neg, decide_eq_false (by linarith)]
    exact ofMagnitude_of_negative h

/-- The text of a double without its sign. -/
def body (x : Double) : List Char :=
  match x.value? with
  | some q => if q = 0 then "0.0".toList else (shortest |q|).text.toList
  | none => if x.isNaN then "nan".toList else "inf".toList

theorem toList_text (x : Double) :
    x.text.toList = (if x.isNegative then ['-'] else []) ++ body x := by
  cases x with
  | rational q =>
    simp only [text, body, isNegative, value?, decide_eq_true_eq]
    rcases lt_trichotomy q 0 with negative | rfl | positive
    · simp [negative, negative.ne, abs_of_neg negative]
    · simp
    · simp [positive.ne', positive.not_gt, abs_of_pos positive]
  | negativeZero => rfl
  | infinity negative => cases negative <;> rfl
  | notANumber named => rfl

/-- What a finite double says of its size: it starts with a digit and has a point or an exponent,
and is read as nothing else than what rounds to that size. -/
theorem body_of_finite {x : Double} {q : Rat} (exact : x.Exact) (finite : x.value? = some q) :
    ∃ c rest, body x = c :: rest ∧ c.isDigit = true ∧ ('.' ∈ rest ∨ 'e' ∈ rest) ∧
      (q = 0 ∧ valueOf (body x) = 0 ∨
        0 < |q| ∧ Exact (.rational |q|) ∧
          (neighbourhood |q|).contains (valueOf (body x)) = true) := by
  have same : body x = if q = 0 then "0.0".toList else (shortest |q|).text.toList := by
    rw [body, finite]
  rw [same]
  split
  · next zero => exact ⟨'0', ['.', '0'], rfl, by decide, by simp, .inl ⟨zero, valueOf_zero⟩⟩
  · next some =>
    have rational : Exact (.rational |q|) := by
      cases x with
      | rational p =>
        cases finite
        exact exact_abs exact
      | negativeZero =>
        cases finite
        exact absurd rfl some
      | infinity | notANumber => cases finite
    obtain ⟨c, rest, written, digit, mark⟩ := exists_cons_text (isDigit_of_mem_shortest |q|)
    exact ⟨c, rest, written, digit, mark,
      .inr ⟨abs_pos.2 some, rational, contains_valueOf_shortest (abs_pos.2 some) rational⟩⟩

theorem abs_eq_of_body_eq {x y : Double} {p q : Rat} (hx : x.Exact) (hy : y.Exact)
    (hp : x.value? = some p) (hq : y.value? = some q) (h : body x = body y) : |p| = |q| := by
  obtain ⟨-, -, -, -, -, readx⟩ := body_of_finite hx hp
  obtain ⟨-, -, -, -, -, ready⟩ := body_of_finite hy hq
  have low {r : Rat} (hr : 0 < r) (e : Exact (.rational r))
      (read : (neighbourhood r).contains 0 = true) : False :=
    absurd (le_of_contains read).1 (low_pos hr e).not_ge
  rw [h] at readx
  rcases readx with ⟨rfl, zero⟩ | ⟨positive, exact, near⟩
  · rcases ready with ⟨rfl, -⟩ | ⟨positive', exact', near'⟩
    · rfl
    · exact (low positive' exact' (zero ▸ near')).elim
  · rcases ready with ⟨rfl, zero⟩ | ⟨positive', exact', near'⟩
    · exact (low positive exact (zero ▸ near)).elim
    · exact eq_of_contains positive positive' exact exact' near near'

theorem exists_cons_body {x : Double} (hx : x.Exact) :
    ∃ c rest, body x = c :: rest ∧ c ≠ '-' ∧ (c.isDigit = true ↔ x.value?.isSome = true) ∧
      ('.' ∈ rest ∨ 'e' ∈ rest ∨ 'n' ∈ rest) := by
  cases hv : x.value? with
  | some q =>
    obtain ⟨c, rest, written, digit, mark, -⟩ := body_of_finite hx hv
    refine ⟨c, rest, written, ?_, by simp [digit], by tauto⟩
    rintro rfl
    exact absurd digit (by decide)
  | none =>
    rw [body, hv]
    cases x.isNaN with
    | true => exact ⟨'n', ['a', 'n'], rfl, by decide, by decide, by simp⟩
    | false => exact ⟨'i', ['n', 'f'], rfl, by decide, by decide, by simp⟩

theorem eq_of_abs_eq {x y : Double} {p q : Rat} (hp : x.value? = some p) (hq : y.value? = some q)
    (sign : x.isNegative = y.isNegative) (size : |p| = |q|) : x = y := by
  cases x with
  | rational p =>
    cases hp
    cases y with
    | rational q =>
      cases hq
      rw [isNegative, isNegative, decide_eq_decide] at sign
      rcases abs_eq_abs.1 size with same | turned
      · rw [same]
      · have : q = 0 := by
          rcases lt_trichotomy q 0 with negative | zero | positive
          · linarith [sign.2 negative]
          · exact zero
          · linarith [sign.1 (by linarith)]
        rw [turned, this, neg_zero]
    | negativeZero =>
      cases hq
      rw [abs_zero, abs_eq_zero] at size
      rw [size] at sign
      cases sign
    | infinity | notANumber => cases hq
  | negativeZero =>
    cases hp
    cases y with
    | rational q =>
      cases hq
      rw [abs_zero, eq_comm, abs_eq_zero] at size
      rw [size] at sign
      cases sign
    | negativeZero => rfl
    | infinity | notANumber => cases hq
  | infinity | notANumber => cases hp

theorem isNegative_and_body_eq_of_text_eq {x y : Double} (hx : x.Exact) (hy : y.Exact)
    (h : x.text = y.text) : x.isNegative = y.isNegative ∧ body x = body y := by
  have chars := congrArg String.toList h
  obtain ⟨c, rest, bx, plain, -, -⟩ := exists_cons_body hx
  obtain ⟨c', rest', by', plain', -, -⟩ := exists_cons_body hy
  rw [toList_text, toList_text, bx, by'] at chars
  rw [bx, by']
  cases hsx : x.isNegative <;> cases hsy : y.isNegative <;> simp [hsx, hsy] at chars ⊢
  · exact chars
  · exact plain chars.1
  · exact plain' chars.1.symm
  · exact chars

theorem isSome_value?_of_body_eq {x y : Double} (hx : x.Exact) (hy : y.Exact)
    (h : body x = body y) : x.value?.isSome = y.value?.isSome := by
  obtain ⟨c, rest, bx, -, digit, -⟩ := exists_cons_body hx
  obtain ⟨c', rest', by', -, digit', -⟩ := exists_cons_body hy
  rw [bx, by', List.cons.injEq] at h
  rw [Bool.eq_iff_iff, ← digit, ← digit', h.1]

/-- Values without a size are told apart by their words. -/
theorem eq_or_isNaN_of_body_eq {x y : Double} (hx : x.value? = none) (hy : y.value? = none)
    (sign : x.isNegative = y.isNegative) (h : body x = body y) :
    x = y ∨ x.isNaN = true ∧ y.isNaN = true := by
  cases x with
  | rational | negativeZero => cases hx
  | infinity s =>
    cases y with
    | rational | negativeZero => cases hy
    | infinity t => exact .inl (congrArg infinity sign)
    | notANumber =>
      have words : "inf".toList = "nan".toList := h
      exact absurd words (by decide)
  | notANumber =>
    cases y with
    | rational | negativeZero => cases hy
    | infinity =>
      have words : "nan".toList = "inf".toList := h
      exact absurd words (by decide)
    | notANumber => exact .inr ⟨rfl, rfl⟩

/-- **Different doubles have different texts.** Only what is no number is always called the same. -/
theorem text_inj {x y : Double} (hx : x.Exact) (hy : y.Exact) (h : x.text = y.text) :
    x = y ∨ x.isNaN = true ∧ y.isNaN = true := by
  obtain ⟨sign, body⟩ := isNegative_and_body_eq_of_text_eq hx hy h
  have kind := isSome_value?_of_body_eq hx hy body
  cases hp : x.value? with
  | some p =>
    rw [hp] at kind
    obtain ⟨q, hq⟩ := Option.isSome_iff_exists.1 kind.symm
    exact .inl (eq_of_abs_eq hp hq sign (abs_eq_of_body_eq hx hy hp hq body))
  | none =>
    have hq : y.value? = none := Option.not_isSome_iff_eq_none.1 (by rw [← kind, hp]; simp)
    exact eq_or_isNaN_of_body_eq hp hq sign body

end Double

namespace Number

/-- A number whose double, if it is one, is a rounded one. -/
def Exact : Number → Prop
  | .int _ => True
  | .float x => x.Exact

instance : DecidablePred Exact := fun n => by
  cases n <;> unfold Exact <;> infer_instance

theorem toList_repr (n : Int) :
    n.repr.toList = (if n < 0 then ['-'] else []) ++ Nat.toDigits 10 n.natAbs := by
  cases n with
  | ofNat n => simp [Int.repr]
  | negSucc n => simp [Int.repr, Int.negSucc_lt_zero]

theorem isDigit_of_mem_toDigits {n : Nat} {c : Char} (h : c ∈ Nat.toDigits 10 n) :
    c.isDigit = true :=
  Nat.isDigit_of_mem_toDigits (by decide) (by decide) h

theorem repr_inj {m n : Int} (h : m.repr = n.repr) : m = n := by
  have chars := congrArg String.toList h
  rw [toList_repr, toList_repr] at chars
  have first (k : Nat) (cs : List Char) (hk : Nat.toDigits 10 k = '-' :: cs) : False :=
    absurd (isDigit_of_mem_toDigits (hk ▸ List.mem_cons_self)) (by decide)
  have digits {k l : Nat} (hkl : Nat.toDigits 10 k = Nat.toDigits 10 l) : k = l := by
    rw [← Nat.ofDigitChars_ten_toDigits (n := k), hkl, Nat.ofDigitChars_ten_toDigits]
  by_cases hm : m < 0 <;> by_cases hn : n < 0 <;>
    simp only [hm, hn, if_true, if_false, List.nil_append, List.singleton_append,
      List.cons.injEq, true_and] at chars
  · have := digits chars
    omega
  · exact (first _ _ chars.symm).elim
  · exact (first _ _ chars).elim
  · have := digits chars
    omega

/-- The text of a double has a character that no text of an integer has. -/
theorem repr_ne_text (n : Int) {x : Double} (hx : x.Exact) : n.repr ≠ x.text := by
  intro h
  have chars := congrArg String.toList h
  obtain ⟨c, rest, written, -, -, mark⟩ := Double.exists_cons_body hx
  have plain : ∀ d ∈ n.repr.toList, d = '-' ∨ d.isDigit = true := by
    intro d hd
    rw [toList_repr] at hd
    rcases List.mem_append.1 hd with sign | digit
    · split at sign
      · exact .inl (List.mem_singleton.1 sign)
      · cases sign
    · exact .inr (isDigit_of_mem_toDigits digit)
  rw [chars, Double.toList_text, written] at plain
  have own {d : Char} (hd : d ∈ rest) : d = '-' ∨ d.isDigit = true :=
    plain d (List.mem_append_right _ (List.mem_cons_of_mem c hd))
  rcases mark with point | exponent | letter
  · exact absurd (own point) (by decide)
  · exact absurd (own exponent) (by decide)
  · exact absurd (own letter) (by decide)

/-- **Different numbers have different texts.** Only what is no number is always called the same. -/
theorem text_inj {m n : Number} (hm : m.Exact) (hn : n.Exact) (h : m.text = n.text) :
    m = n ∨ m.place = none ∧ n.place = none := by
  have nowhere {x : Double} (hx : x.isNaN = true) : place (.float x) = none := by
    cases x with
    | notANumber => rfl
    | rational | negativeZero | infinity => cases hx
  cases m with
  | int i =>
    cases n with
    | int j => exact .inl (congrArg int (repr_inj h))
    | float y => exact absurd h (repr_ne_text i hn)
  | float x =>
    cases n with
    | int j => exact absurd h.symm (repr_ne_text j hm)
    | float y => exact (Double.text_inj hm hn h).imp (congrArg float) (And.imp nowhere nowhere)

/-- Whether a number can start with a character: a digit, a minus sign, or a word's first letter. -/
def starts (c : Char) : Bool := c.isDigit || c = '-' || c = 'i' || c = 'n'

theorem exists_cons_text {n : Number} (hn : n.Exact) :
    ∃ c rest, n.text.toList = c :: rest ∧ starts c = true ∧ (c = 'n' → rest = ['a', 'n']) := by
  have sign (rest : List Char) : ∃ c tail, ['-'] ++ rest = c :: tail ∧ starts c = true ∧
      (c = 'n' → tail = ['a', 'n']) := ⟨'-', rest, rfl, by decide, by simp⟩
  have digit {c : Char} {rest cs : List Char} (hc : c.isDigit = true) (hcs : cs = c :: rest) :
      ∃ c tail, [] ++ cs = c :: tail ∧ starts c = true ∧ (c = 'n' → tail = ['a', 'n']) := by
    refine ⟨c, rest, hcs, by simp [starts, hc], ?_⟩
    rintro rfl
    exact absurd hc (by decide)
  cases n with
  | int i =>
    rw [text, toList_repr]
    split
    · exact sign _
    · cases hd : Nat.toDigits 10 i.natAbs with
      | nil => exact absurd hd Nat.toDigits_ne_nil
      | cons c rest => exact digit (isDigit_of_mem_toDigits (hd ▸ List.mem_cons_self)) rfl
  | float x =>
    rw [text, Double.toList_text]
    split
    · exact sign _
    · cases hv : x.value? with
      | some q =>
        obtain ⟨c, rest, written, hc, -, -⟩ := Double.body_of_finite hn hv
        exact digit hc written
      | none =>
        rw [Double.body, hv]
        cases x.isNaN with
        | true => exact ⟨'n', ['a', 'n'], rfl, by decide, fun _ => rfl⟩
        | false => exact ⟨'i', ['n', 'f'], rfl, by decide, by decide⟩

end Number

end DesignTree
