import DesignTree.Proofs.Number.Basic

/-! # Differences

Integers have exact differences. Other numbers are subtracted as doubles, and the difference lies
where it should if neither the numbers nor the difference have to be rounded
(`Number.place_sub?`).
-/

namespace DesignTree

namespace Double

theorem value?_neg (x : Double) : (-x).value? = x.value?.map (-·) := by
  cases x with
  | rational q =>
    by_cases hq : q = 0
    · subst hq
      rfl
    · change (neg (.rational q)).value? = _
      rw [neg, if_neg hq]
      rfl
  | negativeZero => rfl
  | infinity negative => rfl
  | notANumber named => rfl

/-- A sum of finite doubles is where it should be, unless it has to be rounded. -/
theorem value?_add {x y : Double} {p q : Rat} (hx : x.value? = some p) (hy : y.value? = some q)
    (exact : (ofRat (p + q)).value? = some (p + q)) : (x + y).value? = some (p + q) := by
  cases x with
  | infinity | notANumber => cases hx
  | rational p' =>
    obtain rfl : p' = p := Option.some.inj hx
    cases y with
    | infinity | notANumber => cases hy
    | rational q' =>
      obtain rfl : q' = q := Option.some.inj hy
      exact exact
    | negativeZero =>
      obtain rfl : 0 = q := Option.some.inj hy
      rw [Rat.add_zero]
      rfl
  | negativeZero =>
    obtain rfl : 0 = p := Option.some.inj hx
    rw [Rat.zero_add]
    cases y with
    | infinity | notANumber => cases hy
    | rational | negativeZero => exact hy

end Double

namespace Number

theorem place_float (x : Double) (q : Rat) :
    (Number.float x).place = some (.at q) ↔ x.value? = some q := by
  cases x with
  | rational p => simp [place, Double.value?]
  | negativeZero => simp [place, Double.value?]
  | infinity negative => cases negative <;> simp [place, Double.value?]
  | notANumber named => simp [place, Double.value?]

theorem place_neg {n : Number} {q : Rat} (h : n.place = some (.at q)) :
    n.neg.place = some (.at (-q)) := by
  cases n with
  | int i =>
    obtain rfl : (i : Rat) = q := by simpa [place] using h
    simp [neg, place]
  | float x =>
    rw [place_float] at h
    rw [neg, place_float, Double.value?_neg, h, Option.map_some]

/-- Neither two numbers nor their difference, which lies at `q`, have to be rounded: the numbers are
integers, or all three have exact doubles. -/
def Unrounded (a b : Number) (q : Rat) : Prop :=
  (∃ m n, a = .int m ∧ b = .int n) ∨
    (float a.toDouble).place = a.place ∧ (float b.toDouble).place = b.place ∧
      (float (Double.ofRat q)).place = some (.at q)

theorem fitsDouble_of_place {n : Number} {q : Rat}
    (h : (float n.toDouble).place = some (.at q)) : n.fitsDouble = true := by
  cases n with
  | float x => rfl
  | int i =>
    rw [fitsDouble_int]
    rw [place_float, toDouble] at h
    cases hd : Double.ofInt i with
    | infinity =>
      rw [hd] at h
      cases h
    | rational | negativeZero | notANumber => rfl

/-- Numbers with doubles near them that are not both integers are subtracted by doubles. -/
theorem sub?_eq_float {a b : Number} (ha : a.fitsDouble) (hb : b.fitsDouble)
    (h : ¬∃ m n, a = .int m ∧ b = .int n) :
    a.sub? b = some (.float (a.toDouble - b.toDouble)) := by
  have apart (a b : Number) (ha : a.fitsDouble) (hb : b.fitsDouble) :
      (if a.fitsDouble && b.fitsDouble then some (float (a.toDouble - b.toDouble)) else none) =
        some (float (a.toDouble - b.toDouble)) := by
    rw [ha, hb]
    rfl
  cases a with
  | float x => exact apart (.float x) b ha hb
  | int m =>
    cases b with
    | float y => exact apart (.int m) (.float y) ha hb
    | int n => exact absurd ⟨m, n, rfl, rfl⟩ h

/-- A difference is exact where nothing has to be rounded. -/
theorem place_sub? {a b : Number} {p q : Rat} (ha : a.place = some (.at p))
    (hb : b.place = some (.at q)) (h : Unrounded a b (p - q)) :
    ∃ d, a.sub? b = some d ∧ d.place = some (.at (p - q)) := by
  by_cases ints : ∃ m n, a = .int m ∧ b = .int n
  · obtain ⟨m, n, rfl, rfl⟩ := ints
    obtain rfl : (m : Rat) = p := by simpa [place] using ha
    obtain rfl : (n : Rat) = q := by simpa [place] using hb
    exact ⟨.int (m - n), rfl, by simp [place]⟩
  · obtain ⟨exactA, exactB, exact⟩ := h.resolve_left ints
    rw [ha] at exactA
    rw [hb] at exactB
    refine ⟨_, sub?_eq_float (fitsDouble_of_place exactA) (fitsDouble_of_place exactB) ints, ?_⟩
    rw [place_float] at exactA exactB exact ⊢
    have negated : (-b.toDouble).value? = some (-q) := by
      rw [Double.value?_neg, exactB, Option.map_some]
    rw [Rat.sub_eq_add_neg] at exact ⊢
    exact Double.value?_add exactA negated exact

end Number

end DesignTree
