import DesignTree.Text.CodePoint

/-! # Texts

A text is a sequence of code points. It differs from a string of characters in that it may hold
surrogates, which documents can name one by one; such a text cannot be encoded.
-/

namespace DesignTree

/-- A sequence of code points. -/
structure Text where
  ofList ::
  toList : List CodePoint
  deriving DecidableEq

namespace Text

/-- The text of the characters of a string. -/
def ofString (s : String) : Text := ofList (s.toList.map .ofChar)

instance : Coe String Text := ⟨ofString⟩

instance : Inhabited Text := ⟨ofList []⟩

instance : Append Text := ⟨fun s t => ofList (s.toList ++ t.toList)⟩

/-- The number of code points. -/
def length (s : Text) : Nat := s.toList.length

def isEmpty (s : Text) : Bool := s.toList.isEmpty

/-- Texts one after the other. -/
def join (ts : List Text) : Text := ofList (ts.flatMap (·.toList))

/-- Texts one after the other, with a text between them. -/
def intercalate (between : Text) (ts : List Text) : Text :=
  ofList (between.toList.intercalate (ts.map (·.toList)))

/-- Whether a text comes before another one or is the same. The first code points in which they
differ decide, and the start of a text comes before it. -/
def atMost (s t : Text) : Bool := go s.toList t.toList
where
  go : List CodePoint → List CodePoint → Bool
    | [], _ => true
    | _ :: _, [] => false
    | p :: ps, q :: qs => if p = q then go ps qs else decide (p < q)

instance : LE Text := ⟨fun s t => s.atMost t⟩

instance (s t : Text) : Decidable (s ≤ t) := inferInstanceAs (Decidable (s.atMost t = true))

/-- Whether a text holds a surrogate. -/
def hasSurrogate (s : Text) : Bool := s.toList.any (·.isSurrogate)

/-- The string of the characters of a text, if it holds no surrogate. -/
def toString? (s : Text) : Option String := (s.toList.mapM CodePoint.toChar?).map String.ofList

/-- The string of a text, in which a question mark stands for each surrogate. -/
def visible (s : Text) : String := String.ofList (s.toList.map fun p => p.toChar?.getD '?')

/-- A text, the last code point first, with one more unit at its end. The second unit of a pair
joins with the first one before it. -/
def pushUnit (done : List CodePoint) (unit : CodePoint) : List CodePoint :=
  match done with
  | high :: before =>
    if high.isHighSurrogate && unit.isLowSurrogate then .ofPair high unit :: before
    else unit :: done
  | [] => [unit]

instance : Repr Text where
  reprPrec s _ := match s.toString? with
    | some s => repr s
    | none => repr s.toList

@[simp]
theorem toList_append (s t : Text) : (s ++ t).toList = s.toList ++ t.toList := rfl

@[simp]
theorem length_append (s t : Text) : (s ++ t).length = s.length + t.length := by
  simp [length]

theorem toString?_ofString (s : String) : (ofString s).toString? = some s := by
  have h : ∀ cs : List Char, (cs.map CodePoint.ofChar).mapM CodePoint.toChar? = some cs := by
    intro cs
    induction cs with
    | nil => rfl
    | cons c rest ih => simp [List.mapM_cons, ih]
  simp [toString?, ofString, h]

theorem ofString_inj {s t : String} : ofString s = ofString t ↔ s = t := by
  constructor
  · intro h
    have hs := congrArg toString? h
    simpa [toString?_ofString] using hs
  · exact congrArg ofString

theorem ext_iff {s t : Text} : s = t ↔ s.toList = t.toList := by
  cases s; cases t; simp

theorem isEmpty_iff {s : Text} : s.isEmpty = true ↔ s = "" := by
  rw [isEmpty, List.isEmpty_iff, ext_iff]
  rfl

theorem isEmpty_eq_false_iff {s : Text} : s.isEmpty = false ↔ s ≠ "" := by
  rw [← Bool.not_eq_true, isEmpty_iff]

theorem append_right_inj {s t u : Text} : s ++ t = s ++ u ↔ t = u := by
  rw [ext_iff, ext_iff, toList_append, toList_append, List.append_right_inj]

theorem append_assoc (s t u : Text) : s ++ t ++ u = s ++ (t ++ u) := by
  rw [ext_iff]
  simp only [toList_append, List.append_assoc]

theorem go_total (ps qs : List CodePoint) : atMost.go ps qs = true ∨ atMost.go qs ps = true := by
  induction ps generalizing qs with
  | nil => exact .inl rfl
  | cons p ps ih =>
    cases qs with
    | nil => exact .inr rfl
    | cons q qs =>
      simp only [atMost.go]
      by_cases h : p = q
      · simpa [h] using ih qs
      · simpa [h, Ne.symm h] using CodePoint.lt_or_gt_of_ne h

theorem go_antisymm {ps qs : List CodePoint} (h : atMost.go ps qs = true)
    (h' : atMost.go qs ps = true) : ps = qs := by
  induction ps generalizing qs with
  | nil =>
    cases qs with
    | nil => rfl
    | cons q qs => cases h'
  | cons p ps ih =>
    cases qs with
    | nil => cases h
    | cons q qs =>
      simp only [atMost.go] at h h'
      by_cases he : p = q
      · rw [if_pos he] at h
        rw [if_pos he.symm] at h'
        rw [he, ih h h']
      · rw [if_neg he, decide_eq_true_eq] at h
        rw [if_neg (Ne.symm he), decide_eq_true_eq] at h'
        exact absurd (Nat.lt_trans h h') (Nat.lt_irrefl _)

theorem go_trans {ps qs rs : List CodePoint} (h : atMost.go ps qs = true)
    (h' : atMost.go qs rs = true) : atMost.go ps rs = true := by
  induction ps generalizing qs rs with
  | nil => rfl
  | cons p ps ih =>
    cases qs with
    | nil => cases h
    | cons q qs =>
      cases rs with
      | nil => cases h'
      | cons r rs =>
        simp only [atMost.go] at h h' ⊢
        -- the first place where two of the lists differ decides about the outer ones
        by_cases hpq : p = q <;> by_cases hqr : q = r
        · rw [if_pos hpq] at h
          rw [if_pos hqr] at h'
          rw [if_pos (hpq.trans hqr)]
          exact ih h h'
        · rw [if_neg hqr] at h'
          rw [hpq, if_neg hqr]
          exact h'
        · rw [if_neg hpq] at h
          rw [← hqr, if_neg hpq]
          exact h
        · rw [if_neg hpq, decide_eq_true_eq] at h
          rw [if_neg hqr, decide_eq_true_eq] at h'
          have hlt : p < r := Nat.lt_trans h h'
          have hne : p ≠ r := fun he => Nat.lt_irrefl _ (he ▸ hlt : r.toNat < r.toNat)
          rw [if_neg hne]
          exact decide_eq_true hlt

theorem le_total (s t : Text) : s ≤ t ∨ t ≤ s := go_total s.toList t.toList

theorem le_antisymm {s t : Text} (hs : s ≤ t) (ht : t ≤ s) : s = t :=
  ext_iff.2 (go_antisymm hs ht)

theorem le_trans {s t u : Text} (hs : s ≤ t) (ht : t ≤ u) : s ≤ u := go_trans hs ht

end Text

end DesignTree
