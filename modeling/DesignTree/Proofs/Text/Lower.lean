import DesignTree.Text.Case
import DesignTree.Text.Search
import Mathlib.Data.List.Basic

/-! # Lower-case forms

A character that changes in lower case becomes characters beyond `Z`, and so do all capitals. What
lower-case forms hold up to `Z` they have from the text itself, and it is no capital
(`Text.eq_or_lt_of_mem_lowerFrom`): lower case makes no dashes, no full stops and no capitals. What
stands in a lower-case form is small (`Text.IsSmall`), so that the form is its own lower-case form.
-/

namespace DesignTree.Text

/-- Whether a character is one of the capitals `A` to `Z`. -/
def isCapital (c : CodePoint) : Bool := 'A' ≤ c && c ≤ 'Z'

/-- The lower-case form of a character at the head of `c :: rest`. -/
def lowerHead (afterLetter : Bool) (c : CodePoint) (rest : List CodePoint) : List CodePoint :=
  if c = 'Σ' then [if afterLetter && !letterFollows rest then 'ς' else 'σ'] else lowerChar c

theorem lowerFrom_cons (afterLetter : Bool) (c : CodePoint) (rest : List CodePoint) :
    lowerFrom afterLetter (c :: rest) = lowerHead afterLetter c rest ++
      lowerFrom (if isCaseIgnorable c then afterLetter else isCased c) rest := rfl

/-- The lower-case forms of a range are characters beyond `Z`. -/
theorem lt_forms {r : CaseRange} (hr : r ∈ lowerRanges) :
    90 < r.first + r.shift ∧ r.last + r.shift < 0x110000 := by
  have ranges : ∀ r ∈ lowerRanges, 90 < r.first + r.shift ∧ r.last + r.shift < 0x110000 := by
    decide +kernel
  exact ranges r hr

/-- What changes in lower case comes to stand beyond `Z`. -/
theorem lt_of_partner? {n m : Nat} {r : CaseRange} (hr : r ∈ lowerRanges)
    (h : r.partner? n = some m) : 90 < m ∧ m < 0x110000 := by
  have range := lt_forms hr
  unfold CaseRange.partner? at h
  split at h
  · next inside =>
    cases h
    omega
  · cases h

/-- A capital has another lower-case form. -/
theorem exists_partner?_of_isCapital {c : CodePoint} (h : isCapital c = true) :
    ∃ r ∈ lowerRanges, r.partner? c.toNat ≠ none := by
  rw [isCapital, Bool.and_eq_true, decide_eq_true_eq, decide_eq_true_eq] at h
  have inside : 0x41 ≤ c.toNat ∧ c.toNat ≤ 0x5A ∧ (c.toNat - 0x41) % 1 = 0 :=
    ⟨h.1, h.2, Nat.mod_one _⟩
  refine ⟨⟨0x41, 0x5A, 1, 32⟩, List.mem_cons_self, ?_⟩
  rw [CaseRange.partner?, if_pos inside]
  exact Option.some_ne_none _

theorem eq_or_lt_partner (c : CodePoint) :
    90 < (partner lowerRanges c).toNat ∨
      partner lowerRanges c = c ∧ isCapital (partner lowerRanges c) = false := by
  unfold partner
  split
  · next n hn =>
    obtain ⟨r, hr, hp⟩ := List.exists_of_findSome?_eq_some hn
    obtain ⟨beyond, bound⟩ := lt_of_partner? hr hp
    have number : (CodePoint.ofNat n).toNat = n := by rw [CodePoint.ofNat, dif_pos bound]
    exact .inl (by rwa [number])
  · next none =>
    refine .inr ⟨rfl, Bool.eq_false_iff.2 fun capital => ?_⟩
    obtain ⟨r, hr, hp⟩ := exists_partner?_of_isCapital capital
    exact hp (List.findSome?_eq_none_iff.1 none r hr)

/-- What stands in the lower-case form of a character stands beyond `Z`, or it is the character
itself and no capital. -/
theorem eq_or_lt_of_mem_lowerHead {afterLetter : Bool} {c d : CodePoint} {rest : List CodePoint}
    (h : d ∈ lowerHead afterLetter c rest) : 90 < d.toNat ∨ d = c ∧ isCapital d = false := by
  unfold lowerHead lowerChar at h
  split at h
  · obtain rfl := List.mem_singleton.1 h
    split <;> exact .inl (by decide)
  · split at h
    · simp only [List.mem_cons, List.not_mem_nil, or_false] at h
      rcases h with rfl | rfl <;> exact .inl (by decide)
    · obtain rfl := List.mem_singleton.1 h
      exact eq_or_lt_partner c

theorem lowerHead_ne_nil (afterLetter : Bool) (c : CodePoint) (rest : List CodePoint) :
    lowerHead afterLetter c rest ≠ [] := by
  unfold lowerHead lowerChar
  split
  · exact List.cons_ne_nil _ _
  · split <;> exact List.cons_ne_nil _ _

/-- What stands in a lower-case form stands beyond `Z`, or it comes from the text and is no
capital. -/
theorem eq_or_lt_of_mem_lowerFrom {afterLetter : Bool} {d : CodePoint} {cs : List CodePoint}
    (h : d ∈ lowerFrom afterLetter cs) : 90 < d.toNat ∨ d ∈ cs ∧ isCapital d = false := by
  induction cs generalizing afterLetter with
  | nil => exact absurd h List.not_mem_nil
  | cons c rest ih =>
    rw [lowerFrom_cons, List.mem_append] at h
    rcases h with h | h
    · exact (eq_or_lt_of_mem_lowerHead h).imp_right fun ⟨he, hc⟩ =>
        ⟨he ▸ List.mem_cons_self, hc⟩
    · exact (ih h).imp_right fun ⟨hd, hc⟩ => ⟨List.mem_cons_of_mem c hd, hc⟩

/-- Lower case drops no character: in place of each one stands the character itself, or something
beyond `Z`. -/
theorem exists_mem_lowerFrom (afterLetter : Bool) {c : CodePoint} {cs : List CodePoint}
    (h : c ∈ cs) : ∃ d ∈ lowerFrom afterLetter cs, 90 < d.toNat ∨ d = c := by
  induction cs generalizing afterLetter with
  | nil => exact absurd h List.not_mem_nil
  | cons first rest ih =>
    simp only [lowerFrom_cons, List.mem_append]
    rcases List.mem_cons.1 h with rfl | h
    · obtain ⟨d, hd⟩ := List.exists_mem_of_ne_nil _ (lowerHead_ne_nil afterLetter c rest)
      exact ⟨d, .inl hd, (eq_or_lt_of_mem_lowerHead hd).imp_right And.left⟩
    · obtain ⟨d, hd, origin⟩ := ih _ h
      exact ⟨d, .inr hd, origin⟩

/-- A lower-case form has no capitals. -/
theorem isCapital_of_mem_lowerFrom {afterLetter : Bool} {d : CodePoint} {cs : List CodePoint}
    (h : d ∈ lowerFrom afterLetter cs) : isCapital d = false := by
  rcases eq_or_lt_of_mem_lowerFrom h with beyond | ⟨-, small⟩
  · rw [isCapital, Bool.and_eq_false_iff]
    exact .inr (decide_eq_false (Nat.not_le.2 beyond))
  · exact small

/-- A character up to `Z` at the start of a lower-case form is the first one of the text. -/
theorem head?_of_lowerFrom {afterLetter : Bool} {d : CodePoint} {cs : List CodePoint}
    (h : (lowerFrom afterLetter cs).head? = some d) (hd : d.toNat ≤ 90) : cs.head? = some d := by
  cases cs with
  | nil => cases h
  | cons c rest =>
    rw [lowerFrom_cons, List.head?_append_of_ne_nil _ (lowerHead_ne_nil afterLetter c rest)] at h
    rcases eq_or_lt_of_mem_lowerHead (List.mem_of_mem_head? h) with beyond | ⟨rfl, -⟩
    · omega
    · rfl

/-- Where there are no capitals nothing is marked. -/
theorem markCapitals_of_forall {mark : Char} {cs : List CodePoint}
    (h : ∀ c ∈ cs, isCapital c = false) : markCapitals mark cs = cs := by
  induction cs with
  | nil => rfl
  | cons c rest ih =>
    rw [List.forall_mem_cons, isCapital, ← Bool.decide_and, decide_eq_false_iff_not] at h
    rw [markCapitals, List.flatMap_cons, if_neg h.1]
    exact congrArg (c :: ·) (ih h.2)

/-- Marking capitals brings in nothing but the mark. -/
theorem eq_or_mem_of_mem_markCapitals {mark : Char} {d : CodePoint} {cs : List CodePoint}
    (h : d ∈ markCapitals mark cs) : d = .ofChar mark ∨ d ∈ cs := by
  obtain ⟨c, hc, hd⟩ := List.mem_flatMap.1 h
  split at hd
  · rcases List.mem_cons.1 hd with rfl | hd
    · exact .inl rfl
    · exact .inr (List.mem_singleton.1 hd ▸ hc)
  · exact .inr (List.mem_singleton.1 hd ▸ hc)

/-- Marking capitals drops no character. -/
theorem mem_markCapitals (mark : Char) {c : CodePoint} {cs : List CodePoint} (h : c ∈ cs) :
    c ∈ markCapitals mark cs := by
  refine List.mem_flatMap.2 ⟨c, h, ?_⟩
  split
  · exact List.mem_cons_of_mem _ (List.mem_singleton_self c)
  · exact List.mem_singleton_self c

/-! ## Lower case again -/

/-- Whether forms of the first range may belong to the second one: the two overlap, and not so that
each form stands between members of the second one. -/
def CaseRange.reaches (r q : CaseRange) : Bool :=
  let low := (r.first + r.shift).toNat
  Nat.ble q.first (r.last + r.shift).toNat && Nat.ble low q.last &&
    !(q.step == 2 && (r.first == r.last || r.step == 2) && (low + q.first) % 2 == 1)

theorem partner?_eq_none_of_reaches {n m : Nat} {r q : CaseRange} (hr : r ∈ lowerRanges)
    (hm : r.reaches q = false) (h : r.partner? n = some m) : q.partner? m = none := by
  have beyond := (lt_forms hr).1
  simp only [CaseRange.reaches, ← Bool.not_eq_true, Bool.and_eq_true, Bool.or_eq_true, beq_iff_eq,
    Nat.ble_eq, Bool.not_eq_true'] at hm
  unfold CaseRange.partner? at h ⊢
  split at h
  · next inside =>
    cases h
    refine if_neg fun ⟨low, high, member⟩ => hm ⟨⟨?_, ?_⟩, ?_⟩
    · omega
    · omega
    · rintro ⟨⟨hs, single | hs'⟩, odd⟩
      · rw [hs] at member
        omega
      · rw [hs] at member
        rw [hs'] at inside
        omega
  · cases h

/-- What comes of a change to lower case is not changed by another one. -/
theorem partner?_eq_none_of_partner? {n m : Nat} {r q : CaseRange} (hr : r ∈ lowerRanges)
    (hq : q ∈ lowerRanges) (h : r.partner? n = some m) : q.partner? m = none := by
  have missed : (lowerRanges.all fun r => lowerRanges.all fun q => !r.reaches q) = true := by
    decide +kernel
  refine partner?_eq_none_of_reaches hr ?_ h
  simpa using List.all_eq_true.1 (List.all_eq_true.1 missed r hr) q hq

theorem ne_dotted_of_partner? {n m : Nat} {r : CaseRange} (hr : r ∈ lowerRanges)
    (h : r.partner? n = some m) : m ≠ 0x130 := by
  have missed : ∀ r ∈ lowerRanges, r.reaches ⟨0x130, 0x130, 1, 0⟩ = false := by decide +kernel
  rintro rfl
  cases partner?_eq_none_of_reaches hr (missed r hr) h

/-- A character that is its own lower-case form wherever it stands. -/
def IsSmall (c : CodePoint) : Prop := ∀ afterLetter rest, lowerHead afterLetter c rest = [c]

theorem isSmall_iff {c : CodePoint} : IsSmall c ↔ c ≠ 'Σ' ∧ lowerChar c = [c] := by
  unfold IsSmall lowerHead
  constructor
  · intro h
    have sigma : c ≠ 'Σ' := by
      rintro rfl
      exact absurd (h false []) (by decide)
    have own := h false []
    rw [if_neg sigma] at own
    exact ⟨sigma, own⟩
  · rintro ⟨sigma, own⟩ afterLetter rest
    rw [if_neg sigma, own]

instance (c : CodePoint) : Decidable (IsSmall c) := decidable_of_iff _ isSmall_iff.symm

/-- A character without a partner is small. -/
theorem isSmall_of_partner? {c : CodePoint} (hd : c ≠ '\u0130')
    (h : ∀ r ∈ lowerRanges, r.partner? c.toNat = none) : IsSmall c := by
  refine isSmall_iff.2 ⟨?_, ?_⟩
  · rintro rfl
    exact absurd h (by decide +kernel)
  · rw [lowerChar, if_neg hd, partner, List.findSome?_eq_none_iff.2 h]

theorem isSmall_partner {c : CodePoint} (hd : c ≠ '\u0130') :
    IsSmall (partner lowerRanges c) := by
  unfold partner
  split
  · next n hn =>
    obtain ⟨r, hr, hp⟩ := List.exists_of_findSome?_eq_some hn
    have number : (CodePoint.ofNat n).toNat = n := by
      rw [CodePoint.ofNat, dif_pos (lt_of_partner? hr hp).2]
    refine isSmall_of_partner? (fun he => ?_) fun q hq => ?_
    · exact ne_dotted_of_partner? hr hp (number ▸ congrArg CodePoint.toNat he)
    · rw [number]
      exact partner?_eq_none_of_partner? hr hq hp
  · next none => exact isSmall_of_partner? hd (List.findSome?_eq_none_iff.1 none)

theorem isSmall_of_mem_lowerFrom {afterLetter : Bool} {d : CodePoint} {cs : List CodePoint}
    (h : d ∈ lowerFrom afterLetter cs) : IsSmall d := by
  induction cs generalizing afterLetter with
  | nil => exact absurd h List.not_mem_nil
  | cons c rest ih =>
    rw [lowerFrom_cons, List.mem_append] at h
    rcases h with h | h
    · unfold lowerHead lowerChar at h
      split at h
      · obtain rfl := List.mem_singleton.1 h
        split <;> decide +kernel
      · split at h
        · simp only [List.mem_cons, List.not_mem_nil, or_false] at h
          rcases h with rfl | rfl <;> decide +kernel
        · next hd =>
          obtain rfl := List.mem_singleton.1 h
          exact isSmall_partner hd
    · exact ih h

/-- Where all characters are small, the lower-case form is the text itself. -/
theorem lowerFrom_of_forall {afterLetter : Bool} {cs : List CodePoint}
    (h : ∀ c ∈ cs, IsSmall c) : lowerFrom afterLetter cs = cs := by
  induction cs generalizing afterLetter with
  | nil => rfl
  | cons c rest ih =>
    rw [List.forall_mem_cons] at h
    rw [lowerFrom_cons, h.1, ih h.2]
    rfl

theorem isCapital_of_isSmall {c : CodePoint} (h : IsSmall c) : isCapital c = false := by
  have whole : c ∈ lowerFrom false [c] := by
    rw [lowerFrom_of_forall (List.forall_mem_singleton.2 h)]
    exact List.mem_singleton_self c
  exact isCapital_of_mem_lowerFrom whole

end DesignTree.Text
