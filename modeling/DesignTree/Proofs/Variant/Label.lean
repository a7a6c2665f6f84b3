import DesignTree.Proofs.Number.Text
import DesignTree.Proofs.Variant.Group
import DesignTree.Proofs.Variant.Matrix

/-! # Groups and values

Variants are grouped by the labels of their values. Numbers with one label lie at one place
(`Number.text_wholeNumber_eq_iff`), and no number has the label of a flag that is not set or of no
value. Otherwise different values can have one label (`VariantGroup.Mistaken`), and then their
variants are together, as those are that have the same value (`VariantGroup.together_iff`).
-/

namespace DesignTree

/-! ## Numbers without a fraction -/

namespace Number

open Variant

theorem exact_wholeNumber {n : Number} (h : n.Exact) : (wholeNumber n).Exact := by
  unfold wholeNumber
  split
  · trivial
  · split
    · split
      · trivial
      · exact h
    · exact h

/-- The number that is written for a point of the line: an integer if it is one. -/
def Place.number : Place → Number
  | .below => .float (.infinity true)
  | .at q => if q.den = 1 then .int q.num else .float (.rational q)
  | .above => .float (.infinity false)

theorem place_number (p : Place) : p.number.place = some p := by
  cases p with
  | below | above => rfl
  | «at» q =>
    by_cases whole : q.den = 1
    · rw [Place.number, if_pos whole]
      exact congrArg (fun r => some (Place.at r)) ((Rat.den_eq_one_iff q).1 whole)
    · rw [Place.number, if_neg whole]
      rfl

theorem wholeNumber_of_place {n : Number} {p : Place} (h : n.place = some p) :
    wholeNumber n = p.number := by
  cases n with
  | int i =>
    cases h
    rfl
  | float x =>
    cases x with
    | rational | negativeZero =>
      cases h
      rfl
    | infinity negative =>
      cases negative <;>
        · cases h
          rfl
    | notANumber => cases h

theorem eq_notANumber_of_place {n : Number} (h : n.place = none) :
    ∃ named, n = .float (.notANumber named) := by
  cases n with
  | int => cases h
  | float x =>
    cases x with
    | rational | negativeZero => cases h
    | infinity negative => cases negative <;> cases h
    | notANumber named => exact ⟨named, rfl⟩

/-- Without fractions that add nothing, numbers have one text exactly if they lie at one place. -/
theorem text_wholeNumber_eq_iff {m n : Number} (hm : m.Exact) (hn : n.Exact) :
    (wholeNumber m).text = (wholeNumber n).text ↔ m.place = n.place := by
  have place (k : Number) : (wholeNumber k).place = k.place := by
    cases hk : k.place with
    | some p => rw [wholeNumber_of_place hk, place_number]
    | none =>
      obtain ⟨named, rfl⟩ := eq_notANumber_of_place hk
      rfl
  constructor
  · intro h
    rcases text_inj (exact_wholeNumber hm) (exact_wholeNumber hn) h with same | ⟨nowhere, nowhere'⟩
    · rw [← place m, same, place n]
    · rw [← place m, nowhere, ← nowhere', place n]
  · intro h
    cases hp : m.place with
    | some p => rw [wholeNumber_of_place hp, wholeNumber_of_place (h ▸ hp)]
    | none =>
      obtain ⟨named, rfl⟩ := eq_notANumber_of_place hp
      obtain ⟨named', rfl⟩ := eq_notANumber_of_place (h ▸ hp)
      rfl

end Number

/-! ## Labels of numbers -/

namespace Text

/-- The capital of the character that a number starts with. -/
def raised (c : Char) : Char := if c = 'i' then 'I' else if c = 'n' then 'N' else c

theorem upperChar_of_starts {c : Char} (h : Number.starts c = true) :
    upperChar c = [(raised c : CodePoint)] := by
  have digits : ∀ i < 10, upperChar (Char.ofNat (48 + i)) =
      [(raised (Char.ofNat (48 + i)) : CodePoint)] := by decide
  simp only [Number.starts, Bool.or_eq_true, decide_eq_true_eq] at h
  rcases h with ((digit | rfl) | rfl) | rfl
  · simp only [Char.isDigit, Bool.and_eq_true, decide_eq_true_eq] at digit
    have low : 48 ≤ c.toNat := digit.1
    have high : c.toNat ≤ 57 := digit.2
    have self : Char.ofNat (48 + (c.toNat - 48)) = c := by
      rw [Nat.add_sub_cancel' low, Char.ofNat_toNat]
    have upper := digits (c.toNat - 48) (by omega)
    rwa [self] at upper
  · rfl
  · rfl
  · rfl

/-- The character that a number starts with, from its capital. -/
def lowered (c : Char) : Char := if c = 'I' then 'i' else if c = 'N' then 'n' else c

theorem lowered_raised {c : Char} (h : Number.starts c = true) : lowered (raised c) = c := by
  by_cases hi : c = 'i'
  · rw [hi]
    rfl
  · by_cases hn : c = 'n'
    · rw [hn]
      rfl
    · have plain : c ≠ 'I' ∧ c ≠ 'N' := by
        constructor <;>
          · rintro rfl
            cases h
      rw [raised, if_neg hi, if_neg hn, lowered, if_neg plain.1, if_neg plain.2]

end Text

namespace Number

open Text

/-- With a capital at its start the text of a number changes in its first character alone. -/
theorem exists_cons_capitalizeFirst {n : Number} (hn : n.Exact) :
    ∃ c rest, n.text.toList = c :: rest ∧
      (capitalizeFirst n.text).toList = (raised c :: rest).map CodePoint.ofChar ∧
      starts c = true ∧ (c = 'n' → rest = ['a', 'n']) := by
  obtain ⟨c, rest, written, start, word⟩ := exists_cons_text hn
  have chars : (n.text : Text).toList = (c : CodePoint) :: rest.map CodePoint.ofChar := by
    rw [Text.ofString, written, List.map_cons]
  refine ⟨c, rest, written, ?_, start, word⟩
  rw [capitalizeFirst, chars]
  simp only
  rw [upperChar_of_starts start, List.singleton_append, List.map_cons]

theorem text_eq_of_capitalizeFirst_eq {m n : Number} (hm : m.Exact) (hn : n.Exact)
    (h : capitalizeFirst m.text = capitalizeFirst n.text) : m.text = n.text := by
  obtain ⟨c, rest, hc, capital, start, -⟩ := exists_cons_capitalizeFirst hm
  obtain ⟨d, rest', hd, capital', start', -⟩ := exists_cons_capitalizeFirst hn
  have same := congrArg Text.toList h
  have injective : Function.Injective CodePoint.ofChar := fun _ _ he => CodePoint.ofChar_inj.1 he
  rw [capital, capital', injective.list_map.eq_iff, List.cons.injEq] at same
  rw [← String.toList_inj, hc, hd, ← lowered_raised start, same.1, lowered_raised start', same.2]

end Number

/-! ## Labels of values -/

namespace Scalar

/-- A value that is no double, or one that is a rounded one. -/
def Exact : Scalar → Prop
  | .number n => n.Exact
  | _ => True

instance : DecidablePred Exact := fun s => by
  cases s <;> unfold Exact <;> infer_instance

end Scalar

namespace VariantGroup

open Text Number Variant

/-- The label of a value for a property, or of its absence. -/
def labelled (key : Text) (value : Option Scalar) : Text :=
  (value.map fun s => label key s.toValue).getD defaultName

theorem labelOf_eq (key : Text) (v : ComponentVariant) :
    labelOf key v = labelled key (v.properties.get? key) := by
  unfold labelOf labelled
  cases v.properties.get? key <;> rfl

/-- Whether two variants have the same value for a property, or both none. -/
def SameValue (a b : Option Scalar) : Prop := Scalar.agree a b = true ∨ a = none ∧ b = none

/-- Different values with one label: texts that differ in the case of the first letter, a text and
the label of a value of another kind or of none, a flag that is set and a number or no value where
the property is called as that, and values that are no number. -/
inductive Mistaken (key : Text) : Option Scalar → Option Scalar → Prop
  | capital {s t : Text} (differ : s ≠ t) (same : capitalizeFirst s = capitalizeFirst t) :
    Mistaken key (some (.text s)) (some (.text t))
  | spelled {s : Text} {other : Option Scalar} (kind : ∀ t, other ≠ some (.text t))
    (same : capitalizeFirst s = labelled key other) : Mistaken key (some (.text s)) other
  | unset (same : capitalizeFirst key = defaultName) : Mistaken key (some (.bool true)) none
  | number {n : Number} (same : capitalizeFirst key = label key (.number n)) :
    Mistaken key (some (.bool true)) (some (.number n))
  | nowhere {m n : Number} (first : m.place = none) (second : n.place = none)
    (differ : m.alike n = false) : Mistaken key (some (.number m)) (some (.number n))

variable {key : Text} {a b : Option Scalar}

theorem Mistaken.not_same (h : Mistaken key a b) : ¬ SameValue a b := by
  rintro (agree | ⟨ha, hb⟩)
  · obtain ⟨s, t, rfl, rfl, same⟩ := Scalar.agree_iff.1 agree
    cases h with
    | capital differ => exact differ (beq_iff_eq.1 same)
    | spelled kind =>
      cases t with
      | text t => exact kind t rfl
      | bool | number => cases same
    | number => cases same
    | nowhere first second differ => exact absurd same (by rw [Scalar.same, differ]; decide)
  · subst ha
    cases h

theorem Mistaken.labelled_eq (h : Mistaken key a b) : labelled key a = labelled key b := by
  cases h with
  | capital _ same => exact same
  | spelled _ same => exact same
  | unset same => exact same
  | number same => exact same
  | nowhere first second =>
    obtain ⟨named, rfl⟩ := eq_notANumber_of_place first
    obtain ⟨named', rfl⟩ := eq_notANumber_of_place second
    rfl

theorem labelled_eq_of_same (h : SameValue a b) : labelled key a = labelled key b := by
  rcases h with agree | ⟨rfl, rfl⟩
  · obtain ⟨s, t, rfl, rfl, same⟩ := Scalar.agree_iff.1 agree
    cases s with
    | text s =>
      cases t with
      | text t =>
        obtain rfl : s = t := beq_iff_eq.1 same
        rfl
      | bool | number => cases same
    | bool s =>
      cases t with
      | bool t =>
        obtain rfl : s = t := beq_iff_eq.1 same
        rfl
      | text | number => cases same
    | number m =>
      cases t with
      | number n =>
        rcases alike_iff.1 same with ⟨rfl, rfl⟩ | same
        · rfl
        · obtain ⟨p, hm, hn⟩ := same_iff.1 same
          have whole : wholeNumber m = wholeNumber n := by
            rw [wholeNumber_of_place hm, wholeNumber_of_place hn]
          exact congrArg (fun k => capitalizeFirst k.text) whole
      | text | bool => cases same
  · rfl

/-- No number has the label of a flag that is not set, or of no value. -/
theorem label_number_ne {n : Number} (hn : n.Exact) (key : Text) :
    label key (.number n) ≠ "No" ++ capitalizeFirst key ∧ label key (.number n) ≠ defaultName := by
  obtain ⟨c, rest, -, capital, start, word⟩ := exists_cons_capitalizeFirst (exact_wholeNumber hn)
  have first {d : Char} {ds : List CodePoint} {other : Text} (h : label key (.number n) = other)
      (ho : other.toList = CodePoint.ofChar d :: ds) :
      c = lowered d ∧ rest.map CodePoint.ofChar = ds := by
    have chars : (label key (.number n)).toList = (raised c :: rest).map CodePoint.ofChar := capital
    rw [h, ho, List.map_cons, List.cons.injEq] at chars
    rw [CodePoint.ofChar_inj.1 chars.1, lowered_raised start]
    exact ⟨rfl, chars.2.symm⟩
  constructor
  · intro h
    obtain ⟨rfl, tail⟩ := first (d := 'N') h rfl
    rw [word rfl] at tail
    exact absurd (CodePoint.ofChar_inj.1 (List.cons.inj tail).1) (by decide)
  · intro h
    obtain ⟨rfl, -⟩ := first (d := 'D') h rfl
    exact absurd start (by decide)

theorem no_ne (key : Text) : "No" ++ capitalizeFirst key ≠ capitalizeFirst key ∧
    "No" ++ capitalizeFirst key ≠ defaultName := by
  constructor
  · intro h
    have := congrArg Text.length h
    rw [Text.length_append] at this
    have two : Text.length "No" = 2 := rfl
    omega
  · intro h
    have chars := congrArg Text.toList h
    exact absurd (CodePoint.ofChar_inj.1 (List.cons.inj chars).1) (by decide)

theorem SameValue.symm (h : SameValue a b) : SameValue b a :=
  h.imp (fun agree => Scalar.agree_comm a b ▸ agree) And.symm

/-! ### Which values have one label -/

/-- What the labels do not tell apart: a value from itself, and from one that it is mistaken for. -/
def Joined (key : Text) (a b : Option Scalar) : Prop :=
  SameValue a b ∨ Mistaken key a b ∨ Mistaken key b a

theorem Joined.symm (h : Joined key a b) : Joined key b a :=
  h.imp SameValue.symm Or.symm

/-- A text has the label of another value only if both are the same, or one is mistaken. -/
theorem joined_text {s : Text} (h : labelled key (some (.text s)) = labelled key b) :
    Joined key (some (.text s)) b := by
  by_cases kind : ∀ t, b ≠ some (.text t)
  · exact .inr (.inl (.spelled kind h))
  · rw [not_forall_not] at kind
    obtain ⟨t, rfl⟩ := kind
    by_cases equal : s = t
    · exact .inl (.inl (beq_iff_eq.2 equal))
    · exact .inr (.inl (.capital equal h))

theorem joined_numbers {m n : Number} (hm : m.Exact) (hn : n.Exact)
    (h : label key (.number m) = label key (.number n)) :
    Joined key (some (.number m)) (some (.number n)) := by
  have text := text_eq_of_capitalizeFirst_eq (exact_wholeNumber hm) (exact_wholeNumber hn) h
  have place := (text_wholeNumber_eq_iff hm hn).1 text
  cases hp : m.place with
  | some p => exact .inl (.inl (alike_iff.2 (.inr (same_iff.2 ⟨p, hp, place ▸ hp⟩))))
  | none =>
    cases alike : m.alike n with
    | true => exact .inl (.inl alike)
    | false => exact .inr (.inl (.nowhere hp (place ▸ hp) alike))

/-- An absent value has the label of itself, of a text, and of a flag that is set. -/
theorem joined_none (hb : ∀ s, b = some s → s.Exact) (h : labelled key none = labelled key b) :
    Joined key none b := by
  cases b with
  | none => exact .inl (.inr ⟨rfl, rfl⟩)
  | some t =>
    cases t with
    | text t => exact (joined_text h.symm).symm
    | bool set =>
      cases set with
      | true => exact .inr (.inr (.unset h.symm))
      | false => exact absurd h.symm (no_ne key).2
    | number n => exact absurd h.symm (label_number_ne (hb _ rfl) key).2

/-- A flag that is not set has the label of itself and of a text. -/
theorem joined_unset (hb : ∀ s, b = some s → s.Exact)
    (h : labelled key (some (.bool false)) = labelled key b) :
    Joined key (some (.bool false)) b := by
  cases b with
  | none => exact absurd h (no_ne key).2
  | some t =>
    cases t with
    | text t => exact (joined_text h.symm).symm
    | bool set =>
      cases set with
      | true => exact absurd h (no_ne key).1
      | false => exact .inl (.inl rfl)
    | number n => exact absurd h.symm (label_number_ne (hb _ rfl) key).1

/-- A flag that is set can have the label of every kind of value, but not of one that is not set. -/
theorem joined_set (hb : ∀ s, b = some s → s.Exact)
    (h : labelled key (some (.bool true)) = labelled key b) :
    Joined key (some (.bool true)) b := by
  have flag : ∀ s, some (Scalar.bool true) = some s → s.Exact := by
    rintro s ⟨⟩
    trivial
  cases b with
  | none => exact (joined_none flag h.symm).symm
  | some t =>
    cases t with
    | text t => exact (joined_text h.symm).symm
    | bool set =>
      cases set with
      | true => exact .inl (.inl rfl)
      | false => exact (joined_unset flag h.symm).symm
    | number n => exact .inr (.inl (.number h))

/-- Values with one label are the same, or one of them is mistaken for the other. -/
theorem joined_of_labelled_eq (ha : ∀ s, a = some s → s.Exact) (hb : ∀ s, b = some s → s.Exact)
    (h : labelled key a = labelled key b) : Joined key a b := by
  cases a with
  | none => exact joined_none hb h
  | some s =>
    cases s with
    | text s => exact joined_text h
    | bool set =>
      cases set with
      | true => exact joined_set hb h
      | false => exact joined_unset hb h
    | number m =>
      cases b with
      | none => exact (joined_none ha h.symm).symm
      | some t =>
        cases t with
        | text t => exact (joined_text h.symm).symm
        | bool set =>
          cases set with
          | true => exact (joined_set ha h.symm).symm
          | false => exact (joined_unset ha h.symm).symm
        | number n => exact joined_numbers (ha _ rfl) (hb _ rfl) h

/-- Variants are together in a group exactly if they have one label. -/
theorem together_byLabel {label : ComponentVariant → Text} {property : Text}
    {vs : List ComponentVariant} {v w : ComponentVariant} (hv : v ∈ vs) (hw : w ∈ vs) :
    (∃ g ∈ byLabel label property vs, v ∈ g.variants ∧ w ∈ g.variants) ↔ label v = label w := by
  constructor
  · rintro ⟨g, hg, first, second⟩
    rw [← ((mem_byLabel hg).1 first).2, ← ((mem_byLabel hg).1 second).2]
  · intro same
    obtain ⟨g, hg, name, first⟩ := exists_group label property hv
    exact ⟨g, hg, first, (mem_byLabel hg).2 ⟨hw, name.trans same⟩⟩

/-- **Variants of one group.** If some variant has a property other than the placeholder, there is a
property to group by, and two variants are in one group exactly if they have the same value for it,
or both none, or if the value of one is mistaken for that of the other. Values that are mistaken
for each other are never the same. -/
theorem together_iff (vs : List ComponentVariant)
    (proper : ∃ v ∈ vs, ∃ key ∈ v.properties.keys, key ≠ placeholderKey)
    (rounded : ∀ v ∈ vs, ∀ e ∈ v.properties, e.2.Exact) :
    ∃ key, groupingKey? vs = some key ∧ ∀ v ∈ vs, ∀ w ∈ vs,
      let a := v.properties.get? key
      let b := w.properties.get? key
      ((∃ g ∈ organize vs, v ∈ g.variants ∧ w ∈ g.variants) ↔
        SameValue a b ∨ Mistaken key a b ∨ Mistaken key b a) ∧
      (Mistaken key a b ∨ Mistaken key b a → ¬ SameValue a b) := by
  cases hk : groupingKey? vs with
  | none =>
    obtain ⟨v, hv, key, hkey, ne⟩ := proper
    have hm : key ∈ properKeys vs := mem_properKeys.2 ⟨⟨v, hv, hkey⟩, ne⟩
    rw [groupingKey?_eq_none_iff.1 hk] at hm
    exact absurd hm List.not_mem_nil
  | some key =>
    refine ⟨key, rfl, fun v hv w hw => ⟨?_, ?_⟩⟩
    · have own {u : ComponentVariant} (hu : u ∈ vs) (s : Scalar)
          (hs : u.properties.get? key = some s) : s.Exact :=
        rounded u hu (key, s) (Entries.mem_of_get? hs)
      rw [organize_eq_byLabel, hk]
      simp only
      rw [together_byLabel hv hw, labelOf_eq, labelOf_eq]
      constructor
      · exact joined_of_labelled_eq (own hv) (own hw)
      · rintro (same | mistaken | mistaken)
        · exact labelled_eq_of_same same
        · exact mistaken.labelled_eq
        · exact mistaken.labelled_eq.symm
    · rintro (mistaken | mistaken) same
      · exact mistaken.not_same same
      · exact mistaken.not_same same.symm

theorem together_iff_sizes :
    let node : Node := { kind := .component, name := "Button" }
    let small : ComponentVariant :=
      { name := "Small", properties := [("size", .text "small")], nodeSpec := node }
    let wide : ComponentVariant :=
      { name := "Wide", properties := [("size", .number (.float (.rational (3 / 2))))],
        nodeSpec := node }
    let plain : ComponentVariant := { name := "Plain", properties := [], nodeSpec := node }
    let vs := [small, wide, plain]
    (∃ v ∈ vs, ∃ key ∈ v.properties.keys, key ≠ placeholderKey) ∧
      (∀ v ∈ vs, ∀ e ∈ v.properties, e.2.Exact) ∧
      ∃ key, groupingKey? vs = some key ∧ ∀ v ∈ vs, ∀ w ∈ vs,
        let a := v.properties.get? key
        let b := w.properties.get? key
        ((∃ g ∈ organize vs, v ∈ g.variants ∧ w ∈ g.variants) ↔
          SameValue a b ∨ Mistaken key a b ∨ Mistaken key b a) ∧
        (Mistaken key a b ∨ Mistaken key b a → ¬ SameValue a b) := by
  intro node small wide plain vs
  have proper : ∃ v ∈ vs, ∃ key ∈ v.properties.keys, key ≠ placeholderKey :=
    ⟨small, List.mem_cons_self, "size", by decide, by decide⟩
  have rounded : ∀ v ∈ vs, ∀ e ∈ v.properties, e.2.Exact := by decide +kernel
  exact ⟨proper, rounded, together_iff vs proper rounded⟩

/-- Two sizes that differ in the case of the first letter are in one group. -/
theorem together_of_capital :
    let node : Node := { kind := .component, name := "Button" }
    let small : ComponentVariant :=
      { name := "A", properties := [("size", .text "small")], nodeSpec := node }
    let capital : ComponentVariant :=
      { name := "B", properties := [("size", .text "Small")], nodeSpec := node }
    let vs := [small, capital]
    groupingKey? vs = some "size" ∧
      (∃ g ∈ organize vs, small ∈ g.variants ∧ capital ∈ g.variants) ∧
      ¬ (Scalar.agree (small.properties.get? "size") (capital.properties.get? "size") = true ∨
        small.properties.get? "size" = none ∧ capital.properties.get? "size" = none) := by
  intro node small capital vs
  have key : groupingKey? vs = some "size" := rfl
  have first : labelOf "size" small = "Small" := rfl
  have second : labelOf "size" capital = "Small" := rfl
  refine ⟨key, ?_, by decide⟩
  rw [organize_eq_byLabel, key]
  exact (together_byLabel List.mem_cons_self (List.mem_cons_of_mem _ List.mem_cons_self)).2
    (first.trans second.symm)

end VariantGroup

end DesignTree
