import DesignTree.Proofs.Variant.Enumeration
import DesignTree.Proofs.Variant.Recorded
import DesignTree.Variant.Group
import Mathlib.Data.List.Pairwise

/-! # Switching between variants

Users switch to a variant by a selection of values, and get the first variant that agrees with it.
What a selection leaves open has the first-seen value there, since configurations come in
lexicographic order: of two picks the earlier one has an earlier value of some property, and if only
the later one agrees with the selection, the selection is about that property
(`Definition.not_agrees_of_lt`). A variant's own properties select nothing but that variant.
-/

namespace DesignTree

/-! ## Values that can be found again -/

namespace Scalar

/-- Whether a value is a number that lies nowhere. -/
def isNotANumber : Scalar → Bool
  | .number (.float (.notANumber _)) => true
  | _ => false

/-- All values but those that are no number are the same as themselves. -/
theorem same_self {s : Scalar} (h : s.isNotANumber = false) : s.same s = true := by
  have placed (n : Number) (p : Number.Place) (hn : n.place = some p) : n.alike n = true :=
    Number.alike_iff.2 (.inr (Number.same_iff.2 ⟨p, hn, hn⟩))
  cases s with
  | text t => exact beq_self_eq_true t
  | bool b => exact beq_self_eq_true b
  | number n =>
    cases n with
    | int i => exact placed (.int i) (.at i) rfl
    | float x =>
      cases x with
      | rational q => exact placed (.float (.rational q)) (.at q) rfl
      | negativeZero => exact placed (.float .negativeZero) (.at 0) rfl
      | infinity negative =>
        cases negative with
        | true => exact placed (.float (.infinity true)) .below rfl
        | false => exact placed (.float (.infinity false)) .above rfl
      | notANumber named => cases h

/-- Values that agree with one value are the same. -/
theorem same_of_agree {s t : Scalar} {v : Option Scalar} (hs : agree (some s) v = true)
    (ht : agree (some t) v = true) : s.same t = true := by
  rw [agree_comm] at ht
  obtain ⟨_, _, hs', ht', same⟩ := agree_iff.1 (agree_trans hs ht)
  cases hs'
  cases ht'
  exact same

end Scalar

namespace Configuration

instance : Std.Symm Differ where
  symm := by
    rintro a b ⟨key, s, t, hs, ht, differ⟩
    exact ⟨key, t, s, ht, hs, (Scalar.same_comm t s).trans differ⟩

/-- Where two configurations differ neither is found by the values of the other. -/
theorem Differ.not_agrees {a b : Configuration} (h : a.Differ b) :
    ¬a.agrees b.toFields = true := by
  obtain ⟨key, s, t, hs, ht, differ⟩ := h
  intro agrees
  obtain ⟨s', t', hs', ht', same⟩ :=
    Scalar.agree_iff.1 (agrees_iff.1 agrees (key, t) (Entries.mem_of_get? ht))
  cases hs.symm.trans hs'
  cases ht'
  rw [same] at differ
  cases differ

/-- A configuration is found by its own values. -/
theorem agrees_self {c : Configuration} (nodup : c.keys.Nodup)
    (same : ∀ e ∈ c, e.2.same e.2 = true) : c.agrees c.toFields = true :=
  agrees_iff.2 fun e he =>
    Scalar.agree_iff.2 ⟨e.2, e.2, Entries.get?_of_mem nodup he, rfl, same e he⟩

end Configuration

/-! ## Selections -/

namespace Definition

open PropertyMatrix

/-- No scalar value of a reusable widget is a number that lies nowhere. -/
def WithoutNaN (d : Definition) : Prop := ∀ e ∈ d.scalars, e.2.isNotANumber = false

instance (d : Definition) : Decidable d.WithoutNaN :=
  inferInstanceAs (Decidable (∀ e ∈ d.scalars, _))

/-- A selection maps some of the properties that vary to values that are observed for them. -/
structure Offers (d : Definition) (selection : Fields) : Prop where
  nodup : selection.keys.Nodup
  varies : ∀ e ∈ selection, e.1 ∈ d.varyingKeys
  observed : ∀ e ∈ selection,
    ∃ s ∈ d.scalars.listed e.1, Scalar.agree (some s) (Scalar.ofValue? e.2) = true

/-- A configuration has the selected values, and the first-seen ones where nothing is selected. -/
structure SwitchesTo (d : Definition) (selection : Fields) (c : Configuration) : Prop where
  keys : c.keys = d.varyingKeys
  selected : ∀ e ∈ selection,
    Scalar.agree (Entries.get? c e.1) (Scalar.ofValue? e.2) = true
  others : ∀ key ∈ d.varyingKeys, key ∉ selection.keys →
    Entries.get? c key = (d.valuesOf key).head?

variable {d : Definition} {selection : Fields} {c : Configuration} {p q : List Nat}

theorem varying_eq (d : Definition) : d.varying = d.varyingKeys := by
  rw [varying, PropertyMatrix.keys, values_ofDefinition, Entries.keys, List.map_map]
  exact List.map_id _

/-- A property that varies has more than one value. -/
theorem length_valuesOf {key : Text} (h : key ∈ d.varyingKeys) : 2 ≤ (d.valuesOf key).length :=
  of_decide_eq_true (List.mem_filter.1 h).2

theorem WithoutNaN.same_self (h : d.WithoutNaN) {key : Text} {s : Scalar}
    (hs : s ∈ d.valuesOf key) : s.same s = true := by
  obtain ⟨e, he, rfl⟩ := List.mem_map.1 (Scalar.mem_of_mem_firstSeen hs)
  exact Scalar.same_self (h e (List.mem_filter.1 he).1)

/-- A value that is observed is the same as a first-seen one. -/
theorem exists_agree_of_listed {key : Text} {s : Scalar} {v : Option Scalar}
    (hs : s ∈ d.scalars.listed key) (h : Scalar.agree (some s) v = true) :
    ∃ t ∈ d.valuesOf key, Scalar.agree (some t) v = true := by
  rcases Scalar.mem_or_same_firstSeen hs with first | ⟨t, ht, same⟩
  · exact ⟨s, first, h⟩
  · exact ⟨t, ht, Scalar.agree_trans (Scalar.agree_iff.2 ⟨t, s, rfl, rfl, same⟩) h⟩

/-- A value is one that a selection asks of a property: the same as the selected one, or the
first-seen one where nothing is selected. -/
def Asks (d : Definition) (selection : Fields) (key : Text) (t : Scalar) : Prop :=
  (∀ e ∈ selection, e.1 = key → Scalar.agree (some t) (Scalar.ofValue? e.2) = true) ∧
    (key ∉ selection.keys → (d.valuesOf key).head? = some t)

theorem Offers.exists_asks (h : d.Offers selection) {key : Text} (hkey : key ∈ d.varyingKeys) :
    ∃ t ∈ d.valuesOf key, d.Asks selection key t := by
  by_cases chosen : key ∈ selection.keys
  · obtain ⟨e, he, rfl⟩ := List.mem_map.1 chosen
    obtain ⟨s, hs, agree⟩ := h.observed e he
    obtain ⟨t, ht, found⟩ := exists_agree_of_listed hs agree
    refine ⟨t, ht, fun other hother same => ?_, fun absent => absurd chosen absent⟩
    have value := Entries.get?_of_mem h.nodup hother
    rw [same, Entries.get?_of_mem h.nodup he, Option.some.injEq] at value
    rwa [← value]
  · have some : d.valuesOf key ≠ [] :=
      List.ne_nil_of_length_pos (Nat.lt_of_lt_of_le Nat.zero_lt_two (length_valuesOf hkey))
    obtain ⟨t, ht⟩ := Option.isSome_iff_exists.1 (List.isSome_head?.2 some)
    refine ⟨t, List.mem_of_mem_head? ht, fun e he same => ?_, fun _ => ht⟩
    exact absurd (List.mem_map.2 ⟨e, he, same⟩) chosen

theorem Offers.switchesTo (h : d.Offers selection) (keys : c.keys = d.varyingKeys)
    (asked : ∀ e ∈ c, d.Asks selection e.1 e.2) : d.SwitchesTo selection c := by
  have value : ∀ key ∈ d.varyingKeys,
      ∃ t, Entries.get? c key = some t ∧ d.Asks selection key t := by
    intro key hkey
    rw [← keys] at hkey
    obtain ⟨e, he, rfl⟩ := List.mem_map.1 hkey
    refine ⟨e.2, Entries.get?_of_mem ?_ he, asked e he⟩
    rw [keys]
    exact d.nodup_varyingKeys
  refine ⟨keys, fun e he => ?_, fun key hkey absent => ?_⟩
  · obtain ⟨t, ht, asks⟩ := value e.1 (h.varies e he)
    rw [ht]
    exact asks.1 e he rfl
  · obtain ⟨t, ht, asks⟩ := value key hkey
    rw [ht, asks.2 absent]

/-- For each selection there is a configuration to switch to. -/
theorem Offers.exists_switchesTo (h : d.Offers selection) (vary : d.varyingKeys ≠ []) :
    ∃ c ∈ (PropertyMatrix.ofDefinition d).combinations, d.SwitchesTo selection c := by
  have offered : ∀ entry ∈ (PropertyMatrix.ofDefinition d).values,
      ∃ t ∈ entry.2, d.Asks selection entry.1 t := by
    rw [values_ofDefinition]
    intro entry hentry
    obtain ⟨key, hkey, rfl⟩ := List.mem_map.1 hentry
    exact h.exists_asks hkey
  obtain ⟨c, hc, asked⟩ := exists_mem_choices offered
  refine ⟨c, ?_, h.switchesTo ?_ asked⟩
  · rw [combinations, isEmpty_ofDefinition, List.isEmpty_eq_false_iff.2 vary]
    exact hc
  · rw [keys_of_mem_choices hc, ← varying_eq]
    rfl

theorem SwitchesTo.agrees (h : d.SwitchesTo selection c) : c.agrees selection = true :=
  Configuration.agrees_selection_iff.2 h.selected

/-- Configurations before the one that a selection switches to do not agree with the selection. -/
theorem not_agrees_of_lt (hd : d.WithoutNaN) (hp : d.IsPick p) (hq : d.IsPick q) (lt : p < q)
    (h : d.SwitchesTo selection (d.configurationAt q)) :
    ¬(d.configurationAt p).agrees selection = true := by
  obtain ⟨key, i, j, s, t, hij, hi, hj, hs, ht⟩ := exists_later_of_lt hp hq lt
  have apart := Scalar.pairwise_firstSeen (d.scalars.listed key)
  have value {r : List Nat} (hr : d.IsPick r) {u : Scalar} (hu : (key, u) ∈ d.configurationAt r) :
      Entries.get? (d.configurationAt r) key = some u := by
    refine Entries.get?_of_mem ?_ hu
    rw [keys_configurationAt hr]
    exact d.nodup_varyingKeys
  intro agrees
  by_cases chosen : key ∈ selection.keys
  · -- Both values would be the same as the selected one.
    obtain ⟨e, he, rfl⟩ := List.mem_map.1 chosen
    have early := Configuration.agrees_selection_iff.1 agrees e he
    have late := h.selected e he
    rw [value hp hs] at early
    rw [value hq ht] at late
    have same := Scalar.same_of_agree early late
    rw [same_eq_false_of_lt apart hij hi hj] at same
    cases same
  · -- The later value would be the first-seen one.
    have hkey : key ∈ d.varyingKeys := by
      rw [← keys_configurationAt hq]
      exact List.mem_map.2 ⟨(key, t), ht, rfl⟩
    have first := h.others key hkey chosen
    rw [value hq ht, List.head?_eq_getElem?] at first
    have differ := same_eq_false_of_lt apart (Nat.lt_of_le_of_lt (Nat.zero_le i) hij)
      first.symm hj
    rw [hd.same_self (List.mem_of_getElem? hj)] at differ
    cases differ

/-- Configurations that a selection switches to do not differ. -/
theorem SwitchesTo.not_differ (hd : d.WithoutNaN) {a b : Configuration}
    (ha : d.SwitchesTo selection a) (hb : d.SwitchesTo selection b) : ¬a.Differ b := by
  rintro ⟨key, s, t, hs, ht, differ⟩
  have hkey : key ∈ d.varyingKeys := by
    rw [← ha.keys]
    exact List.mem_map.2 ⟨(key, s), Entries.mem_of_get? hs, rfl⟩
  by_cases chosen : key ∈ selection.keys
  · obtain ⟨e, he, rfl⟩ := List.mem_map.1 chosen
    have first := ha.selected e he
    have second := hb.selected e he
    rw [hs] at first
    rw [ht] at second
    rw [Scalar.same_of_agree first second] at differ
    cases differ
  · have first := ha.others key hkey chosen
    have second := hb.others key hkey chosen
    rw [hs] at first
    rw [ht, ← first] at second
    cases second
    rw [hd.same_self (List.mem_of_mem_head? first.symm)] at differ
    cases differ

end Definition

/-! ## Variants -/

namespace Synthesizer

open InRun Definition

variable {s : Synthesizer} {d : Definition} {run after : Run} {vs : List ComponentVariant}

theorem properties_within_limit {k : Nat} (hk : s.limit.toNat = .ok k)
    (hcount : (PropertyMatrix.ofDefinition d).combinationCount ≤ k) (vary : d.varyingKeys ≠ [])
    (hy : (s.variants d).Yields run vs after) :
    vs.map (·.properties) = (PropertyMatrix.ofDefinition d).combinations := by
  rw [← varying_eq] at vary
  exact properties_of_mapM (variants_within_limit hk hcount vary hy)

/-- Variants of configurations have a value of each property that varies, which is among those that
are first seen. -/
theorem values_of_variants (vary : d.varyingKeys ≠ []) (hy : (s.variants d).Yields run vs after)
    {v : ComponentVariant} (hv : v ∈ vs) :
    Entries.keys v.properties = d.varyingKeys ∧ ∀ e ∈ v.properties, e.2 ∈ d.valuesOf e.1 := by
  obtain ⟨-, k, -, hvs⟩ := (variants_cases hy).resolve_left fun none => vary none.1
  have properties := properties_of_mapM hvs
  refine ⟨(enumerates_of_properties vary properties).keys v hv, fun e he => ?_⟩
  have member : v.properties ∈ vs.map (·.properties) := List.mem_map.2 ⟨v, hv, rfl⟩
  rw [properties, configurations_eq vary] at member
  obtain ⟨p, -, found⟩ := List.mem_map.1 member
  rw [← found] at he
  exact PropertyMatrix.mem_of_mem_picked he

/-- No two variants have the same values, and each one is found by its own values. -/
theorem variants_apart (hd : d.WithoutNaN) (hy : (s.variants d).Yields run vs after) :
    (vs.Pairwise fun v u => Configuration.Differ v.properties u.properties) ∧
      ∀ v ∈ vs, Configuration.agrees v.properties (Configuration.toFields v.properties) = true := by
  rcases variants_cases hy with ⟨-, m, -, rfl⟩ | ⟨vary, k, -, made⟩
  · refine ⟨List.pairwise_singleton _ _, fun v hv => ?_⟩
    obtain rfl := List.mem_singleton.1 hv
    rfl
  · refine ⟨(enumerates_of_properties vary (properties_of_mapM made)).distinct, fun v hv => ?_⟩
    obtain ⟨keys, values⟩ := values_of_variants vary hy hv
    refine Configuration.agrees_self ?_ fun e he => hd.same_self (values e he)
    rw [keys]
    exact d.nodup_varyingKeys

/-- A variant is found by its own properties. -/
theorem findVariant?_self {component : Component} (hd : d.WithoutNaN)
    (hy : (s.variants d).Yields run component.variants after) {v : ComponentVariant}
    (hv : v ∈ component.variants) :
    component.findVariant? (Configuration.toFields v.properties) = some v := by
  obtain ⟨apart, own⟩ := variants_apart hd hy
  obtain ⟨before, behind, split⟩ := List.append_of_mem hv
  refine List.find?_eq_some_iff_append.2 ⟨own v hv, before, behind, split, fun u hu => ?_⟩
  rw [split, List.pairwise_append] at apart
  simpa using (apart.2.2 u hu v List.mem_cons_self).not_agrees

/-- Among the variants of all configurations a selection finds the one that it switches to. -/
theorem findVariant?_of_switchesTo {component : Component} {selection : Fields}
    (hd : d.WithoutNaN) (vary : d.varyingKeys ≠ [])
    (all : component.variants.map (·.properties) = (PropertyMatrix.ofDefinition d).combinations)
    {v : ComponentVariant} (hv : v ∈ component.variants)
    (switches : d.SwitchesTo selection v.properties) :
    component.findVariant? selection = some v := by
  obtain ⟨before, behind, split⟩ := List.append_of_mem hv
  refine List.find?_eq_some_iff_append.2 ⟨switches.agrees, before, behind, split, fun u hu => ?_⟩
  -- The picks are split where the variants are, and the ones in front are smaller.
  rw [combinations_eq vary, split, List.map_append, List.map_cons, eq_comm,
    List.map_eq_append_iff] at all
  obtain ⟨early, rest, picks, hearly, hrest⟩ := all
  obtain ⟨q, late, rfl, hq, -⟩ := List.map_eq_cons_iff.1 hrest
  have ordered := pairwise_picks (PropertyMatrix.valueCounts d.valuesOf d.varyingKeys)
  have valid : ∀ r ∈ early ++ q :: late, d.IsPick r := fun r hr => mem_picks_iff.1 (picks ▸ hr)
  have member : u.properties ∈ before.map (·.properties) := List.mem_map.2 ⟨u, hu, rfl⟩
  rw [← hearly] at member
  obtain ⟨p, hp, found⟩ := List.mem_map.1 member
  rw [picks, List.pairwise_append] at ordered
  rw [← hq] at switches
  simpa [← found] using not_agrees_of_lt hd (valid p (by simp [hp])) (valid q (by simp))
    (ordered.2.2 p hp q List.mem_cons_self) switches

/-- There are no two variants to which a selection switches. -/
theorem eq_of_switchesTo {selection : Fields} (hd : d.WithoutNaN)
    (hy : (s.variants d).Yields run vs after) {u v : ComponentVariant} (hu : u ∈ vs) (hv : v ∈ vs)
    (first : d.SwitchesTo selection u.properties) (second : d.SwitchesTo selection v.properties) :
    u = v := by
  have : Std.Symm fun v u : ComponentVariant => Configuration.Differ v.properties u.properties :=
    ⟨fun _ _ h => Std.Symm.symm _ _ h⟩
  by_contra hne
  exact first.not_differ hd second ((variants_apart hd hy).1.forall hu hv hne)

/-- **Every selection can be switched to.** Let a component have the variants that were made of a
reusable widget without values that are no number. A variant is found by its own properties. If some
property varies and all configurations are within the limit, a selection that maps some of the
properties that vary to values that are observed for them finds the one variant that has the
selected values, and the first-seen value of each other property. -/
theorem findVariant?_of_offers {component : Component} (hd : d.WithoutNaN)
    (hy : (s.variants d).Yields run component.variants after) :
    (∀ v ∈ component.variants,
      component.findVariant? (Configuration.toFields v.properties) = some v) ∧
    ∀ k, s.limit.toNat = .ok k → (PropertyMatrix.ofDefinition d).combinationCount ≤ k →
      d.varyingKeys ≠ [] → ∀ selection, d.Offers selection →
        ∃ v ∈ component.variants, component.findVariant? selection = some v ∧
          d.SwitchesTo selection v.properties ∧
          ∀ u ∈ component.variants, d.SwitchesTo selection u.properties → u = v := by
  refine ⟨fun v hv => findVariant?_self hd hy hv, fun k hk hcount vary selection hs => ?_⟩
  obtain ⟨c, hc, switches⟩ := hs.exists_switchesTo vary
  have all := properties_within_limit hk hcount vary hy
  rw [← all] at hc
  obtain ⟨v, hv, rfl⟩ := List.mem_map.1 hc
  exact ⟨v, hv, findVariant?_of_switchesTo hd vary all hv switches, switches,
    fun u hu others => eq_of_switchesTo hd hy hu hv others switches⟩

theorem findVariant?_of_offers_button :
    let save : Widget := { id := "save", kind := .button, properties := { size := some "medium" } }
    let big : RecordedVariant := { properties := [("size", .text "large"), ("badge", .number 1)] }
    let marked : RecordedVariant := { properties := [("badge", .bool true)] }
    let button : Definition := { widget := save, name := "Button", variants := [big, marked] }
    let s : Synthesizer := {}
    let selection : Fields := [("badge", .bool true)]
    button.WithoutNaN ∧ button.varyingKeys = ["size", "badge"] ∧ button.Offers selection ∧
      ∃ component : Component, ∃ after, (s.variants button).Yields {} component.variants after ∧
        (∀ v ∈ component.variants,
          component.findVariant? (Configuration.toFields v.properties) = some v) ∧
        ∃ v ∈ component.variants, component.findVariant? selection = some v ∧
          Entries.get? v.properties "size" = some (.text "medium") ∧
          Scalar.agree (Entries.get? v.properties "badge") (some (.bool true)) = true := by
  intro save big marked button s selection
  obtain ⟨vs, after, hy⟩ := returns_iff.2 (by decide +kernel :
    (runFrom {} (s.variants button)).1.isOk = true)
  let component : Component := { id := "component-1", name := "Button", variants := vs }
  have made : (s.variants button).Yields {} component.variants after := hy
  have numbers : button.WithoutNaN := by decide +kernel
  have vary : button.varyingKeys = ["size", "badge"] := by decide +kernel
  have offers : button.Offers selection := by
    refine ⟨by decide +kernel, fun e he => ?_, fun e he => ?_⟩
    · obtain rfl := List.mem_singleton.1 he
      rw [vary]
      decide +kernel
    · obtain rfl := List.mem_singleton.1 he
      exact ⟨.bool true, by decide +kernel, rfl⟩
  obtain ⟨own, select⟩ := findVariant?_of_offers numbers made
  obtain ⟨v, hv, found, switches, -⟩ :=
    select 16 rfl (by decide +kernel) (by simp [vary]) selection offers
  refine ⟨numbers, vary, offers, component, after, made, own, v, hv, found, ?_, ?_⟩
  · have first := switches.others "size" (by rw [vary]; exact List.mem_cons_self)
      (by decide +kernel)
    rw [first]
    decide +kernel
  · exact switches.selected _ (List.mem_singleton.2 rfl)

end Synthesizer

end DesignTree
