import DesignTree.Proofs.Variant.Selection
import DesignTree.Proofs.Variant.SwitchName

/-! # Switches and the values of variants

A switch for a property and the variants of a component are both made from the values that are first
seen for the property. So the kind of the switch says of what kind all observed values are, and the
options of a choice are the values that variants have (`switches_describe_variants`).
-/

namespace DesignTree

namespace Scalar

theorem isText_of_same {s t : Scalar} (h : s.same t = true) : s.isText = t.isText := by
  cases s <;> cases t <;> first | rfl | cases h

theorem isBool_of_same {s t : Scalar} (h : s.same t = true) : s.isBool = t.isBool := by
  cases s <;> cases t <;> first | rfl | cases h

theorem isText_iff {s : Scalar} : s.isText = true ↔ ∃ t, s = .text t := by
  cases s <;> simp [isText]

theorem eq_text_of_same {s : Scalar} {t : Text} (h : s.same (.text t) = true) : s = .text t := by
  cases s with
  | text u => rw [beq_iff_eq.1 h]
  | bool b => cases h
  | number n => cases h

end Scalar

/-- A switch has a list of options, which differ and the first of which is the default. -/
structure ComponentProperty.Chooses (p : ComponentProperty) (options : List Text) : Prop where
  listed : p.variantOptions = some options
  default : ∃ first rest, options = first :: rest ∧ p.defaultValue = .text first
  distinct : options.Nodup
  two : 2 ≤ options.length

namespace Definition

variable {d : Definition} {key : Text}

/-- What values that are the same have in common, all observed values have as soon as the first-seen
ones do. -/
theorem all_valuesOf_iff {p : Scalar → Bool} (hp : ∀ s t, s.same t = true → p s = p t) :
    (d.valuesOf key).all p = true ↔ ∀ s ∈ d.scalars.listed key, p s = true := by
  rw [List.all_eq_true]
  constructor
  · intro h s hs
    rcases Scalar.mem_or_same_firstSeen hs with first | ⟨t, ht, same⟩
    · exact h s first
    · rw [← hp t s same]
      exact h t ht
  · exact fun h s hs => h s (Scalar.mem_of_mem_firstSeen hs)

/-- The switches begin with those of the properties that vary. -/
theorem getElem?_switches {i : Nat} (h : d.varyingKeys[i]? = some key) :
    d.switches[i]? = some (switchOf key (d.valuesOf key)) := by
  have own : d.matrixSwitches[i]? = some (switchOf key (d.valuesOf key)) := by
    rw [matrixSwitches, values_ofDefinition, List.map_map, List.getElem?_map, h]
    rfl
  obtain ⟨hi, -⟩ := List.getElem?_eq_some_iff.1 own
  rw [switches, List.append_assoc, List.append_assoc, List.getElem?_append_left hi, own]

/-- Values that differ are not all texts and all truth values at once. -/
theorem not_all_isBool_of_isText (h : key ∈ d.varyingKeys)
    (texts : (d.valuesOf key).all (·.isText) = true) :
    (d.valuesOf key).all (·.isBool) = false := by
  have two := length_valuesOf h
  cases hv : d.valuesOf key with
  | nil => simp [hv] at two
  | cons s rest =>
    rw [hv, List.all_cons, Bool.and_eq_true] at texts
    obtain ⟨t, rfl⟩ := Scalar.isText_iff.1 texts.1
    rfl

/-- The switch for texts alone is a choice between them. -/
theorem chooses_switchOf (h : key ∈ d.varyingKeys)
    (texts : (d.valuesOf key).all (·.isText) = true) :
    ∃ options : List Text, d.valuesOf key = options.map .text ∧
      (switchOf key (d.valuesOf key)).Chooses options := by
  have whole : d.valuesOf key = ((d.valuesOf key).map Scalar.inWords).map .text := by
    rw [List.map_map]
    conv_lhs => rw [← List.map_id (d.valuesOf key)]
    refine List.map_congr_left fun s hs => ?_
    obtain ⟨t, rfl⟩ := Scalar.isText_iff.1 (List.all_eq_true.1 texts s hs)
    rfl
  have two := length_valuesOf h
  have apart := Scalar.pairwise_firstSeen (d.scalars.listed key)
  refine ⟨_, whole, ?_⟩
  rw [switchOf, if_neg (by rw [not_all_isBool_of_isText h texts]; exact Bool.false_ne_true),
    if_pos texts]
  refine ⟨rfl, ?_, ?_, by rwa [List.length_map]⟩
  · cases hv : d.valuesOf key with
    | nil => simp [hv] at two
    | cons s rest => exact ⟨s.inWords, rest.map Scalar.inWords, rfl, rfl⟩
  · change (d.valuesOf key).Pairwise _ at apart
    rw [whole, List.pairwise_map] at apart
    exact apart.imp fun differ same => by simp [Scalar.same, same] at differ

theorem kind_switchOf (key : Text) (values : List Scalar) :
    (switchOf key values).kind =
      if values.all (·.isBool) then .boolean else if values.all (·.isText) then .variant
      else .text := by
  unfold switchOf
  simp only
  split
  · rfl
  · split <;> rfl

end Definition

namespace Synthesizer

open InRun Definition

variable {s : Synthesizer} {d : Definition} {run after : Run} {vs : List ComponentVariant}

/-- Each variant has one of the options as the value of a property that varies over texts. -/
theorem exists_option_of_variant {key : Text} {options : List Text}
    (whole : d.valuesOf key = options.map .text) (hkey : key ∈ d.varyingKeys)
    (hy : (s.variants d).Yields run vs after) {v : ComponentVariant} (hv : v ∈ vs) :
    ∃ o ∈ options, Entries.get? v.properties key = some (.text o) := by
  obtain ⟨keys, values⟩ := values_of_variants (List.ne_nil_of_mem hkey) hy hv
  have nodup : (Entries.keys v.properties).Nodup := by
    rw [keys]
    exact d.nodup_varyingKeys
  rw [← keys] at hkey
  obtain ⟨e, he, rfl⟩ := List.mem_map.1 hkey
  have value := values e he
  rw [whole] at value
  obtain ⟨o, ho, hvalue⟩ := List.mem_map.1 value
  refine ⟨o, ho, ?_⟩
  rw [hvalue]
  exact Entries.get?_of_mem nodup he

/-- Within the limit each first-seen value of a property is the value of some variant. -/
theorem exists_variant_of_option {key : Text} {option : Text}
    (ho : .text option ∈ d.valuesOf key) (hkey : key ∈ d.varyingKeys) {k : Nat}
    (hk : s.limit.toNat = .ok k) (hcount : (PropertyMatrix.ofDefinition d).combinationCount ≤ k)
    (hy : (s.variants d).Yields run vs after) :
    ∃ v ∈ vs, Entries.get? v.properties key = some (.text option) := by
  have vary : d.varyingKeys ≠ [] := List.ne_nil_of_mem hkey
  have offers : d.Offers [(key, .text option)] := by
    refine ⟨List.nodup_singleton key, fun e he => ?_, fun e he => ?_⟩
    · obtain rfl := List.mem_singleton.1 he
      exact hkey
    · obtain rfl := List.mem_singleton.1 he
      exact ⟨.text option, Scalar.mem_of_mem_firstSeen ho,
        Scalar.agree_iff.2 ⟨_, _, rfl, rfl, beq_self_eq_true option⟩⟩
  obtain ⟨c, hc, switches⟩ := offers.exists_switchesTo vary
  rw [← properties_within_limit hk hcount vary hy] at hc
  obtain ⟨v, hv, rfl⟩ := List.mem_map.1 hc
  obtain ⟨t, u, found, hu, same⟩ :=
    Scalar.agree_iff.1 (switches.selected _ (List.mem_singleton.2 rfl))
  obtain rfl : Scalar.text option = u := Option.some.inj hu
  rw [Scalar.eq_text_of_same same] at found
  exact ⟨v, hv, found⟩

/-- **Switches and variants describe one space.** The switch for a property that varies stands at
the property's place. It is a choice exactly if all values that are observed for the property are
texts, on and off exactly if all are truth values, and free text exactly if neither is the case. The
options of a choice differ, there are two of them at least, and the first one is the default. Each
variant that is made has one of the options as the value of the property, and if all configurations
are within the limit, each option is the value of some variant. -/
theorem switches_describe_variants {i : Nat} {key : Text} (h : d.varyingKeys[i]? = some key) :
    ∃ p, d.switches[i]? = some p ∧ p.name = Variant.propertyTitle key ∧
      (p.kind = .variant ↔ ∀ s ∈ d.scalars.listed key, s.isText = true) ∧
      (p.kind = .boolean ↔ ∀ s ∈ d.scalars.listed key, s.isBool = true) ∧
      (p.kind = .text ↔ (¬∀ s ∈ d.scalars.listed key, s.isText = true) ∧
        ¬∀ s ∈ d.scalars.listed key, s.isBool = true) ∧
      (p.kind = .variant → ∃ options, p.Chooses options ∧
        ∀ (s : Synthesizer) (run after : Run) (vs : List ComponentVariant),
          (s.variants d).Yields run vs after →
          (∀ v ∈ vs, ∃ o ∈ options, Entries.get? v.properties key = some (.text o)) ∧
          ∀ k, s.limit.toNat = .ok k → (PropertyMatrix.ofDefinition d).combinationCount ≤ k →
            ∀ o ∈ options, ∃ v ∈ vs, Entries.get? v.properties key = some (.text o)) := by
  have hkey : key ∈ d.varyingKeys := List.mem_of_getElem? h
  have exclusive := not_all_isBool_of_isText hkey
  refine ⟨_, getElem?_switches h, name_switchOf key _, ?_⟩
  rw [← all_valuesOf_iff fun _ _ => Scalar.isText_of_same,
    ← all_valuesOf_iff fun _ _ => Scalar.isBool_of_same, kind_switchOf]
  refine ⟨?_, ?_, ?_, fun choice => ?_⟩
  · grind
  · grind
  · grind
  · have texts : (d.valuesOf key).all (·.isText) = true := by grind
    obtain ⟨options, whole, chooses⟩ := chooses_switchOf hkey texts
    refine ⟨options, chooses, fun s run after vs hy =>
      ⟨fun v hv => exists_option_of_variant whole hkey hy hv, fun k hk hcount o ho => ?_⟩⟩
    refine exists_variant_of_option ?_ hkey hk hcount hy
    rw [whole]
    exact List.mem_map.2 ⟨o, ho, rfl⟩

theorem switches_describe_variants_button :
    let save : Widget := { id := "save", kind := .button, properties := { size := some "medium" } }
    let big : RecordedVariant := { properties := [("size", .text "large"), ("badge", .number 1)] }
    let marked : RecordedVariant := { properties := [("badge", .bool true)] }
    let button : Definition := { widget := save, name := "Button", variants := [big, marked] }
    let s : Synthesizer := {}
    button.varyingKeys[0]? = some ("size" : Text) ∧
      ∃ p options, button.switches[0]? = some p ∧ p.kind = .variant ∧ p.Chooses options ∧
        ∃ vs after, (s.variants button).Yields {} vs after ∧
          (∀ v ∈ vs, ∃ o ∈ options, Entries.get? v.properties "size" = some (.text o)) ∧
          ∀ o ∈ options, ∃ v ∈ vs, Entries.get? v.properties "size" = some (.text o) := by
  intro save big marked button s
  have vary : button.varyingKeys[0]? = some ("size" : Text) := by decide +kernel
  obtain ⟨vs, after, hy⟩ := returns_iff.2 (by decide +kernel :
    (runFrom {} (s.variants button)).1.isOk = true)
  obtain ⟨p, hp, -, texts, -, -, describes⟩ := switches_describe_variants vary
  have choice : p.kind = .variant := texts.2 (by decide +kernel)
  obtain ⟨options, chooses, shown⟩ := describes choice
  obtain ⟨each, all⟩ := shown s {} after vs hy
  exact ⟨vary, p, options, hp, choice, chooses, vs, after, hy, each,
    all 16 rfl (by decide +kernel)⟩

end Synthesizer

end DesignTree
