import DesignTree.Proofs.Conversion.Usage
import DesignTree.Proofs.Decode.Slot
import DesignTree.Proofs.Decode.Spelling
import DesignTree.Proofs.Variant.SwitchOption
import DesignTree.Proofs.Widget.TextSearch

/-! # Texts that instances override

What an instance overrides is how its usage differs from the component's widget, whichever switches
the component has. So an instance has a text of its own as soon as its usage shows one that the
widget does not show (`Definition.get?_text_overrides`). The component has a free text to switch by
this name where its widget has text content, or where a property of this title varies over more than
texts and more than truth values (`Definition.exposes_text_iff`).
-/

namespace DesignTree

/-- What a node overrides under a name. -/
def Node.override? (n : Node) (name : Text) : Option Value :=
  n.properties.overrides.bind (Entries.get? · name)

/-- A component has a free text of a name among its switches. -/
def Component.Exposes (c : Component) (name : Text) : Prop :=
  ∃ p ∈ c.properties, p.kind = .text ∧ p.name = name

namespace Definition

variable {d : Definition} {usage : Widget} {key : Text}

/-! ## Overrides -/

theorem keys_lengthOverride_subset (name : Text) (base own : Option Number) :
    (lengthOverride name base own).keys ⊆ [name] := by
  unfold lengthOverride
  split
  · split
    · exact List.nil_subset _
    · exact List.Subset.refl _
  · exact List.nil_subset _

/-- A length is overridden under its own name alone. -/
theorem get?_lengthOverride_of_ne {name other : Text} (h : other ≠ name)
    (base own : Option Number) : (lengthOverride name base own).get? other = none :=
  Entries.get?_eq_none fun hm =>
    h (List.mem_singleton.1 (keys_lengthOverride_subset name base own hm))

theorem exists_place_of_mem_keys_colorOverrides (h : key ∈ (d.colorOverrides usage).keys) :
    ∃ i : Nat, key = "Color_" ++ (i.repr : Text) := by
  obtain ⟨e, he, rfl⟩ := List.mem_map.1 h
  obtain ⟨⟨c, i⟩, -, hc⟩ := List.mem_filterMap.1 he
  simp only at hc
  split at hc
  · cases hc
  · exact ⟨i, (congrArg Prod.fst (Option.some.inj hc)).symm⟩

theorem get?_text_colorOverrides (d : Definition) (usage : Widget) :
    (d.colorOverrides usage).get? "Text" = none := by
  refine Entries.get?_eq_none fun h => ?_
  obtain ⟨i, hi⟩ := exists_place_of_mem_keys_colorOverrides h
  have first := congrArg (fun t : Text => t.toList.head?) hi
  rw [Text.toList_append, List.head?_append_of_ne_nil _ (by decide)] at first
  exact absurd first (by decide)

/-- The text that is overridden is that of the usage, where the component's widget has another one
or none. -/
theorem get?_text_overrides {v : Value} :
    (d.overrides usage).get? "Text" = some v ↔
      ∃ t, v = .text t ∧ usage.extractText = some t ∧ d.widget.extractText ≠ some t := by
  rw [overrides, Entries.get?_append, Entries.get?_append, Entries.get?_append,
    get?_text_colorOverrides, get?_lengthOverride_of_ne (by decide),
    get?_lengthOverride_of_ne (by decide), Option.or_none, Option.or_none, Option.or_none,
    textOverride]
  cases usage.extractText with
  | none => simp
  | some t =>
    by_cases same : d.widget.extractText = some t
    · simp [same]
    · simp only [if_neg same]
      constructor
      · rintro ⟨⟩
        exact ⟨t, rfl, rfl, same⟩
      · rintro ⟨_, rfl, ⟨⟩, -⟩
        rfl

/-! ## Switches -/

theorem mem_matrixSwitches {p : ComponentProperty} :
    p ∈ d.matrixSwitches ↔ ∃ key ∈ d.varyingKeys, switchOf key (d.valuesOf key) = p := by
  rw [matrixSwitches, values_ofDefinition, List.map_map, List.mem_map]
  rfl

/-- The values that are observed for a property are neither texts alone nor truth values alone. -/
def Mixes (d : Definition) (key : Text) : Prop :=
  (¬∀ s ∈ d.scalars.listed key, s.isText = true) ∧ ¬∀ s ∈ d.scalars.listed key, s.isBool = true

theorem kind_switchOf_eq_text_iff : (switchOf key (d.valuesOf key)).kind = .text ↔ d.Mixes key := by
  rw [Mixes, ← all_valuesOf_iff fun _ _ => Scalar.isText_of_same,
    ← all_valuesOf_iff fun _ _ => Scalar.isBool_of_same, kind_switchOf]
  grind

/-- The free texts called "Text" among the switches are those of mixed properties of this title, and
that of the widget's text content. -/
theorem exposes_text_iff :
    (∃ p ∈ d.switches, p.kind = .text ∧ p.name = "Text") ↔
      d.widget.hasTextContent = true ∨
        ∃ key ∈ d.varyingKeys, Variant.propertyTitle key = "Text" ∧ d.Mixes key := by
  obtain ⟨-, noText, -⟩ := names_kind d.widget.kind
  have properties : (∃ p ∈ d.matrixSwitches, p.kind = .text ∧ p.name = "Text") ↔
      ∃ key ∈ d.varyingKeys, Variant.propertyTitle key = "Text" ∧ d.Mixes key := by
    constructor
    · rintro ⟨p, hp, hk, hn⟩
      obtain ⟨key, hkey, rfl⟩ := mem_matrixSwitches.1 hp
      exact ⟨key, hkey, name_switchOf key _ ▸ hn, kind_switchOf_eq_text_iff.1 hk⟩
    · rintro ⟨key, hkey, title, mixes⟩
      exact ⟨_, mem_matrixSwitches.2 ⟨key, hkey, rfl⟩, kind_switchOf_eq_text_iff.2 mixes,
        (name_switchOf key _).trans title⟩
  have ofKind : ¬∃ p ∈ d.kindSwitches, p.kind = .text ∧ p.name = "Text" := by
    rintro ⟨p, hp, -, hn⟩
    exact noText (hn ▸ List.mem_map_of_mem (List.mem_filter.1 hp).1)
  have ofText : (∃ p ∈ d.textSwitch, p.kind = .text ∧ p.name = "Text") ↔
      d.widget.hasTextContent = true := by
    unfold textSwitch
    cases d.widget.hasTextContent <;> simp
  have ofIcon : ¬∃ p ∈ d.iconSwitch, p.kind = .text ∧ p.name = "Text" := by
    unfold iconSwitch
    cases d.widget.hasIconContent <;> simp
  simp only [switches, List.mem_append, or_and_right, exists_or, properties, ofKind, ofText, ofIcon,
    or_false]
  exact or_comm

end Definition

/-- The only component of a catalog is found by its identifier. -/
theorem Catalog.get_singleton (b : BuiltComponent) : get [b] b.component.id = .ok b := by
  simp [get, find?, byId?]

namespace Synthesizer

open InRun Definition

variable {s : Synthesizer} {d : Definition} {component : Component} {c : Catalog}
  {usage : Widget} {key : Text} {before behind run after : Run} {n : Node}

theorem exposes_text_of_build (h : (s.build d).Yields before component behind) :
    component.Exposes "Text" ↔ d.widget.hasTextContent = true ∨
      ∃ key ∈ d.varyingKeys, Variant.propertyTitle key = "Text" ∧ d.Mixes key := by
  rw [Component.Exposes, properties_of_build h, exposes_text_iff]

/-- An instance of the only component of a catalog. -/
theorem exists_instantiate (hd : (s.build d).Returns before) (hu : usage.instanceable = true) :
    ∃ component between n after, (s.build d).Yields before component between ∧
      (Catalog.instantiate [⟨d, component⟩] usage component.id).Yields between n after := by
  obtain ⟨component, between, hc⟩ := hd
  have made : (Catalog.instantiate [⟨d, component⟩] usage component.id).Returns between :=
    (Catalog.returns_instantiate_iff (Catalog.get_singleton ⟨d, component⟩)).2 hu
  obtain ⟨n, after, hn⟩ := made
  exact ⟨component, between, n, after, hc, hn⟩

theorem override?_of_instantiate {b : BuiltComponent} (hb : c.get key = .ok b)
    (h : (c.instantiate usage key).Yields run n after) (name : Text) :
    n.override? name = (b.definition.overrides usage).get? name := by
  obtain ⟨p, hp, -, rfl⟩ := (Catalog.yields_instantiate_of_get hb).1 h
  rw [BuiltComponent.eq_of_instanceProperties hp]
  rfl

/-- **Which texts instances override.** An instance overrides the text exactly if its usage shows a
text that is not the one of the component's widget, and it overrides it by that text. The component
has a free text "Text" to switch exactly if its widget has text content, or a property of this title
varies over values that are neither texts alone nor truth values alone. So the text that an instance
overrides is one that the component does not offer exactly if the usage shows a text while the
widget has no text content and no such property. -/
theorem text_override_of_instantiate (hcomponent : (s.build d).Yields before component behind)
    (hfound : c.get key = .ok ⟨d, component⟩)
    (hinstance : (c.instantiate usage key).Yields run n after) :
    (∀ v, n.override? "Text" = some v ↔
        ∃ t, v = .text t ∧ usage.extractText = some t ∧ d.widget.extractText ≠ some t) ∧
      (component.Exposes "Text" ↔ d.widget.hasTextContent = true ∨
        ∃ key ∈ d.varyingKeys, Variant.propertyTitle key = "Text" ∧ d.Mixes key) ∧
      (n.override? "Text" ≠ none ∧ ¬component.Exposes "Text" ↔
        usage.extractText ≠ none ∧ d.widget.hasTextContent = false ∧
          ¬∃ key ∈ d.varyingKeys, Variant.propertyTitle key = "Text" ∧ d.Mixes key) := by
  have overridden (v : Value) : n.override? "Text" = some v ↔
      ∃ t, v = .text t ∧ usage.extractText = some t ∧ d.widget.extractText ≠ some t := by
    rw [override?_of_instantiate hfound hinstance]
    exact get?_text_overrides
  have exposed := exposes_text_of_build hcomponent
  refine ⟨overridden, exposed, ?_⟩
  rw [exposed, not_or, Bool.not_eq_true, Option.ne_none_iff_exists', Option.ne_none_iff_exists']
  simp only [overridden]
  constructor
  · rintro ⟨⟨v, t, -, shown, -⟩, without⟩
    exact ⟨⟨t, shown⟩, without⟩
  · rintro ⟨⟨t, shown⟩, noText, noProperty⟩
    -- A widget without text content has no text that the usage could have in common with it.
    refine ⟨⟨.text t, t, rfl, shown, fun same => ?_⟩, noText, noProperty⟩
    rw [Widget.hasTextContent_of_extractText same] at noText
    cases noText

theorem text_override_of_instantiate_button :
    let label : Widget := { id := "label", kind := .text, properties := { data := some "Save" } }
    let save : Widget := { id := "save", kind := .button, children := [label] }
    let send : Widget := { id := "send", kind := .button, properties := { text := some "Send" } }
    let button : Definition := { widget := save, name := "Button" }
    let s : Synthesizer := {}
    ∃ component between n after, (s.build button).Yields {} component between ∧
      Catalog.get [⟨button, component⟩] component.id = .ok ⟨button, component⟩ ∧
      (Catalog.instantiate [⟨button, component⟩] send component.id).Yields between n after ∧
      n.override? "Text" = some (.text "Send") ∧ component.Exposes "Text" := by
  intro label save send button s
  obtain ⟨component, between, n, after, hc, hn⟩ := exists_instantiate
    (returns_iff.2 (by decide +kernel : (runFrom {} (s.build button)).1.isOk = true))
    (by decide +kernel : send.instanceable = true)
  have found := Catalog.get_singleton ⟨button, component⟩
  obtain ⟨overridden, exposed, -⟩ := text_override_of_instantiate hc found hn
  exact ⟨component, between, n, after, hc, found, hn,
    (overridden _).2 ⟨"Send", rfl, by decide +kernel, by decide +kernel⟩,
    exposed.2 (.inl (by decide +kernel))⟩

/-- A component that shows no text offers none, and yet its instance for a text overrides it. -/
theorem text_override_of_pane :
    let pane : Definition := { widget := { id := "pane", kind := .container }, name := "Pane" }
    let hi : Widget := { id := "hi", kind := .text, properties := { data := some "Hi" } }
    let s : Synthesizer := {}
    ∃ component between n after, (s.build pane).Yields {} component between ∧
      (Catalog.instantiate [⟨pane, component⟩] hi component.id).Yields between n after ∧
      n.override? "Text" = some (.text "Hi") ∧ ¬component.Exposes "Text" := by
  intro pane hi s
  obtain ⟨component, between, n, after, hc, hn⟩ := exists_instantiate
    (returns_iff.2 (by decide +kernel : (runFrom {} (s.build pane)).1.isOk = true))
    (by decide +kernel : hi.instanceable = true)
  refine ⟨component, between, n, after, hc, hn, ?_, ?_⟩
  · rw [override?_of_instantiate (Catalog.get_singleton ⟨pane, component⟩) hn, get?_text_overrides]
    exact ⟨"Hi", rfl, by decide +kernel, (by decide +kernel : pane.widget.extractText ≠ some "Hi")⟩
  · have switches : pane.switches = [] := by decide +kernel
    rw [Component.Exposes, properties_of_build hc, switches]
    exact fun ⟨p, hp, _⟩ => List.not_mem_nil hp

end Synthesizer

end DesignTree
