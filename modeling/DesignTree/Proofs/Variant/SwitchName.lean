import DesignTree.Proofs.Variant.FirstSeen
import DesignTree.Variant.Switch

/-! # Names of switches

A switch of a component is named by the title of its property, by its widget's kind, or as the text
or the icon that the widget shows. Switches of the kind give way to properties of the same name, and
those of the text and the icon do not. So names are unique only where no title is given twice, and
none is the name of a switch for content (`Definition.nodup_names_switches_iff`). Properties with
names in camel case have titles of their own (`Variant.propertyTitle_inj`), and what is left is
whether one is called as the content.
-/

namespace DesignTree

/-! ## Titles -/

namespace Text

/-- Whether a text starts with a small letter and has no blanks. -/
def isCamelCase (s : Text) : Bool :=
  match s.toList with
  | [] => false
  | c :: rest => 'a' ≤ c && c ≤ 'z' && rest.all (!isBlank ·)

theorem filter_dropWhile {α : Type} (p : α → Bool) (cs : List α) :
    (cs.dropWhile p).filter (!p ·) = cs.filter (!p ·) := by
  induction cs with
  | nil => rfl
  | cons c rest ih =>
    cases hc : p c with
    | true => rw [List.dropWhile_cons_of_pos hc, ih, List.filter_cons_of_neg (by simp [hc])]
    | false => rw [List.dropWhile_cons_of_neg (by simp [hc])]

/-- Trimming takes nothing away but blanks. -/
theorem filter_trim (s : Text) :
    (trim s).toList.filter (!isBlank ·) = s.toList.filter (!isBlank ·) := by
  change (trimList isBlank s.toList).filter _ = _
  rw [trimList, List.filter_reverse, filter_dropWhile, List.filter_reverse, List.reverse_reverse,
    filter_dropWhile]

/-- Marking capitals by a space adds nothing but blanks. -/
theorem filter_markCapitals {cs : List CodePoint} (h : ∀ c ∈ cs, isBlank c = false) :
    (markCapitals ' ' cs).filter (!isBlank ·) = cs := by
  induction cs with
  | nil => rfl
  | cons c rest ih =>
    rw [List.forall_mem_cons] at h
    have space : isBlank (' ' : CodePoint) = true := by decide
    have own : (if 'A' ≤ c ∧ c ≤ 'Z' then [(' ' : CodePoint), c] else [c]).filter (!isBlank ·) =
        [c] := by
      split <;> simp [space, h.1]
    rw [markCapitals, List.flatMap_cons, List.filter_append, own]
    exact congrArg (List.cons c) (ih h.2)

/-- A small letter has a capital of its own, which is no blank. -/
theorem upperChar_small {c : CodePoint} (h : 'a' ≤ c ∧ c ≤ 'z') :
    ∃ d : CodePoint, upperChar c = [d] ∧ d.toNat + 32 = c.toNat ∧ isBlank d = false := by
  have letters : ∀ i < 26, upperChar (.ofNat (97 + i)) = [.ofNat (65 + i)] ∧
      (CodePoint.ofNat (65 + i)).toNat = 65 + i ∧ isBlank (.ofNat (65 + i)) = false := by
    decide +kernel
  have low : 97 ≤ c.toNat := h.1
  have high : c.toNat ≤ 122 := h.2
  obtain ⟨upper, number, blank⟩ := letters (c.toNat - 97) (by omega)
  have self : CodePoint.ofNat (97 + (c.toNat - 97)) = c := by
    rw [Nat.add_sub_cancel' low, CodePoint.ofNat, dif_pos c.isLt]
  rw [self] at upper
  exact ⟨_, upper, by omega, blank⟩

end Text

namespace Variant

open Text

/-- The title of a name in camel case, blanks left out, is the name with a capital. -/
theorem filter_propertyTitle {s : Text} (h : s.isCamelCase = true) :
    ∃ c d rest, s.toList = c :: rest ∧ d.toNat + 32 = c.toNat ∧
      (propertyTitle s).toList.filter (!isBlank ·) = d :: rest := by
  unfold isCamelCase at h
  split at h
  · cases h
  · next c rest hs =>
    simp only [Bool.and_eq_true, decide_eq_true_eq] at h
    obtain ⟨d, upper, number, blank⟩ := upperChar_small h.1
    have plain : ∀ e ∈ rest, isBlank e = false := fun e he => by
      simpa using List.all_eq_true.1 h.2 e he
    have small : ¬('A' ≤ c ∧ c ≤ 'Z') := fun capital => by
      have low : 97 ≤ c.toNat := h.1.1
      have high : c.toNat ≤ 90 := capital.2
      omega
    have marked : markCapitals ' ' s.toList = c :: markCapitals ' ' rest := by
      rw [hs, markCapitals, List.flatMap_cons, if_neg small]
      rfl
    have shown : (capitalizeFirst (Text.ofList (markCapitals ' ' s.toList))).toList =
        d :: markCapitals ' ' rest := by
      rw [marked, capitalizeFirst]
      simp [upper]
    refine ⟨c, d, rest, hs, number, ?_⟩
    rw [propertyTitle, filter_trim, shown, List.filter_cons_of_pos (by simp [blank]),
      filter_markCapitals plain]

/-- Names in camel case have different titles. -/
theorem propertyTitle_inj {s t : Text} (hs : s.isCamelCase = true) (ht : t.isCamelCase = true)
    (h : propertyTitle s = propertyTitle t) : s = t := by
  obtain ⟨c, d, rest, hc, number, shown⟩ := filter_propertyTitle hs
  obtain ⟨c', d', rest', hc', number', shown'⟩ := filter_propertyTitle ht
  rw [h, shown', List.cons.injEq] at shown
  obtain ⟨rfl, rfl⟩ := shown
  have first : c = c' := by
    cases c
    cases c'
    simp only [CodePoint.mk.injEq]
    simp only at number number'
    omega
  rw [Text.ext_iff, hc, hc', first]

end Variant

/-! ## Switches -/

namespace Definition

open Variant

variable {d : Definition}

theorem name_switchOf (key : Text) (values : List Scalar) :
    (switchOf key values).name = propertyTitle key := by
  unfold switchOf
  simp only
  split
  · rfl
  · split <;> rfl

theorem names_matrixSwitches (d : Definition) :
    d.matrixSwitches.map (·.name) = d.varyingKeys.map propertyTitle := by
  rw [matrixSwitches, values_ofDefinition, List.map_map, List.map_map]
  exact List.map_congr_left fun key _ => name_switchOf key _

/-- The names of a kind's switches differ from each other and from those of the content. -/
theorem names_kind (k : WidgetKind) :
    (k.switches.map (·.name)).Nodup ∧ ("Text" : Text) ∉ k.switches.map (·.name) ∧
      ("Icon" : Text) ∉ k.switches.map (·.name) := by
  cases k <;> decide +kernel

theorem mem_names_content_iff {name : Text} :
    name ∈ (d.textSwitch ++ d.iconSwitch).map (·.name) ↔
      (d.widget.hasTextContent = true ∧ name = "Text") ∨
        (d.widget.hasIconContent = true ∧ name = "Icon") := by
  unfold textSwitch iconSwitch
  cases d.widget.hasTextContent <;> cases d.widget.hasIconContent <;> simp

theorem nodup_names_content (d : Definition) :
    ((d.textSwitch ++ d.iconSwitch).map (·.name)).Nodup := by
  have differ : ("Text" : Text) ≠ "Icon" := by decide
  unfold textSwitch iconSwitch
  cases d.widget.hasTextContent <;> cases d.widget.hasIconContent <;> simp [differ]

theorem nodup_names_kindSwitches (d : Definition) : (d.kindSwitches.map (·.name)).Nodup :=
  (names_kind d.widget.kind).1.sublist (List.filter_sublist.map _)

/-- The names of all switches differ as soon as those of the properties do, and none of them is the
name of a switch for content. -/
theorem nodup_names_iff_content (d : Definition) :
    (d.switches.map (·.name)).Nodup ↔ (d.varyingKeys.map propertyTitle).Nodup ∧
      ∀ name ∈ (d.textSwitch ++ d.iconSwitch).map (·.name),
        name ∉ d.varyingKeys.map propertyTitle := by
  obtain ⟨-, noText, noIcon⟩ := names_kind d.widget.kind
  have kindApart : ∀ a ∈ d.matrixSwitches.map (·.name), ∀ b ∈ d.kindSwitches.map (·.name),
      a ≠ b := by
    rintro a ha b hb rfl
    obtain ⟨p, hp, rfl⟩ := List.mem_map.1 hb
    simpa [ha] using (List.mem_filter.1 hp).2
  have kindOutside : ∀ a ∈ d.kindSwitches.map (·.name),
      ∀ b ∈ (d.textSwitch ++ d.iconSwitch).map (·.name), a ≠ b := by
    rintro a ha b hb rfl
    have own : a ∈ d.widget.kind.switches.map (·.name) := List.filter_sublist.map _ |>.subset ha
    rcases mem_names_content_iff.1 hb with ⟨-, rfl⟩ | ⟨-, rfl⟩
    · exact noText own
    · exact noIcon own
  rw [switches, List.append_assoc, List.map_append, List.map_append, List.nodup_append,
    List.nodup_append, ← names_matrixSwitches]
  constructor
  · rintro ⟨⟨properties, -, -⟩, -, apart⟩
    exact ⟨properties, fun name hc hm => apart name (List.mem_append_left _ hm) name hc rfl⟩
  · rintro ⟨properties, apart⟩
    refine ⟨⟨properties, d.nodup_names_kindSwitches, kindApart⟩, d.nodup_names_content, ?_⟩
    rintro a ha b hb rfl
    rcases List.mem_append.1 ha with hm | hk
    · exact apart a hb hm
    · exact kindOutside a hk a hb rfl

/-- **When switches have unique names.** The names of the switches of a reusable widget are unique
exactly if no two of the properties that vary have one title, none has the title "Text" where the
widget shows a text, and none has the title "Icon" where it shows an icon. Where the properties that
vary have names in camel case, it is enough that none is called "text" or "icon", respectively. -/
theorem nodup_names_switches_iff (d : Definition) :
    ((d.switches.map (·.name)).Nodup ↔ (d.varyingKeys.map propertyTitle).Nodup ∧
      (d.widget.hasTextContent = true → ("Text" : Text) ∉ d.varyingKeys.map propertyTitle) ∧
      (d.widget.hasIconContent = true → ("Icon" : Text) ∉ d.varyingKeys.map propertyTitle)) ∧
    ((∀ key ∈ d.varyingKeys, key.isCamelCase = true) →
      ((d.switches.map (·.name)).Nodup ↔
        (d.widget.hasTextContent = true → ("text" : Text) ∉ d.varyingKeys) ∧
        (d.widget.hasIconContent = true → ("icon" : Text) ∉ d.varyingKeys))) := by
  have general : (d.switches.map (·.name)).Nodup ↔ (d.varyingKeys.map propertyTitle).Nodup ∧
      (d.widget.hasTextContent = true → ("Text" : Text) ∉ d.varyingKeys.map propertyTitle) ∧
      (d.widget.hasIconContent = true → ("Icon" : Text) ∉ d.varyingKeys.map propertyTitle) := by
    rw [nodup_names_iff_content]
    simp only [mem_names_content_iff, or_imp, and_imp, forall_and, forall_eq_apply_imp_iff]
  refine ⟨general, fun camel => general.trans ?_⟩
  have titles : (d.varyingKeys.map propertyTitle).Nodup :=
    d.nodup_varyingKeys.map_on fun s hs t ht => propertyTitle_inj (camel s hs) (camel t ht)
  have among (name title : Text) (hname : name.isCamelCase = true)
      (htitle : propertyTitle name = title) :
      title ∈ d.varyingKeys.map propertyTitle ↔ name ∈ d.varyingKeys := by
    rw [List.mem_map]
    constructor
    · rintro ⟨key, hkey, same⟩
      rwa [← propertyTitle_inj (camel key hkey) hname (same.trans htitle.symm)]
    · exact fun h => ⟨name, h, htitle⟩
  rw [among "text" "Text" (by decide) rfl, among "icon" "Icon" (by decide) rfl,
    and_iff_right titles]

theorem nodup_names_switches_iff_button :
    let save : Widget := { id := "save", kind := .button,
                           properties := { text := some "Save", size := some "medium" } }
    let large : RecordedVariant := { properties := [("size", .text "large")] }
    let button : Definition := { widget := save, name := "Button", variants := [large] }
    button.varyingKeys = ["size"] ∧ button.widget.hasTextContent = true ∧
      (button.switches.map (·.name)).Nodup := by
  intro save large button
  have vary : button.varyingKeys = ["size"] := by decide +kernel
  have text : ("text" : Text) ∉ button.varyingKeys := by
    rw [vary]
    decide
  have camel : ∀ key ∈ button.varyingKeys, key.isCamelCase = true := by
    rw [vary]
    decide
  refine ⟨vary, by decide +kernel, ?_⟩
  exact ((nodup_names_switches_iff button).2 camel).2
    ⟨fun _ => text, fun icon => absurd icon (by decide +kernel)⟩

/-- Where the text of a widget varies, its property has the name of the switch for the text. -/
theorem names_switches_of_varying_text :
    let save : Widget := { id := "save", kind := .button, properties := { text := some "Save" } }
    let cancel : RecordedVariant := { name := "Cancel", properties := [("text", .text "Cancel")] }
    let button : Definition := { widget := save, name := "Button", variants := [cancel] }
    button.switches.map (·.name) = ["Text", "State", "Size", "Text"] ∧
      ¬(button.switches.map (·.name)).Nodup := by
  decide +kernel

end Definition

end DesignTree
