import DesignTree.Proofs.Token.Coherence

/-! # What collections of several modes hold

Themes with names of their own are taken together as modes (`TokenTable.holds_of_addModes`). A
colour or a property of a text style has a token exactly if a theme defines it, with the values of
the themes that do; the token of a colour is made at once, that of a text property is put together
theme by theme (`TokenTable.isSome_foldl_putTextValue`). The keys of a scale are those of the first
theme, which also gives the values that the others leave out.
-/

namespace DesignTree

open Token

/-- The scale that a section shows. -/
def Token.Section.scale? : Section → Option Scale
  | .spacing => some .spacing
  | .borderRadius => some .borderRadius
  | .colors | .typography => none

theorem settings_ne_nil_iff {themes : List (Theme × Text)} {slot : Slot} :
    settings themes slot ≠ [] ↔ ∃ e ∈ themes, (e.1.value? slot).isSome := by
  simp [settings, List.filterMap_eq_nil_iff, Option.isSome_iff_ne_none]

/-- Each theme gives a slot one value at most, under its own mode. -/
theorem nodup_modes_settings {themes : List (Theme × Text)} (h : (themes.map (·.2)).Nodup)
    (slot : Slot) : ((settings themes slot).map (·.1)).Nodup := by
  refine (sublist_map_filterMap (k := (·.2)) (fun e setting he => ?_) themes).nodup h
  obtain ⟨value, -, rfl⟩ := Option.map_eq_some_iff.1 he
  rfl

namespace TokenTable

/-! ## Which tokens there are -/

theorem isSome_putTextValue (collection mode : Text) (vars : Entries ModalVariable)
    (token other : Text) (p : TextProperty) (value : TokenValue) :
    ((putTextValue collection mode vars token p value).get? other).isSome ↔
      (vars.get? other).isSome ∨ token = other := by
  unfold putTextValue
  by_cases h : token = other
  · rw [h, Entries.get?_set_self]
    simp
  · rw [Entries.get?_set_of_ne vars (Ne.symm h)]
    simp [h]

/-- The tokens that are collected are those of the values. -/
theorem isSome_foldl_putTextValue (collection token : Text)
    (items : List (Text × Text × TextProperty × TokenValue)) (vars : Entries ModalVariable) :
    ((items.foldl (fun vs e => putTextValue collection e.1 vs e.2.1 e.2.2.1 e.2.2.2)
        vars).get? token).isSome ↔
      (vars.get? token).isSome ∨ ∃ i ∈ items, i.2.1 = token := by
  induction items generalizing vars with
  | nil => simp
  | cons item rest ih =>
    rw [List.foldl_cons, ih, isSome_putTextValue, List.exists_mem_cons_iff, or_assoc]

theorem isSome_modalTypography (themes : List (Theme × Text)) (modes : List Mode)
    (name token : Text) :
    ((modalTypography themes modes name).get? token).isSome ↔
      ∃ e ∈ themes, ∃ i ∈ textItems e, i.2.1 = token := by
  rw [get?_modalTypography, collectTexts, isSome_foldl_putTextValue]
  simp only [Entries.get?_nil, Option.isSome_none, Bool.false_eq_true, false_or, List.mem_flatMap]
  constructor
  · rintro ⟨i, ⟨e, he, hi⟩, named⟩
    exact ⟨e, he, i, hi, named⟩
  · rintro ⟨e, he, i, hi, named⟩
    exact ⟨i, ⟨e, he, hi⟩, named⟩

/-- A theme has a value for a text property exactly if it defines the property. -/
theorem exists_textItem_iff (e : Theme × Text) (role : TextRole) (p : TextProperty) :
    (∃ i ∈ textItems e, i.2.1 = textName role p) ↔ (e.1.value? (.text role p)).isSome := by
  have only := filter_textItems e role p
  have nonempty : (∃ i ∈ textItems e, i.2.1 = textName role p) ↔
      (textItems e).filter (·.2.1 = textName role p) ≠ [] := by
    simp [List.filter_eq_nil_iff]
  rw [nonempty, only]
  cases e.1.value? (.text role p) <;> simp

theorem isSome_modalColors (themes : List (Theme × Text)) (modes : List Mode) (name : Text)
    (role : ColorRole) (h : (themes.map (·.2)).Nodup) :
    ((modalColors themes modes name).get? (colorName role)).isSome ↔
      settings themes (.color role) ≠ [] := by
  rw [get?_modalColors, Entries.ofItems_of_nodup (nodup_modes_settings h _)]
  cases settings themes (.color role) <;> simp

/-! ## Scales -/

/-- The values of a key of a scale: each theme's own one, or else a given one. -/
theorem foldl_scaleValues (scale : Scale) {themes : List (Theme × Text)}
    (h : (themes.map (·.2)).Nodup) (key : Text) (default : Number) :
    themes.foldl (fun (vs : Entries TokenValue) e =>
        vs.set e.2 (.number (((scale.entries e.1).get? key).getD default))) [] =
      themes.map fun e => (e.2, .number (((scale.entries e.1).get? key).getD default)) := by
  have distinct : ((themes.map fun e =>
      (e.2, TokenValue.number (((scale.entries e.1).get? key).getD default))).map (·.1)).Nodup := by
    rw [List.map_map]
    exact h
  rw [← Entries.ofItems_of_nodup distinct, Entries.ofItems, List.foldl_map]

theorem tokens_modalScale (scale : Scale) {base : Theme × Text} {rest : List (Theme × Text)}
    (h : ((base :: rest).map (·.2)).Nodup) (modes : List Mode) (name : Text) :
    (modalScale scale (base :: rest) modes name).tokens.map (fun v => (v.name, v.values)) =
      (scale.entries base.1).map fun entry => (scale.tokenName entry.1,
        (base :: rest).map fun e =>
          (e.2, .number (((scale.entries e.1).get? entry.1).getD entry.2))) := by
  rw [modalScale, KeyMap.map, List.map_map]
  exact List.map_congr_left fun entry _ =>
    congrArg (scale.tokenName entry.1, ·) (foldl_scaleValues scale h entry.1 entry.2)

/-! ## All collections of a name -/

/-- The collections of a name hold what the themes define, each theme's values under its mode, and
nothing else. -/
structure HoldsModes (t : TokenTable) (themes : List (Theme × Text)) (name : Text) : Prop where
  defined : ∀ slot : Slot, (t.getModal? (collectionName name slot.place) slot.token).isSome ↔
    ∃ e ∈ themes, (e.1.value? slot).isSome
  values : ∀ (slot : Slot) v, t.getModal? (collectionName name slot.place) slot.token = some v →
    v.values = settings themes slot
  slots : ∀ s : Section, s.scale? = none → ∀ c, t.modal.get? (collectionName name s) = some c →
    ∀ v ∈ c.tokens, ∃ slot : Slot, slot.place = s ∧ slot.token = v.name
  scales : ∀ (s : Section) scale base, s.scale? = some scale → themes.head? = some base →
    ∃ c, t.modal.get? (collectionName name s) = some c ∧
      c.tokens.map (fun v => (v.name, v.values)) =
        (scale.entries base.1).map fun entry => (scale.tokenName entry.1, themes.map fun e =>
          (e.2, .number (((scale.entries e.1).get? entry.1).getD entry.2)))

section

variable {t : TokenTable} {themes : List (Theme × Text)} {name : Text}

/-- A token of colours or text styles is that of a slot. -/
theorem exists_slot_of_mem_modalCollection {s : Section} (hs : s.scale? = none) {v : ModalVariable}
    (hv : v ∈ (modalCollection themes name s).tokens) :
    ∃ slot : Slot, slot.place = s ∧ slot.token = v.name := by
  cases s with
  | spacing | borderRadius => cases hs
  | colors =>
    obtain ⟨role, -, made⟩ := List.mem_filterMap.1 hv
    rw [Option.ite_none_left_eq_some, Option.some.injEq] at made
    exact ⟨.color role, rfl, congrArg ModalVariable.name made.2⟩
  | typography =>
    have found : ((modalCollection themes name .typography).get? v.name).isSome :=
      List.find?_isSome.2 ⟨v, hv, beq_self_eq_true v.name⟩
    obtain ⟨e, -, i, hi, named⟩ := (isSome_modalTypography themes _ _ v.name).1 found
    obtain ⟨style, -, hi⟩ := List.mem_flatMap.1 hi
    obtain ⟨value, -, rfl⟩ := List.mem_map.1 hi
    exact ⟨.text style.1 value.1, rfl, named⟩

theorem holdsModes_of_get?
    (ht : ∀ s, t.modal.get? (collectionName name s) = some (modalCollection themes name s))
    (distinct : (themes.map (·.2)).Nodup) : t.HoldsModes themes name := by
  have token (slot : Slot) : t.getModal? (collectionName name slot.place) slot.token =
      (modalCollection themes name slot.place).get? slot.token := by
    rw [getModal?, ht, Option.bind_some]
  have settled (slot : Slot) : Entries.ofItems (settings themes slot) = settings themes slot :=
    Entries.ofItems_of_nodup (nodup_modes_settings distinct slot)
  refine ⟨fun slot => ?_, fun slot v hv => ?_, fun s hs c hc v hv => ?_,
    fun s scale base hs hb => ⟨_, ht s, ?_⟩⟩
  · rw [token]
    cases slot with
    | color role => exact (isSome_modalColors themes _ _ role distinct).trans settings_ne_nil_iff
    | text role p =>
      refine (isSome_modalTypography themes _ _ _).trans ?_
      exact exists_congr fun e => and_congr_right fun _ => exists_textItem_iff e role p
  · have values : v.values = valuesOf (some v) := rfl
    rw [values, ← hv, token, ← settled]
    cases slot with
    | color role => exact valuesOf_modalColors themes _ _ role
    | text role p => exact valuesOf_modalTypography themes _ _ role p
  · rw [ht, Option.some.injEq] at hc
    subst hc
    exact exists_slot_of_mem_modalCollection hs hv
  · obtain ⟨rest, rfl⟩ : ∃ rest, themes = base :: rest := List.head?_eq_some_iff.1 hb
    cases s with
    | colors | typography => cases hs
    | spacing =>
      cases hs
      exact tokens_modalScale .spacing distinct _ _
    | borderRadius =>
      cases hs
      exact tokens_modalScale .borderRadius distinct _ _

end

/-- **Collections of several modes hold exactly what the themes define.** For themes with as many
different names, of which there are some, a colour or a property of a text style has a token if and
only if some theme defines it, and its values are those of the themes that do, under their names. A
scale has the keys of the first theme, in its order, with a value for every name. If the names are
too many or too few that is an error, and nothing changes then, nor without themes. -/
theorem holds_of_addModes (t : TokenTable) (themes : List Theme) (names : List Text)
    (name : Text) :
    (themes.length ≠ names.length →
      t.addModes themes names name =
        .error (.variable "Number of themes must match number of theme names" name) ∧
      t.after (.addModes themes names name) = t) ∧
    t.addModes [] [] name = .ok t ∧
    (themes.length = names.length → themes ≠ [] → names.Nodup →
      ∃ t', t.addModes themes names name = .ok t' ∧ t'.HoldsModes (themes.zip names) name) := by
  refine ⟨fun hl => ⟨if_pos hl, after_addModes_of_unfit t (.inl hl) name⟩, rfl,
    fun hl hn distinct => ?_⟩
  have added : t.addModes themes names name = .ok (t.after (.addModes themes names name)) := by
    rw [after_addModes t hl hn, addModes, if_neg (not_not.2 hl), if_neg (by simpa using hn)]
  refine ⟨_, added, holdsModes_of_get? (replaces_addModes t hl hn name).own ?_⟩
  rw [List.map_snd_zip (Nat.le_of_eq hl.symm)]
  exact distinct

theorem holds_of_addModes_light_dark :
    let light : Theme :=
      { colorScheme := { colors := .of [(.primary, "#6750A4"), (.error, "red")] },
        spacing := .of [("small", 8), ("large", 24)] }
    let dark : Theme := { colorScheme := { colors := .of [(.primary, "#D0BCFF")] },
                          spacing := .of [("large", 32), ("huge", 64)] }
    let large : Entries TokenValue := [("Light", .number 24), ("Dark", .number 32)]
    let small : Entries TokenValue := [("Light", .number 8), ("Dark", .number 8)]
    let spacing : Entries (Entries TokenValue) :=
      [("spacing-small", small), ("spacing-large", large)]
    ∃ t, ({} : TokenTable).addModes [light, dark] ["Light", "Dark"] "App" = .ok t ∧
      t.HoldsModes [(light, "Light"), (dark, "Dark")] "App" ∧
      t.getModal? "App Colors" "error" = none ∧
      (t.modal.get? "App Spacing").map (fun c => c.tokens.map fun v => (v.name, v.values)) =
        some spacing := by
  intro light dark large small spacing
  obtain ⟨t, ht, holds⟩ := (holds_of_addModes {} [light, dark] ["Light", "Dark"] "App").2.2 rfl
    (by simp) (by decide)
  have values : (({} : TokenTable).addModes [light, dark] ["Light", "Dark"] "App").toOption.any
      (fun t => t.getModal? "App Colors" "error" = none ∧
        (t.modal.get? "App Spacing").map (fun c => c.tokens.map fun v => (v.name, v.values)) =
          some spacing) = true := by
    decide +kernel
  rw [ht] at values
  exact ⟨t, ht, holds, of_decide_eq_true values⟩

end TokenTable

end DesignTree
