import DesignTree.Proofs.Token.Identity

/-! # The modes of tokens

A slot is what a theme can give a value to: the colour of a role, or a property of a text style. In
several themes taken together each gives its values under its mode, one theme after the other, so
that the token of a slot has the values that `settings` lists (`modalValue?_eq`). The value of a
theme is there where no later theme of the same mode gives another one (`modalValue?_of_last`).
-/

namespace DesignTree

open Token

/-- What a theme can give a value to under a mode: a colour, or a property of a text style. -/
inductive Slot
  | color (role : ColorRole)
  | text (role : TextRole) (property : TextProperty)
  deriving DecidableEq, Repr

namespace Slot

/-- The section that the token of a slot is in. -/
def place : Slot → Section
  | .color _ => .colors
  | .text _ _ => .typography

/-- The name of the token of a slot. -/
def token : Slot → Text
  | .color role => colorName role
  | .text role p => textName role p

end Slot

/-- The value that a theme gives to a slot. A malformed colour is none. -/
def Theme.value? (t : Theme) : Slot → Option TokenValue
  | .color role => (TokenTable.wellFormed (TokenTable.roleColor t.colorScheme role)).map .color
  | .text role p => (t.textTheme.styles.get? role).bind p.valueIn

/-- The values that themes give to a slot, each under its mode. -/
def settings (themes : List (Theme × Text)) (slot : Slot) : List (Text × TokenValue) :=
  themes.filterMap fun e => (e.1.value? slot).map (e.2, ·)

/-- Modes that get a value are modes of the themes. -/
theorem mem_modes_of_mem_settings {themes : List (Theme × Text)} {slot : Slot} {mode : Text}
    (h : mode ∈ (settings themes slot).map (·.1)) :
    ∃ theme value, (theme, mode) ∈ themes ∧ theme.value? slot = some value := by
  obtain ⟨e, he, rfl⟩ := List.mem_map.1 h
  obtain ⟨⟨theme, mode⟩, ht, hv⟩ := List.mem_filterMap.1 he
  obtain ⟨value, hvalue, rfl⟩ := Option.map_eq_some_iff.1 hv
  exact ⟨theme, value, ht, hvalue⟩

/-! ## Finding values -/

/-- Among what is left of some items, the name of one finds what is left of it. -/
theorem find?_filterMap_of_nodup {α β κ : Type} [DecidableEq κ] (name : β → κ) (k : α → κ)
    {f : α → Option β} (hf : ∀ a b, f a = some b → name b = k a) {items : List α}
    (hn : (items.map k).Nodup) {a : α} (ha : a ∈ items) :
    (items.filterMap f).find? (fun b => name b = k a) = f a := by
  have same {b : β} (hb : b ∈ items.filterMap f) (hk : name b = k a) : f a = some b := by
    obtain ⟨c, hc, hfc⟩ := List.mem_filterMap.1 hb
    rw [← List.inj_on_of_nodup_map hn hc ha ((hf c b hfc).symm.trans hk), hfc]
  cases hfind : (items.filterMap f).find? fun b => name b = k a with
  | some b =>
    exact (same (List.mem_of_find?_eq_some hfind) (by simpa using List.find?_some hfind)).symm
  | none =>
    cases hfa : f a with
    | none => rfl
    | some b =>
      have hb : b ∈ items.filterMap f := List.mem_filterMap.2 ⟨a, ha, hfa⟩
      exact absurd (decide_eq_true (hf a b hfa)) (List.find?_eq_none.1 hfind b hb)

namespace Token

/-- The values that a text style gives to its properties. -/
def styleMap (s : TextStyle) : KeyMap TextProperty TokenValue :=
  ⟨styleValues s, nodup_styleValues s⟩

theorem get?_styleMap (s : TextStyle) (p : TextProperty) : (styleMap s).get? p = p.valueIn s := by
  have named (p : TextProperty) (v : TextProperty × TokenValue)
      (hv : (p.valueIn s).map (p, ·) = some v) : v.1 = p := by
    obtain ⟨value, -, rfl⟩ := Option.map_eq_some_iff.1 hv
    rfl
  have mem : p ∈ TextProperty.all := by cases p <;> decide
  have found := find?_filterMap_of_nodup Prod.fst id named (by decide) mem
  refine (congrArg (Option.map Prod.snd) found).trans ?_
  cases p.valueIn s <;> rfl

end Token

namespace TokenTable

/-- The values of a token. A token that is not there has none. -/
def valuesOf (v : Option ModalVariable) : Entries TokenValue := (v.map (·.values)).getD []

theorem get?_valuesOf (v : Option ModalVariable) (mode : Text) :
    (valuesOf v).get? mode = v.bind (·.values.get? mode) := by
  cases v <;> rfl

/-! ## Colours -/

theorem mem_colorRoles (role : ColorRole) : role ∈ ColorRole.all := by cases role <;> decide

/-- The settings of a colour are put one theme after the other. -/
theorem ofItems_settings_color (themes : List (Theme × Text)) (role : ColorRole) :
    Entries.ofItems (settings themes (.color role)) =
      themes.foldl (fun (vs : Entries TokenValue) e =>
        match wellFormed (roleColor e.1.colorScheme role) with
        | some c => vs.set e.2 (.color c)
        | none => vs) [] := by
  rw [settings, Entries.ofItems, List.foldl_filterMap]
  congr 1
  funext vs e
  rw [Theme.value?]
  cases wellFormed (roleColor e.1.colorScheme role) <;> rfl

/-- The token of a colour has the values that the themes give. -/
theorem get?_modalColors (themes : List (Theme × Text)) (modes : List Mode) (name : Text)
    (role : ColorRole) :
    (modalColors themes modes name).get? (colorName role) =
      let values := Entries.ofItems (settings themes (.color role))
      if values.isEmpty then none
      else some ⟨colorName role, .color, colorScopes role, values,
        spoken (colorName role) ++ " color across theme modes", name⟩ := by
  have values := ofItems_settings_color themes role
  rw [modalColors, ModalCollection.get?]
  dsimp only
  refine (find?_filterMap_of_nodup ModalVariable.name colorName (fun a b h => ?_) nodup_colorNames
    (mem_colorRoles role)).trans ?_
  · rw [Option.ite_none_left_eq_some, Option.some.injEq] at h
    rw [← h.2]
  · generalize Entries.ofItems (settings themes (.color role)) = vs at values ⊢
    subst values
    rfl

theorem valuesOf_modalColors (themes : List (Theme × Text)) (modes : List Mode) (name : Text)
    (role : ColorRole) :
    valuesOf ((modalColors themes modes name).get? (colorName role)) =
      Entries.ofItems (settings themes (.color role)) := by
  rw [get?_modalColors]
  dsimp only
  split
  · next h => exact (List.isEmpty_iff.1 h).symm
  · rfl

/-! ## Text styles -/

theorem valuesOf_putTextValue (collection mode : Text) (vars : Entries ModalVariable)
    (token other : Text) (p : TextProperty) (value : TokenValue) :
    valuesOf ((putTextValue collection mode vars token p value).get? other) =
      if token = other then (valuesOf (vars.get? other)).set mode value
      else valuesOf (vars.get? other) := by
  unfold valuesOf putTextValue
  by_cases h : token = other
  · rw [if_pos h, h, Entries.get?_set_self]
    cases vars.get? other <;> rfl
  · rw [if_neg h, Entries.get?_set_of_ne vars (Ne.symm h)]

/-- A token has the values that are put under its name, in their order. -/
theorem valuesOf_foldl_putTextValue (collection token : Text)
    (items : List (Text × Text × TextProperty × TokenValue)) (vars : Entries ModalVariable) :
    valuesOf ((items.foldl
        (fun vs e => putTextValue collection e.1 vs e.2.1 e.2.2.1 e.2.2.2) vars).get? token) =
      ((items.filter (·.2.1 = token)).map fun e => (e.1, e.2.2.2)).foldl
        (fun vs e => vs.set e.1 e.2) (valuesOf (vars.get? token)) := by
  induction items generalizing vars with
  | nil => rfl
  | cons item rest ih =>
    rw [List.foldl_cons, ih, valuesOf_putTextValue]
    by_cases h : item.2.1 = token <;> simp [h]

/-- Of the values that a theme gives to text properties, a token has the one of its slot. -/
theorem filter_textItems (e : Theme × Text) (role : TextRole) (p : TextProperty) :
    (textItems e).filter (·.2.1 = textName role p) =
      ((e.1.value? (.text role p)).map fun value => (e.2, textName role p, p, value)).toList := by
  have style (s : TextStyle) :
      ((styleValues s).map fun v => (e.2, textName role v.1, v.1, v.2)).filter
          (·.2.1 = textName role p) =
        ((p.valueIn s).map fun value => (e.2, textName role p, p, value)).toList := by
    have others : ∀ v ∈ (styleMap s).entries, v.1 ≠ p →
        [(e.2, textName role v.1, v.1, v.2)].filter (·.2.1 = textName role p) = [] := by
      intro v _ hv
      exact List.filter_cons_of_neg (by simpa using fun h => hv (textName_inj h).2)
    have own := KeyMap.filter_flatMap others
    rw [get?_styleMap] at own
    rw [List.map_eq_flatMap]
    refine own.trans ?_
    cases p.valueIn s <;> simp
  have others : ∀ s ∈ e.1.textTheme.styles.entries, s.1 ≠ role →
      ((styleValues s.2).map fun v => (e.2, textName s.1 v.1, v.1, v.2)).filter
        (·.2.1 = textName role p) = [] := by
    intro s _ hs
    rw [List.filter_eq_nil_iff, List.forall_mem_map]
    exact fun v _ => by simpa using fun h => hs (textName_inj h).1
  rw [textItems, KeyMap.filter_flatMap others, Theme.value?]
  simp only [style]
  cases e.1.textTheme.styles.get? role <;> rfl

/-- Tokens that are collected under their names are found by them. -/
theorem Collected.find?_eq {collection : Text} {vars : Entries ModalVariable}
    (h : Collected collection vars) (token : Text) :
    (vars.map (·.2)).find? (·.name == token) = vars.get? token := by
  have names := h.2
  clear h
  induction vars with
  | nil => rfl
  | cons e rest ih =>
    rw [List.forall_mem_cons] at names
    rw [List.map_cons, List.find?_cons, Entries.get?, names.1.1, ih names.2]
    by_cases he : e.1 = token
    · simp [he]
    · rw [if_neg he, beq_eq_false_iff_ne.2 he]

/-- The token of a text style is found among those that are collected. -/
theorem get?_modalTypography (themes : List (Theme × Text)) (modes : List Mode)
    (name token : Text) :
    (modalTypography themes modes name).get? token =
      Entries.get? (collectTexts name (themes.flatMap textItems)) token :=
  (collected_collectTexts name _).find?_eq _

/-- The token of a text property has the values that the themes give. -/
theorem valuesOf_modalTypography (themes : List (Theme × Text)) (modes : List Mode) (name : Text)
    (role : TextRole) (p : TextProperty) :
    valuesOf ((modalTypography themes modes name).get? (textName role p)) =
      Entries.ofItems (settings themes (.text role p)) := by
  have items (e : Theme × Text) :
      ((textItems e).filter (·.2.1 = textName role p)).map (fun i => (i.1, i.2.2.2)) =
        ((e.1.value? (.text role p)).map (e.2, ·)).toList := by
    rw [filter_textItems e]
    cases e.1.value? (.text role p) <;> rfl
  rw [get?_modalTypography]
  refine (valuesOf_foldl_putTextValue name (textName role p) _ []).trans ?_
  rw [List.filter_flatMap, List.map_flatMap, List.flatMap_congr fun e _ => items e, settings,
    List.filterMap_eq_flatMap_toList]
  rfl

/-! ## Values in a table -/

/-- The value of a slot under a mode, where the collections of a name have one. -/
def modalValue? (t : TokenTable) (name : Text) (slot : Slot) (mode : Text) : Option TokenValue :=
  (t.getModal? (collectionName name slot.place) slot.token).bind (·.values.get? mode)

/-- The collections of a name have all values of a theme under a mode. -/
def Keeps (t : TokenTable) (name : Text) (theme : Theme) (mode : Text) : Prop :=
  ∀ slot value, theme.value? slot = some value → t.modalValue? name slot mode = some value

section Modal

variable {t : TokenTable} {themes : List (Theme × Text)} {name : Text}

theorem get?_modal (ht : t.modal = (modalCollections themes name).map fun c => (c.name, c))
    (s : Section) :
    t.modal.get? (collectionName name s) = some (modalCollection themes name s) := by
  refine get?_collectionName (f := modalCollection themes name) ?_ s
  rw [ht, modalCollections_eq, List.map_map]
  exact List.map_congr_left fun s _ =>
    congrArg (·, modalCollection themes name s) (name_modalCollection themes name s)

/-- The values of a slot are those that the themes give, one after the other. -/
theorem modalValue?_eq (ht : t.modal = (modalCollections themes name).map fun c => (c.name, c))
    (slot : Slot) (mode : Text) :
    t.modalValue? name slot mode = (Entries.ofItems (settings themes slot)).get? mode := by
  rw [modalValue?, ← get?_valuesOf, getModal?, get?_modal ht, Option.bind_some]
  cases slot with
  | color role => exact congrArg (Entries.get? · mode) (valuesOf_modalColors themes _ _ role)
  | text role p =>
    exact congrArg (Entries.get? · mode) (valuesOf_modalTypography themes _ _ role p)

/-- A value of a theme is there if no later theme of the same mode gives one to its slot. -/
theorem modalValue?_of_last (before : List (Theme × Text)) {after : List (Theme × Text)}
    {theme : Theme} {mode : Text}
    (ht : t.modal = (modalCollections (before ++ (theme, mode) :: after) name).map
      fun c => (c.name, c))
    {slot : Slot} {value : TokenValue} (hv : theme.value? slot = some value)
    (last : ∀ e ∈ after, e.2 = mode → e.1.value? slot = none) :
    t.modalValue? name slot mode = some value := by
  have later : mode ∉ (settings after slot).map (·.1) := by
    intro hm
    obtain ⟨other, v, hmem, hother⟩ := mem_modes_of_mem_settings hm
    rw [last _ hmem rfl] at hother
    cases hother
  have given : settings (before ++ (theme, mode) :: after) slot =
      settings before slot ++ (mode, value) :: settings after slot := by
    rw [settings, List.filterMap_append, List.filterMap_cons_some]
    · rfl
    · rw [hv]
      rfl
  rw [modalValue?_eq ht, given, Entries.get?_ofItems_of_last _ later]

end Modal

end TokenTable

end DesignTree
