import DesignTree.Proofs.Token.Modes

/-! # Tokens of a theme

A path to a text style of a theme and a property lead to the name of a token, and the theme names
its tokens of its own accord. The two meet: where a text style defines a property, the table of the
theme has a token with its value by that name (`exists_get?_text`). A path to a text style without a
property leads to a name that no colour has (`get?_colors_name`).
-/

namespace DesignTree

open Token

namespace Token

theorem mem_textRoles (role : TextRole) : role ∈ TextRole.all := by cases role <;> decide

/-- The path to a text style in a theme. -/
def textPath (role : TextRole) : Text := "textTheme." ++ role.key.camel

/-- A path to a text style and a property lead to the token of that property. -/
theorem typographyName_textPath (role : TextRole) {p : TextProperty} {property : Text}
    (h : kebab property = p.suffix) :
    typographyName (textPath role) property = textName role p := by
  have styles : ∀ role ∈ TextRole.all,
      styleAfterSection (parts (textPath role)) = some role.key.camel := by
    decide +kernel
  rw [typographyName, styles role (mem_textRoles role), textName, styleName, h]

theorem name_textPath (role : TextRole) : name (textPath role) = styleName role := by
  have styles : ∀ role ∈ TextRole.all,
      (parts (withoutSection (textPath role))).filter (!·.isEmpty) = [role.key.camel] := by
    decide +kernel
  have single : ∀ s t : Text, Text.intercalate s [t] = t := fun s t => by
    rw [Text.intercalate, List.map_singleton, List.intercalate_singleton]
  rw [name, styles role (mem_textRoles role), styleName, List.map_singleton, single]

/-- No colour goes by the name of a text style. -/
theorem colorName_ne_styleName (color : ColorRole) (role : TextRole) :
    colorName color ≠ styleName role := by
  have names : ∀ name ∈ ColorRole.all.map colorName, name ∉ TextRole.all.map styleName := by
    decide +kernel
  intro h
  refine names (colorName color) (List.mem_map_of_mem (TokenTable.mem_colorRoles color)) ?_
  rw [h]
  exact List.mem_map_of_mem (mem_textRoles role)

end Token

namespace TokenTable

/-- The table of a theme finds the tokens that the sections of the theme have. -/
theorem get?_ofTheme (theme : Theme) (name : Text) (s : Section) (token : Text) :
    (ofTheme theme name).get? (collectionName name s) token =
      (themeCollection theme name s).get? token := by
  have named (s : Section) : (themeCollection theme name s).name = collectionName name s := by
    cases s <;> rfl
  have single : (ofTheme theme name).single =
      Section.all.map fun s => (collectionName name s, themeCollection theme name s) := by
    rw [single_ofTheme, themeCollections_eq, List.map_map]
    exact List.map_congr_left fun s _ => congrArg (·, themeCollection theme name s) (named s)
  rw [get?, get?_collectionName single]
  rfl

/-- The table of a theme has no tokens of several modes. -/
theorem getModal?_ofTheme (theme : Theme) (name collection token : Text) :
    (ofTheme theme name).getModal? collection token = none := rfl

theorem get?_colors_name (theme : Theme) (name : Text) (role : TextRole) :
    (ofTheme theme name).get? (collectionName name .colors) (Token.name (textPath role)) =
      none := by
  rw [get?_ofTheme, name_textPath]
  refine List.find?_eq_none.2 fun v hv hn => ?_
  obtain ⟨color, -, hc⟩ := List.mem_filterMap.1 hv
  obtain ⟨c, -, rfl⟩ := Option.map_eq_some_iff.1 hc
  exact colorName_ne_styleName color role (beq_iff_eq.1 hn)

/-- The tokens of a text style. -/
def styleTokens (collection : Text) (e : TextRole × TextStyle) : List Variable :=
  (styleValues e.2).map fun v =>
    ⟨textName e.1 v.1, v.1.kind, [v.1.scope], v.2, title (styleName e.1) ++ " " ++ v.1.description,
      collection⟩

/-- Among the tokens of a text style a property has the one of its value. -/
theorem find?_styleTokens (collection : Text) (role : TextRole) {style : TextStyle}
    {p : TextProperty} {value : TokenValue} (h : p.valueIn style = some value) :
    ∃ v, (styleTokens collection (role, style)).find? (·.name == textName role p) = some v ∧
      v.value = value := by
  have same : (fun v : TextProperty × TokenValue => textName role v.1 == textName role p) =
      fun v => decide (v.1 = p) := by
    funext v
    rw [Bool.eq_iff_iff, beq_iff_eq, decide_eq_true_iff]
    exact ⟨fun he => (textName_inj he).2, fun he => by rw [he]⟩
  have found : (styleMap style).get? p = some value := by rw [get?_styleMap, h]
  obtain ⟨v, hv, rfl⟩ := Option.map_eq_some_iff.1 found
  have first := (congrArg (List.find? · (styleValues style)) same).trans hv
  rw [styleTokens, List.find?_map]
  exact ⟨_, congrArg (Option.map _) first, rfl⟩

theorem filter_styleTokens_of_ne {collection : Text} {e : TextRole × TextStyle} {role : TextRole}
    (h : e.1 ≠ role) (p : TextProperty) :
    (styleTokens collection e).filter (·.name == textName role p) = [] := by
  refine List.filter_eq_nil_iff.2 fun v hv hn => ?_
  obtain ⟨x, -, rfl⟩ := List.mem_map.1 hv
  exact h (textName_inj (beq_iff_eq.1 hn)).1

/-- Among the tokens of several text styles the style of a role has its own. -/
theorem find?_flatMap_styleTokens (collection : Text) {styles : KeyMap TextRole TextStyle}
    {role : TextRole} {style : TextStyle} (hs : styles.get? role = some style) {p : TextProperty}
    {value : TokenValue} (hv : p.valueIn style = some value) :
    ∃ v, (styles.entries.flatMap (styleTokens collection)).find? (·.name == textName role p) =
      some v ∧ v.value = value := by
  have own : (styles.entries.flatMap (styleTokens collection)).filter
      (·.name == textName role p) = ((styles.get? role).map fun s =>
        (styleTokens collection (role, s)).filter (·.name == textName role p)).getD [] :=
    KeyMap.filter_flatMap fun e _ he => filter_styleTokens_of_ne he p
  rw [hs, Option.map_some, Option.getD_some] at own
  rw [← List.head?_filter, own, List.head?_filter]
  exact find?_styleTokens collection role hv

/-- **What a text style defines has a token.** The table of a theme has a token with the value of
each property that a text style of the theme defines, by the name to which the path of the style and
the property lead. -/
theorem exists_get?_text {theme : Theme} {role : TextRole} {style : TextStyle} (name : Text)
    (hs : theme.textTheme.styles.get? role = some style) {p : TextProperty} {value : TokenValue}
    (hv : p.valueIn style = some value) :
    ∃ v, (ofTheme theme name).get? (collectionName name .typography) (textName role p) = some v ∧
      v.value = value ∧ v.id = slotId name .typography (textName role p) := by
  obtain ⟨v, found, value⟩ :=
    find?_flatMap_styleTokens (collectionName name .typography) hs hv
  have hf : (themeCollection theme name .typography).get? (textName role p) = some v := found
  have named : v.name = textName role p := beq_iff_eq.1 (List.find?_some hf :)
  refine ⟨v, (get?_ofTheme theme name .typography _).trans hf, value, ?_⟩
  rw [id_of_mem_themeCollection (List.mem_of_find?_eq_some hf), named]

end TokenTable

end DesignTree
