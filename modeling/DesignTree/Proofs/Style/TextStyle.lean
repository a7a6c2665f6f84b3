import DesignTree.Proofs.Style.Ending
import DesignTree.Proofs.Token.Lookup

/-! # Texts in a style of the theme

A typography that refers to a text style of a theme is resolved by the tokens of that theme alone.
Every text property that it gives and the style defines is bound to the token of the style
(`applyStyles_textStyle`). The colour of a text is looked up by the same path among the colours of
the theme, none of which goes by the name of a text style, so that it is always missing.
-/

namespace DesignTree.Resolver

open Token

/-- The property of text styles that a value is for. -/
def TextValue.styleProperty : TextValue → TextProperty
  | .fontSize _ => .fontSize
  | .fontFamily _ => .fontFamily
  | .fontWeight _ => .fontWeight
  | .lineHeight _ => .lineHeight
  | .letterSpacing _ => .letterSpacing

/-- The words of a text property are those in the names of its tokens. -/
theorem TextValue.kebab_property (v : TextValue) : kebab v.property = v.styleProperty.suffix := by
  cases v <;> simp only [property, styleProperty, TextProperty.suffix] <;> decide +kernel

/-- The binding of a text property to its token in a text style of a theme. -/
def styleBinding (name : Text) (role : TextRole) (v : TextValue) : Binding where
  targetProperty := v.property
  variableId := slotId name .typography (textName role v.styleProperty)
  variableAlias := some ("\x7b" ++ collectionName name .typography ++ "." ++
    textName role v.styleProperty ++ "\x7d")

/-- A resolver by the tokens of a theme that takes no literal value for a missing one. -/
def strict (theme : Theme) (name : Text) (preferMultiMode : Bool) : Resolver where
  tokens := .ofTheme theme name
  config := { fallbackToDirectValues := false, collectionPrefix := name, preferMultiMode }

/-! ## Looking up by the path of a text style -/

section

variable {theme : Theme} {role : TextRole} {style : TextStyle} {name : Text}
  {preferMultiMode : Bool}

/-- A table without tokens of several modes is asked for those of one mode. -/
theorem binding?_strict (part : Section) (token target : Text) :
    (strict theme name preferMultiMode).binding? part token target =
      ((TokenTable.ofTheme theme name).get? (collectionName name part) token).map fun v => {
        targetProperty := target
        variableId := v.id
        variableAlias := some ("\x7b" ++ collectionName name part ++ "." ++ token ++ "\x7d") } := by
  unfold binding? strict
  simp only [TokenTable.getModal?_ofTheme, Option.map_none, ite_self]
  cases (TokenTable.ofTheme theme name).get? (collectionName name part) token <;> rfl

/-- A property that the text style defines is bound to its token. -/
theorem typographyBinding?_strict (hs : theme.textTheme.styles.get? role = some style)
    {v : TextValue} (hv : (v.styleProperty.valueIn style).isSome = true) :
    (strict theme name preferMultiMode).typographyBinding? v.property (textPath role) =
      some (styleBinding name role v) := by
  obtain ⟨value, hv⟩ := Option.isSome_iff_exists.1 hv
  obtain ⟨token, found, -, id⟩ := TokenTable.exists_get?_text name hs hv
  rw [typographyBinding?, typographyName_textPath role v.kebab_property, binding?_strict, found,
    Option.map_some, id]
  rfl

/-- No colour is bound by the path of a text style. -/
theorem colorBinding?_strict (property : Text) :
    (strict theme name preferMultiMode).colorBinding? property (textPath role) = none := by
  rw [colorBinding?, binding?_strict, TokenTable.get?_colors_name]
  rfl

theorem activePath_strict :
    (strict theme name preferMultiMode).activePath true (some (textPath role)) =
      some (textPath role) := by
  cases role <;> rfl

/-! ## What the typography comes to -/

variable {ty : Typography}

/-- The text properties of a typography come to their bindings, if the text style defines them. -/
theorem textAccount_strict (hs : theme.textTheme.styles.get? role = some style) {v : TextValue}
    (hv : (v.styleProperty.valueIn style).isSome = true) :
    (strict theme name preferMultiMode).textAccount (some (textPath role)) v =
      .bound v.property (styleBinding name role v) := by
  unfold textAccount
  simp only [typographyBinding?_strict hs hv]

/-- The colour of a text comes to an error. -/
theorem colorAccount_strict (ht : ty.isThemeReference = true)
    (hp : ty.themePath = some (textPath role)) {c : ColorEntry} (hc : c ∈ textColor ty) :
    (strict theme name preferMultiMode).colorAccount c = .error (missingError (textPath role)) := by
  have given : c.isThemeReference = true ∧ c.themePath = some (textPath role) := by
    unfold textColor at hc
    split at hc
    · split at hc
      · cases hc
      · rw [List.mem_singleton.1 hc]
        exact ⟨ht, hp⟩
    · cases hc
  unfold colorAccount
  rw [given.1, given.2, activePath_strict]
  simp only [colorBinding?_strict]
  rfl

/-- Bindings of text properties and then errors, one after the other. -/
def boundThenErrors (vs : List TextValue) (b : TextValue → Binding) (messages : List Text) :
    List Account :=
  (vs.map fun v => .bound v.property (b v)) ++ messages.map .error

theorem rejection_boundThenErrors (vs : List TextValue) (b : TextValue → Binding)
    (messages : List Text) : (Account.all (boundThenErrors vs b messages)).rejection = none := by
  refine Account.rejection_all_iff.2 fun a ha => ?_
  rcases List.mem_append.1 ha with ha | ha
  · obtain ⟨v, -, rfl⟩ := List.mem_map.1 ha
    rfl
  · obtain ⟨message, -, rfl⟩ := List.mem_map.1 ha
    rfl

theorem result_boundThenErrors (vs : List TextValue) (b : TextValue → Binding)
    (messages : List Text) :
    (Account.all (boundThenErrors vs b messages)).result =
      { success := messages.isEmpty, applied := vs.map (·.property), bindings := vs.map b,
        errors := messages } := by
  have read {β : Type} (f : Account → List β) :
      (boundThenErrors vs b messages).flatMap f =
        (vs.flatMap fun v => f (.bound v.property (b v))) ++
          messages.flatMap fun m => f (.error m) := by
    rw [boundThenErrors, List.flatMap_append, List.flatMap_map, List.flatMap_map]
  have errors : (boundThenErrors vs b messages).flatMap (·.result.errors) = messages := by
    rw [read]
    simp [Account.bound, Account.error, StyleResult.ofBinding, StyleResult.ofError]
  rw [Account.result_all (rejection_boundThenErrors vs b messages), errors, read, read, read]
  simp [Account.bound, Account.error, StyleResult.ofBinding, StyleResult.ofError,
    ← List.map_eq_flatMap]

theorem typographyAccount_strict (hs : theme.textTheme.styles.get? role = some style)
    (ht : ty.isThemeReference = true) (hp : ty.themePath = some (textPath role))
    (hd : ∀ v ∈ textValues ty, (v.styleProperty.valueIn style).isSome = true) :
    (strict theme name preferMultiMode).typographyAccount ty =
      .all (boundThenErrors (textValues ty) (styleBinding name role)
        ((textColor ty).map fun _ => missingError (textPath role))) := by
  have values : (textValues ty).map
        ((strict theme name preferMultiMode).textAccount (some (textPath role))) =
      (textValues ty).map fun v => .bound v.property (styleBinding name role v) :=
    List.map_congr_left fun v hv => textAccount_strict hs (hd v hv)
  have color : (textColor ty).map (strict theme name preferMultiMode).colorAccount =
      (textColor ty).map fun _ => .error (missingError (textPath role)) :=
    List.map_congr_left fun c hc => colorAccount_strict ht hp hc
  rw [typographyAccount, ht, hp, activePath_strict, colorsAccount, values, color,
    boundThenErrors, List.map_map, Account.all_append]
  rfl

/-- A styling that has nothing but a typography comes to what this comes to on a text. -/
theorem stylingAccount_typography {r : Resolver} {t : Node.Traits} (hk : t.kind = .text)
    (h : (r.typographyAccount ty).rejection = none) :
    r.stylingAccount t { givenTypography := some (some ty) } = r.typographyAccount ty := by
  have texts : r.textsAccount t { givenTypography := some (some ty) } = r.typographyAccount ty := by
    rw [textsAccount, textOnly, if_pos hk]
    exact Account.whole_of_complete h
  rw [stylingAccount_eq, texts]
  exact (Account.nothing_andThen _).trans (Account.andThen_nothing _)

/-- The properties that a typography gives something for, that of its colour at the end. -/
def attributes (ty : Typography) : List Text :=
  (textValues ty).map (·.property) ++ (textColor ty).map (·.property)

/-- **A text style binds all that it defines, but no colour.** A text with a typography that refers
to a text style of the theme, all of whose text properties the style defines, is resolved by the
table of the theme without any literal value. Its text properties are bound, in order, to the tokens
with the values of the style. A colour is an error. So the styling succeeds and all that is given is
applied exactly if no colour is given. -/
theorem applyStyles_textStyle {n : Node} (name : Text) (preferMultiMode : Bool)
    (hs : theme.textTheme.styles.get? role = some style) (hk : n.kind = .text)
    (ht : ty.isThemeReference = true) (hp : ty.themePath = some (textPath role))
    (hd : ∀ v ∈ textValues ty, (v.styleProperty.valueIn style).isSome = true) :
    let r := strict theme name preferMultiMode
    let styled := r.applyStyles n { givenTypography := some (some ty) }
    let bound := (textValues ty).map (styleBinding name role)
    styled.2 =
        { success := (textColor ty).isEmpty
          applied := (textValues ty).map (·.property)
          bindings := bound
          errors := (textColor ty).map fun _ => missingError (textPath role) } ∧
      styled.1.bindings = n.bindings ++ bound ∧
      (∀ v ∈ textValues ty, ∃ token,
        r.tokens.get? (collectionName name .typography) (textName role v.styleProperty) =
            some token ∧
          token.id = (styleBinding name role v).variableId ∧
          some token.value = v.styleProperty.valueIn style) ∧
      (styled.2.success = true ∧ styled.2.applied = attributes ty ↔ textColor ty = []) := by
  intro r styled bound
  let as := boundThenErrors (textValues ty) (styleBinding name role)
    ((textColor ty).map fun _ => missingError (textPath role))
  have typography : r.typographyAccount ty = .all as := typographyAccount_strict hs ht hp hd
  have complete : (Account.all as).rejection = none := rejection_boundThenErrors _ _ _
  have account : r.stylingAccount n.traits { givenTypography := some (some ty) } = .all as := by
    rw [← typography] at complete ⊢
    exact stylingAccount_typography hk complete
  rw [← account] at complete
  have outcome := applyStyles_of_complete complete
  rw [account, result_boundThenErrors, List.isEmpty_map] at outcome
  have reported : styled.2 = _ := congrArg Prod.snd outcome
  have added : styled.1.bindings = n.bindings ++ bound :=
    congrArg (fun x : Node × StyleResult => x.1.bindings) outcome
  refine ⟨reported, added, fun v hv => ?_, ?_⟩
  · obtain ⟨value, hv⟩ := Option.isSome_iff_exists.1 (hd v hv)
    obtain ⟨token, found, same, id⟩ := TokenTable.exists_get?_text name hs hv
    exact ⟨token, found, id, by rw [same, hv]⟩
  · rw [reported]
    constructor
    · exact fun h => List.isEmpty_iff.1 h.1
    · intro h
      rw [attributes, h]
      exact ⟨rfl, (List.append_nil _).symm⟩

theorem applyStyles_textStyle_title :
    let style : TextStyle := { fontSize := some 16, fontWeight := some "700" }
    let theme : Theme := { textTheme := { styles := .of [(.titleLarge, {}), (.bodyLarge, style)] } }
    let ty : Typography := { fontSize := some 14, fontWeight := some "bold",
                             isThemeReference := true, themePath := some "textTheme.bodyLarge" }
    let n : Node := { kind := .text, name := "title" }
    let s : Styling := { givenTypography := some (some ty) }
    let result := ((strict theme "Default" true).applyStyles n s).2
    result.success = true ∧ result.bindings.map (·.variableId) =
      ["Default Typography-body-large-font-size", "Default Typography-body-large-font-weight"] := by
  intro style theme ty n s result
  have given : theme.textTheme.styles.get? .bodyLarge = some style := by decide
  have defined : ∀ v ∈ textValues ty, (v.styleProperty.valueIn style).isSome = true := by decide
  have path : ty.themePath = some (textPath .bodyLarge) := by decide +kernel
  have reported : result = _ :=
    (applyStyles_textStyle (n := n) "Default" true given rfl rfl path defined).1
  rw [reported]
  decide +kernel

/-- A text of a style that defines its size and its colour: the size is bound, the colour is an
error. -/
theorem applyStyles_textStyle_with_color :
    let style : TextStyle := { fontSize := some 16, color := some "#000000" }
    let theme : Theme := { textTheme := { styles := .of [(.bodyLarge, style)] } }
    let ty : Typography := { fontSize := some 16, color := some "#000000",
                             isThemeReference := true, themePath := some "textTheme.bodyLarge" }
    let n : Node := { kind := .text, name := "title" }
    let s : Styling := { givenTypography := some (some ty) }
    ((strict theme "Default" false).applyStyles n s).2 =
      { success := false
        applied := ["fontSize"]
        bindings := [styleBinding "Default" .bodyLarge (.fontSize 16)]
        errors := ["Variable not found for theme path: textTheme.bodyLarge"] } := by
  decide +kernel

end

end DesignTree.Resolver
