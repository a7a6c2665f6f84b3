import DesignTree.Proofs.Style.Color
import DesignTree.Proofs.Style.Shadow

/-! # What stylings come to

Each aspect of a styling has an account, and a styling that of its aspects one after the other
(`Resolver.stylingAccount`). So there is a closed form of what a styling makes of a node
(`outcome_eq`): the node without the paints that the styling replaces, and with one edit that hangs
on the kind of the node, and on whether it has a layout, but on nothing else of it.
-/

namespace DesignTree

namespace Resolver

/-! ## Typography -/

/-- What the literal value of a text property comes to. -/
def textLiteralAccount (v : TextValue) : Account :=
  match setText v {} with
  | .ok _ => .applied { texts := [v] } [v.property]
  | .error rejection => .ended {} rejection

/-- What a value of a text property comes to. -/
def textAccount (r : Resolver) (path : Option Text) (v : TextValue) : Account :=
  match path with
  | none => textLiteralAccount v
  | some path =>
    match r.typographyBinding? v.property path with
    | some b => .bound v.property b
    | none =>
      if r.config.fallbackToDirectValues then
        (textLiteralAccount v).andThen (.warning (missingWarning path))
      else .error (missingError path)

/-- What a typography comes to on a text. -/
def typographyAccount (r : Resolver) (t : Typography) : Account :=
  (Account.all ((textValues t).map (r.textAccount (r.activePath t.isThemeReference t.themePath)))
    ).andThen (r.colorsAccount (textColor t))

variable {t : Node.Traits}

theorem for_applyTextLiteral (v : TextValue) :
    (textLiteralAccount v).For (applyTextLiteral v) t := by
  intro n _
  have look : StateT.run (ExceptT.run (applyTextLiteral v)) n =
      StateT.run (ExceptT.run (match setText v n.properties with
        | .ok p => do
          modifyProperties fun _ => p
          return .ofApplied v.property
        | .error e => throw e : Change StyleResult)) n := rfl
  rw [look, TextValue.setText_eq, textLiteralAccount]
  cases setText v {} with
  | ok p =>
    simp only
    rw [Account.edit_applied, Edit.apply_of_unspaced rfl rfl]
    rfl
  | error rejection =>
    simp only
    rw [Account.edit_ended, Edit.apply_empty]
    rfl

theorem for_applyTextValue (r : Resolver) (path : Option Text) (v : TextValue) :
    (r.textAccount path v).For (r.applyTextValue path v) t := by
  unfold textAccount applyTextValue
  cases path with
  | none => exact for_applyTextLiteral v
  | some path =>
    cases hb : r.typographyBinding? v.property path with
    | some b =>
      simp only [hb]
      exact Account.for_pure rfl rfl
    | none =>
      simp only [hb]
      cases r.config.fallbackToDirectValues with
      | false => exact Account.for_pure rfl rfl
      | true => exact (for_applyTextLiteral v).both (fun _ _ _ _ => rfl) (Account.for_pure rfl rfl)

theorem for_applyTextValues (r : Resolver) (path : Option Text) (vs : List TextValue) :
    (Account.all (vs.map (r.textAccount path))).For (r.applyTextValues path vs) t := by
  induction vs with
  | nil => exact Account.for_pure rfl rfl
  | cons v rest ih => exact (r.for_applyTextValue path v).both (fun _ _ _ _ => rfl) ih

theorem for_applyTypography (r : Resolver) (ty : Typography) (h : t.kind = .text) :
    (r.typographyAccount ty).For (r.applyTypography ty) t := by
  intro n hn
  have kind : n.kind = .text := (congrArg Node.Traits.kind hn).trans h
  have look : StateT.run (ExceptT.run (r.applyTypography ty)) n =
      StateT.run (ExceptT.run (do
        let values ←
          r.applyTextValues (r.activePath ty.isThemeReference ty.themePath) (textValues ty)
        let color ← r.applyColors (textColor ty)
        return (values.merge color).settled : Change StyleResult)) n := by
    unfold applyTypography
    rw [ExceptT.run_bind, StateT.run_bind]
    change StateT.run (ExceptT.run (if n.kind ≠ .text then _ else _)) n = _
    rw [if_neg (not_not_intro kind)]
  rw [look]
  exact (r.for_applyTextValues _ _).both (fun _ _ hx hy => (hx.merge hy).settled_eq)
    (r.for_applyColors _ t) n hn

/-! ## Spacing, borders and shadows -/

/-- What spacing comes to. -/
def spacingAccount (laidOut : Bool) (s : Spacing) : Account :=
  let part (isSet : Bool) (name : Text) : List Text := if isSet then [name] else []
  if laidOut then
    .applied { padding := s.padding, margin := s.margin }
      (part s.padding.isSome "padding" ++ part s.margin.isSome "margin")
  else .nothing

/-- What the stroke of a border comes to. -/
def strokeAccount (b : Border) : Account :=
  match stroke? b with
  | none => .nothing
  | some (width, value) =>
    match Rgb.ofHex value with
    | .ok color => .applied { strokes := [.solid color], strokeWeight := some width } ["border"]
    | .error e => .error ("Failed to apply border styles: " ++ e.message)

/-- What the corners of a border come to. -/
def radiusAccount (b : Border) : Account :=
  match b.radius with
  | none => .nothing
  | some radius => .applied { radius := some radius } ["borderRadius"]

/-- What a border comes to. -/
def bordersAccount (b : Border) : Account := (strokeAccount b).andThen (radiusAccount b)

/-- What shadows come to. -/
def shadowsAccount (shadows : List Shadow) : Account :=
  match shadowEffects shadows with
  | .error rejection => .ended {} rejection
  | .ok (.error e) => .error ("Failed to apply shadow styles: " ++ e.message)
  | .ok (.ok effects) => .applied { effects } ["shadows"]

theorem for_applySpacing (s : Spacing) : (spacingAccount t.laidOut s).For (applySpacing s) t := by
  rintro ⟨id, kind, name, properties, _ | layout, bindings, children, widgetId⟩ rfl
  · rfl
  · obtain ⟨_ | padding, _ | margin⟩ := s <;> rfl

theorem for_applyStroke (b : Border) : (strokeAccount b).For (applyStroke b) t := by
  unfold strokeAccount applyStroke
  cases stroke? b with
  | none => exact Account.for_pure rfl rfl
  | some stroke =>
    obtain ⟨width, value⟩ := stroke
    simp only
    cases Rgb.ofHex value with
    | error e => exact Account.for_pure rfl rfl
    | ok color => exact Account.for_modifyProperties rfl rfl rfl fun p => rfl

theorem for_applyRadius (b : Border) : (radiusAccount b).For (applyRadius b) t := by
  unfold radiusAccount applyRadius
  cases b.radius with
  | none => exact Account.for_pure rfl rfl
  | some radius =>
    exact Account.for_modifyProperties rfl rfl rfl fun p => NodePaints.setRadius_eq radius p

theorem for_applyBorders (b : Border) : (bordersAccount b).For (applyBorders b) t :=
  (for_applyStroke b).both (fun _ _ hx hy => (hx.merge hy).settled_eq) (for_applyRadius b)

theorem for_applyShadows {shadows : List Shadow} (h : shadows ≠ []) :
    (shadowsAccount shadows).For (applyShadows shadows) t := by
  unfold shadowsAccount applyShadows
  rcases shadowEffects_cases shadows with ⟨rejection, hs⟩ | ⟨x, -, hs⟩ | ⟨effects, -, hs, casts⟩
  · rw [hs]
    exact Account.for_throw rejection
  · rw [hs]
    exact Account.for_pure rfl rfl
  · have drawn : effects.isEmpty = false := by
      rw [List.isEmpty_eq_false_iff, ← List.length_pos_iff, ← casts.length_eq, List.length_pos_iff]
      exact h
    rw [hs]
    refine Account.for_modifyProperties rfl rfl rfl fun p => ?_
    have added : extend p.effects effects = some (p.effects.getD [] ++ effects) := by
      rw [extend, drawn]
      rfl
    change _ = { p with effects := extend p.effects effects }
    rw [added]

end Resolver

/-! ## Aspects one after the other -/

theorem Resolver.applyAspects_append (cs ds : List (Resolver.Change StyleResult)) (n : Node)
    (total : StyleResult) :
    applyAspects n total (cs ++ ds) =
      match applyAspects n total cs with
      | (m, result, none) => applyAspects m result ds
      | ended => ended := by
  induction cs generalizing n total with
  | nil => rfl
  | cons c rest ih =>
    rw [List.cons_append, applyAspects, applyAspects]
    rcases StateT.run (ExceptT.run c) n with ⟨rejection | own, m⟩
    · rfl
    · exact ih m _

namespace Account

open Resolver (Change applyAspects)

/-- The account of an aspect of a styling, which reports nothing if a rejection ends it. -/
def whole (a : Account) : Account :=
  match a.rejection with
  | some rejection => .ended a.edit rejection
  | none => a

/-- An account that reports nothing if there is a rejection. -/
def IsWhole (a : Account) : Prop := a.rejection ≠ none → a.result = {}

section

variable {a b : Account} {t : Node.Traits}

theorem isWhole_of_complete (h : a.rejection = none) : a.IsWhole := fun hn => absurd h hn

theorem isWhole_whole (a : Account) : a.whole.IsWhole := by
  unfold whole
  split
  · exact fun _ => rfl
  · next h => exact isWhole_of_complete h

theorem edit_whole (a : Account) : a.whole.edit = a.edit := by
  unfold whole
  split <;> rfl

theorem rejection_whole (a : Account) : a.whole.rejection = a.rejection := by
  unfold whole
  split
  · next h => exact h.symm
  · rfl

theorem For.whole {c : Change StyleResult} (h : a.For c t) : a.whole.For c t := by
  intro n hn
  rw [h n hn, edit_whole]
  unfold Account.whole
  split
  · next hr => rw [outcome, hr]; rfl
  · rfl

/-- On all nodes with the traits `t` aspects one after the other come to what an account says. -/
def ForAll (a : Account) (cs : List (Change StyleResult)) (t : Node.Traits) : Prop :=
  ∀ (n : Node) (total : StyleResult), n.traits = t → total.Sound →
    applyAspects n total cs = (a.edit.apply n, total.merge a.result, a.rejection)

theorem forAll_nil : ForAll nothing [] t := by
  intro n total _ ht
  rw [edit_nothing, Edit.apply_empty]
  exact congrArg (fun result => (n, result, (none : Option Rejection))) ht.merge_empty.symm

theorem For.single {c : Change StyleResult} (h : a.For c t) (ha : a.IsWhole) :
    a.ForAll [c] t := by
  intro n total hn ht
  rw [applyAspects, h n hn, outcome]
  cases hr : a.rejection with
  | none => rfl
  | some rejection =>
    have nothing : a.result = {} := ha (by rw [hr]; exact Option.some_ne_none _)
    simp only [nothing, ht.merge_empty]

theorem ForAll.append {cs ds : List (Change StyleResult)} (ha : a.ForAll cs t)
    (hb : b.ForAll ds t) : (a.andThen b).ForAll (cs ++ ds) t := by
  intro n total hn ht
  rw [Resolver.applyAspects_append, ha n total hn ht]
  cases hr : a.rejection with
  | some rejection => rw [andThen_of_rejection hr, hr]
  | none =>
    have traits := (a.edit.traits_apply n).trans hn
    simp only
    rw [hb _ _ traits (ht.merge a.sound), edit_andThen hr, result_andThen hr, rejection_andThen hr,
      Edit.apply_append, StyleResult.merge_assoc]

end

end Account

/-! ## Whole stylings -/

namespace Resolver

variable (r : Resolver) (t : Node.Traits) (s : Styling)

/-- What the aspects of a styling come to. One that is not given comes to nothing. -/
def aspectAccounts : List Account := [
  r.colorsAccount s.colors,
  (textOnly t.kind s.typography).elim .nothing fun ty => (r.typographyAccount ty).whole,
  s.spacing.elim .nothing (spacingAccount t.laidOut),
  s.borders.elim .nothing bordersAccount,
  if s.shadows.isEmpty then .nothing else shadowsAccount s.shadows]

/-- What a styling comes to on the nodes with the traits `t`. -/
def stylingAccount : Account := .all (r.aspectAccounts t s)

theorem rejection_spacingAccount (laidOut : Bool) (s : Spacing) :
    (spacingAccount laidOut s).rejection = none := by
  unfold spacingAccount
  cases laidOut <;> rfl

theorem rejection_strokeAccount (b : Border) : (strokeAccount b).rejection = none := by
  unfold strokeAccount
  split
  · rfl
  · split <;> rfl

theorem rejection_radiusAccount (b : Border) : (radiusAccount b).rejection = none := by
  unfold radiusAccount
  split <;> rfl

theorem rejection_bordersAccount (b : Border) : (bordersAccount b).rejection = none :=
  (Account.rejection_andThen (rejection_strokeAccount b)).trans (rejection_radiusAccount b)

theorem isWhole_shadowsAccount (shadows : List Shadow) : (shadowsAccount shadows).IsWhole := by
  unfold shadowsAccount
  split
  · exact fun _ => rfl
  · exact Account.isWhole_of_complete rfl
  · exact Account.isWhole_of_complete rfl

theorem of_textOnly {kind : NodeKind} {o : Option Typography} {ty : Typography}
    (h : textOnly kind o = some ty) : kind = .text ∧ o = some ty := by
  unfold textOnly at h
  split at h
  · next hk => exact ⟨hk, h⟩
  · cases h

theorem forAll_given {γ : Type} {t : Node.Traits} (o : Option γ) {f : γ → Account}
    {g : γ → Change StyleResult} (h : ∀ x, o = some x → (f x).ForAll [g x] t) :
    (o.elim .nothing f).ForAll (o.map g).toList t := by
  cases o with
  | none => exact Account.forAll_nil
  | some x => exact h x rfl

theorem forAll_aspects : (r.stylingAccount t s).ForAll (r.aspects t.kind s) t := by
  have colors : (r.colorsAccount s.colors).ForAll
      (if s.colors.isEmpty then [] else [r.applyColors s.colors]) t := by
    cases s.colors with
    | nil => exact Account.forAll_nil
    | cons c rest =>
      exact (r.for_applyColors _ t).single
        (Account.isWhole_of_complete (r.rejection_colorsAccount _))
  have typography : ((textOnly t.kind s.typography).elim .nothing
      fun ty => (r.typographyAccount ty).whole).ForAll
        ((textOnly t.kind s.typography).map r.applyTypography).toList t := by
    refine forAll_given _ fun ty hty => ?_
    exact (r.for_applyTypography ty (of_textOnly hty).1).whole.single (Account.isWhole_whole _)
  have spacing : (s.spacing.elim .nothing (spacingAccount t.laidOut)).ForAll
      (s.spacing.map applySpacing).toList t :=
    forAll_given _ fun x _ => (for_applySpacing x).single
      (Account.isWhole_of_complete (rejection_spacingAccount _ x))
  have borders : (s.borders.elim .nothing bordersAccount).ForAll
      (s.borders.map applyBorders).toList t :=
    forAll_given _ fun b _ => (for_applyBorders b).single
      (Account.isWhole_of_complete (rejection_bordersAccount b))
  have shadows : (if s.shadows.isEmpty then .nothing else shadowsAccount s.shadows : Account).ForAll
      (if s.shadows.isEmpty then [] else [applyShadows s.shadows]) t := by
    cases hs : s.shadows with
    | nil => exact Account.forAll_nil
    | cons x rest =>
      exact (for_applyShadows (List.cons_ne_nil x rest)).single (isWhole_shadowsAccount _)
  rw [← Account.andThen_nothing (if s.shadows.isEmpty then .nothing else shadowsAccount s.shadows)]
    at shadows
  unfold aspects
  rw [List.append_assoc, List.append_assoc, List.append_assoc]
  exact colors.append (typography.append (spacing.append (borders.append shadows)))

/-- What a styling makes of a node, in closed form. -/
theorem outcome_eq (n : Node) :
    r.outcome n s =
      ((r.stylingAccount n.traits s).edit.apply (clearPaints s n),
        (r.stylingAccount n.traits s).result, (r.stylingAccount n.traits s).rejection) := by
  have sound : StyleResult.Sound {} := rfl
  rw [outcome]
  refine (r.forAll_aspects n.traits s (clearPaints s n) {} rfl sound).trans ?_
  rw [(r.stylingAccount n.traits s).sound.empty_merge]

/-- A node after a styling has what the account says, and more bindings. -/
theorem node_applyStyles (n : Node) :
    (r.applyStyles n s).1 =
      { (r.stylingAccount n.traits s).edit.apply (clearPaints s n) with
          bindings := (r.applyStyles n s).1.bindings } := by
  rw [applyStyles_eq, outcome_eq]
  cases (r.stylingAccount n.traits s).rejection <;> rfl

/-- A styling that no rejection ends. -/
theorem applyStyles_of_complete {r : Resolver} {s : Styling} {n : Node}
    (h : (r.stylingAccount n.traits s).rejection = none) :
    r.applyStyles n s =
      ({ (r.stylingAccount n.traits s).edit.apply (clearPaints s n) with
          bindings := n.bindings ++ (r.stylingAccount n.traits s).result.bindings },
        (r.stylingAccount n.traits s).result) := by
  rw [applyStyles_eq, outcome_eq, h]
  exact congrArg (Prod.mk _) (r.stylingAccount n.traits s).sound.settled_eq

/-- What a styling reports hangs on its account alone. -/
theorem result_applyStyles (n : Node) :
    (r.applyStyles n s).2 =
      match (r.stylingAccount n.traits s).rejection with
      | none => (r.stylingAccount n.traits s).result
      | some rejection => { (r.stylingAccount n.traits s).result with
          success := false
          errors := (r.stylingAccount n.traits s).result.errors ++
            ["Failed to apply styles: " ++ rejection.headline] } := by
  rw [applyStyles_eq, outcome_eq]
  cases (r.stylingAccount n.traits s).rejection with
  | none => exact (r.stylingAccount n.traits s).sound.settled_eq
  | some rejection => simp [StyleResult.settled]

end Resolver

end DesignTree
