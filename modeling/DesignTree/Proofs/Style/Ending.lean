import DesignTree.Proofs.Number.Basic
import DesignTree.Proofs.Run.Return
import DesignTree.Proofs.Style.Paints
import Mathlib.Algebra.Ring.Int.Defs

/-! # Stylings that end early

A length beyond the doubles ends a styling: that of a line height or a letter spacing whose literal
value is taken, or one of a shadow before the first one with a malformed colour. So the styling and
the tokens tell whether it ends early (`Resolver.endsEarly`), and what it has bound by then
(`Resolver.boundBy`). The result has these bindings at once, the node only at the end of the
styling. They agree on the stylings that come to their end, and on those that bind nothing before
they end early (`bindings_applyStyles_iff`).
-/

namespace DesignTree

namespace Account

/-- Changes that bind nothing bind nothing one after the other, even if a rejection ends them. -/
theorem bindings_all_eq_nil {as : List Account} (h : ∀ a ∈ as, a.result.bindings = []) :
    (all as).result.bindings = [] := by
  induction as with
  | nil => rfl
  | cons a as ih =>
    obtain ⟨ha, has⟩ := List.forall_mem_cons.1 h
    rw [all_cons]
    cases hr : a.rejection with
    | none =>
      rw [result_andThen hr]
      exact List.append_eq_nil_iff.2 ⟨ha, ih has⟩
    | some rejection =>
      rw [andThen_of_rejection hr]
      exact ha

/-- Changes that bind a property each or none bind these properties one after the other. -/
theorem bindings_all_map {α : Type} {f : α → Account} {bound : α → Option Binding}
    (hf : ∀ x, (f x).result.bindings = (bound x).toList) {xs : List α}
    (h : (all (xs.map f)).rejection = none) :
    (all (xs.map f)).result.bindings = xs.filterMap bound := by
  rw [result_all h, List.filterMap_eq_flatMap_toList]
  simp only [List.flatMap_map, hf]

theorem whole_of_complete {a : Account} (h : a.rejection = none) : a.whole = a := by
  unfold whole
  split
  · next hs => cases hs.symm.trans h
  · rfl

end Account

namespace Resolver

/-! ## Lengths of texts -/

/-- The length of a text that a value sets. -/
def TextValue.length? : TextValue → Option Number
  | .lineHeight n => some (n.times 100)
  | .letterSpacing n => some n
  | _ => none

/-- A value sets no length, or one with a double near it. -/
def TextValue.fits (v : TextValue) : Bool := v.length?.all Number.fitsDouble

/-- Whether the literal value of a text property is taken. -/
def takesText (r : Resolver) (path : Option Text) (v : TextValue) : Bool :=
  match path with
  | none => true
  | some path => (r.typographyBinding? v.property path).isNone && r.config.fallbackToDirectValues

/-- Whether a literal value ends a typography. -/
def typographyOverflows (r : Resolver) (ty : Typography) : Bool :=
  (textValues ty).any fun v =>
    r.takesText (r.activePath ty.isThemeReference ty.themePath) v && !v.fits

theorem isOk_setText (v : TextValue) (p : NodeProperties) : (setText v p).isOk = v.fits := by
  have length (model unit : Text) (n : Number) : (measure model unit n).isOk = n.fitsDouble := by
    unfold measure
    cases n.fitsDouble <;> rfl
  cases v with
  | fontSize n | fontFamily family | fontWeight weight => rfl
  | lineHeight n | letterSpacing n => exact (isOk_map _ _).trans (length _ _ _)

theorem rejection_textLiteralAccount_iff {v : TextValue} :
    (textLiteralAccount v).rejection = none ↔ (!v.fits) = false := by
  rw [textLiteralAccount, ← isOk_setText v {}]
  cases setText v {} with
  | ok p => exact iff_of_true rfl rfl
  | error rejection => exact iff_of_false (Option.some_ne_none rejection) (by simp)

theorem rejection_textAccount_iff {r : Resolver} {path : Option Text} {v : TextValue} :
    (r.textAccount path v).rejection = none ↔ (r.takesText path v && !v.fits) = false := by
  have literal := rejection_textLiteralAccount_iff (v := v)
  unfold textAccount takesText
  cases path with
  | none => exact literal
  | some path =>
    cases hb : r.typographyBinding? v.property path with
    | some b =>
      simp only [hb]
      exact iff_of_true rfl rfl
    | none =>
      simp only [hb]
      cases r.config.fallbackToDirectValues with
      | false => exact iff_of_true rfl rfl
      | true =>
        simp only [if_true, Option.isNone_none, Bool.and_true, Bool.true_and]
        rw [Account.rejection_andThen_eq_none_iff, literal]
        exact and_iff_left rfl

theorem rejection_typographyAccount_iff {r : Resolver} {ty : Typography} :
    (r.typographyAccount ty).rejection = none ↔ r.typographyOverflows ty = false := by
  rw [typographyAccount, Account.rejection_andThen_eq_none_iff, Account.rejection_all_iff,
    List.forall_mem_map, typographyOverflows, List.any_eq_false]
  simp only [rejection_textAccount_iff, Bool.not_eq_true]
  exact and_iff_left (r.rejection_colorsAccount _)

/-! ## Lengths of shadows -/

/-- The lengths of a shadow; one without a spread has none of it. -/
def shadowLengths (x : Shadow) : List Number :=
  [x.offset.x, x.offset.y, x.blur, x.spread.getD 0]

/-- Whether a length ends the shadows, which are drawn up to the first malformed colour. -/
def shadowsOverflow (shadows : List Shadow) : Bool :=
  (shadows.takeWhile fun x => (Rgb.ofHex? x.color).isSome).any fun x =>
    !(shadowLengths x).all Number.fitsDouble

theorem fitsDouble_spread (spread : Option Number) :
    ((spread.filter (!·.isZero)).getD 0).fitsDouble = (spread.getD 0).fitsDouble := by
  cases spread with
  | none => rfl
  | some n =>
    rw [Option.filter_some]
    cases hz : n.isZero with
    | false => rfl
    | true => exact (Number.fitsDouble_of_isZero hz).symm

/-- A shadow is drawn or has a malformed colour, unless one of its lengths is refused. -/
theorem isOk_shadowEffect (x : Shadow) :
    (shadowEffect x).isOk =
      ((Rgb.ofHex? x.color).isNone || (shadowLengths x).all Number.fitsDouble) := by
  have lengths : (shadowLengths x).all Number.fitsDouble =
      (x.offset.x.fitsDouble && (x.offset.y.fitsDouble && (x.blur.fitsDouble &&
        ((x.spread.filter (!·.isZero)).getD 0).fitsDouble))) := by
    rw [fitsDouble_spread]
    simp [shadowLengths]
  unfold shadowEffect Rgb.ofHex
  rw [lengths]
  cases Rgb.ofHex? x.color with
  | none => rfl
  | some color =>
    simp only
    cases x.offset.x.fitsDouble <;> cases x.offset.y.fitsDouble <;> cases x.blur.fitsDouble <;>
      cases ((x.spread.filter (!·.isZero)).getD 0).fitsDouble <;> rfl

/-- Shadows are drawn up to the first malformed colour, unless a length ends them before. -/
theorem isOk_shadowEffects (shadows : List Shadow) :
    (shadowEffects shadows).isOk = !shadowsOverflow shadows := by
  induction shadows with
  | nil => rfl
  | cons x rest ih =>
    have first := isOk_shadowEffect x
    rw [shadowEffects, shadowsOverflow, List.takeWhile_cons]
    rcases shadowEffect_cases x with ⟨rejection, hx⟩ | ⟨hx, hc⟩ | ⟨effect, hx, color, hc, -⟩
    · rw [hx, isOk_error] at first
      obtain ⟨colored, overflows⟩ := Bool.or_eq_false_iff.1 first.symm
      have colored : (Rgb.ofHex? x.color).isSome = true := by simpa using colored
      rw [hx, colored, if_pos rfl, List.any_cons, overflows]
      rfl
    · rw [hx, hc]
      rfl
    · have fits : (shadowLengths x).all Number.fitsDouble = true := by
        simpa [hx, hc] using first
      have later : (shadowEffects (x :: rest)).isOk = (shadowEffects rest).isOk := by
        rw [shadowEffects, hx]
        rcases shadowEffects rest with _ | _ | _ <;> rfl
      rw [hc, Option.isSome_some, if_pos rfl, List.any_cons, fits, Bool.not_true, Bool.false_or,
        ← shadowsOverflow, ← ih, ← later, shadowEffects]

theorem rejection_shadowsAccount_iff {shadows : List Shadow} :
    (shadowsAccount shadows).rejection = none ↔ shadowsOverflow shadows = false := by
  rw [← Bool.not_eq_true', ← isOk_shadowEffects, shadowsAccount]
  rcases shadowEffects shadows with rejection | e | effects
  · exact iff_of_false (Option.some_ne_none rejection) nofun
  · exact iff_of_true rfl rfl
  · exact iff_of_true rfl rfl

/-! ## Whole stylings -/

/-- Whether the typography of a styling ends it on a kind of node. -/
def textOverflows (r : Resolver) (kind : NodeKind) (s : Styling) : Bool :=
  (textOnly kind s.typography).any r.typographyOverflows

/-- Whether a length ends a styling on a kind of node before it is all applied. -/
def endsEarly (r : Resolver) (kind : NodeKind) (s : Styling) : Bool :=
  r.textOverflows kind s || shadowsOverflow s.shadows

section

variable (r : Resolver) (t : Node.Traits) (s : Styling)

/-- What the typography of a styling comes to. -/
def textsAccount : Account :=
  (textOnly t.kind s.typography).elim .nothing fun ty => (r.typographyAccount ty).whole

theorem textsAccount_eq_nothing (h : textOnly t.kind s.typography = none) :
    r.textsAccount t s = .nothing := by
  rw [textsAccount, h]
  rfl

theorem isWhole_textsAccount : (r.textsAccount t s).IsWhole := by
  unfold textsAccount
  cases textOnly t.kind s.typography with
  | none => exact fun _ => rfl
  | some ty => exact Account.isWhole_whole _

/-- What the aspects of a styling after its typography come to. -/
def boxAccounts : List Account := [
  s.spacing.elim .nothing (spacingAccount t.laidOut),
  s.borders.elim .nothing bordersAccount,
  if s.shadows.isEmpty then .nothing else shadowsAccount s.shadows]

/-- A styling comes to its colours, its typography, and then all else. -/
theorem stylingAccount_eq :
    r.stylingAccount t s =
      (r.colorsAccount s.colors).andThen ((r.textsAccount t s).andThen (.all (boxAccounts t s))) :=
  rfl

variable {r t s}

theorem rejection_textsAccount_iff :
    (r.textsAccount t s).rejection = none ↔ r.textOverflows t.kind s = false := by
  unfold textsAccount textOverflows
  cases textOnly t.kind s.typography with
  | none => exact iff_of_true rfl rfl
  | some ty =>
    rw [Option.elim_some, Account.rejection_whole, rejection_typographyAccount_iff]
    rfl

theorem exists_rejection_textsAccount (h : r.textOverflows t.kind s = true) :
    ∃ rejection, (r.textsAccount t s).rejection = some rejection := by
  refine Option.ne_none_iff_exists'.1 fun hn => ?_
  rw [rejection_textsAccount_iff, h] at hn
  cases hn

/-- No rejection ends an aspect that is given or not, if none ends it where it is given. -/
theorem rejection_given {γ : Type} {f : γ → Account} (h : ∀ x, (f x).rejection = none)
    (o : Option γ) : (o.elim .nothing f).rejection = none := by
  cases o with
  | none => rfl
  | some x => exact h x

theorem rejection_boxAccounts_iff :
    (Account.all (boxAccounts t s)).rejection = none ↔ shadowsOverflow s.shadows = false := by
  have spacing := rejection_given (rejection_spacingAccount t.laidOut) s.spacing
  have borders := rejection_given rejection_bordersAccount s.borders
  have shadows : (if s.shadows.isEmpty then .nothing else shadowsAccount s.shadows :
      Account).rejection = none ↔ shadowsOverflow s.shadows = false := by
    cases s.shadows with
    | nil => exact iff_of_true rfl rfl
    | cons x rest => exact rejection_shadowsAccount_iff
  rw [Account.rejection_all_iff, boxAccounts, List.forall_mem_cons, List.forall_mem_cons,
    List.forall_mem_singleton, shadows]
  exact ⟨fun h => h.2.2, fun h => ⟨spacing, borders, h⟩⟩

/-- What a styling writes on a node that is no text. -/
theorem edit_stylingAccount (ht : t.kind ≠ .text) :
    (r.stylingAccount t s).edit = (r.colorsAccount s.colors).edit ++
      ((s.spacing.elim .nothing (spacingAccount t.laidOut) : Account).edit ++
        ((s.borders.elim .nothing bordersAccount : Account).edit ++
          (if s.shadows.isEmpty then .nothing else shadowsAccount s.shadows : Account).edit)) := by
  have spacing := rejection_given (rejection_spacingAccount t.laidOut) s.spacing
  have borders := rejection_given rejection_bordersAccount s.borders
  rw [stylingAccount_eq, r.textsAccount_eq_nothing t s (if_neg ht), Account.nothing_andThen,
    Account.edit_andThen (r.rejection_colorsAccount _), boxAccounts, Account.all_cons,
    Account.edit_andThen spacing, Account.all_cons, Account.edit_andThen borders, Account.all_cons]
  exact congrArg (fun a : Account => _ ++ (_ ++ (_ ++ a.edit))) (Account.andThen_nothing _)

/-- A rejection ends a styling exactly if a length ends it early. -/
theorem rejection_stylingAccount_iff :
    (r.stylingAccount t s).rejection = none ↔ r.endsEarly t.kind s = false := by
  rw [stylingAccount_eq, Account.rejection_andThen_eq_none_iff,
    Account.rejection_andThen_eq_none_iff, rejection_textsAccount_iff, rejection_boxAccounts_iff,
    endsEarly, Bool.or_eq_false_iff]
  exact and_iff_right (r.rejection_colorsAccount _)

end

/-! ## What is bound -/

/-- The binding of a colour entry, if its token is there. -/
def entryBinding? (r : Resolver) (c : ColorEntry) : Option Binding :=
  (r.activePath c.isThemeReference c.themePath).bind (r.colorBinding? c.property)

/-- The bindings of a typography: of its text properties, and then of its colour. -/
def typographyBindings (r : Resolver) (ty : Typography) : List Binding :=
  let path := r.activePath ty.isThemeReference ty.themePath
  (textValues ty).filterMap (fun v => path.bind (r.typographyBinding? v.property)) ++
    (textColor ty).filterMap r.entryBinding?

/-- What a styling binds before it ends, early or not: colours come first, and a typography that
ends it binds nothing. -/
def boundBy (r : Resolver) (kind : NodeKind) (s : Styling) : List Binding :=
  s.colors.filterMap r.entryBinding? ++
    if r.textOverflows kind s then []
    else (textOnly kind s.typography).elim [] r.typographyBindings

theorem bindings_literalAccount (c : ColorEntry) : (literalAccount c).result.bindings = [] := by
  unfold literalAccount
  split <;> rfl

theorem bindings_colorAccount (r : Resolver) (c : ColorEntry) :
    (r.colorAccount c).result.bindings = (r.entryBinding? c).toList := by
  have literal := bindings_literalAccount c
  unfold colorAccount entryBinding?
  cases r.activePath c.isThemeReference c.themePath with
  | none => exact literal
  | some path =>
    rw [Option.bind_some]
    cases hb : r.colorBinding? c.property path with
    | some b =>
      simp only [hb]
      rfl
    | none =>
      simp only [hb]
      split
      · split
        · exact literal
        · rw [Account.result_andThen (rejection_literalAccount c)]
          exact List.append_eq_nil_iff.2 ⟨literal, rfl⟩
      · rfl

theorem bindings_colorsAccount (r : Resolver) (cs : List ColorEntry) :
    (r.colorsAccount cs).result.bindings = cs.filterMap r.entryBinding? :=
  Account.bindings_all_map r.bindings_colorAccount (r.rejection_colorsAccount cs)

theorem bindings_textAccount (r : Resolver) (path : Option Text) (v : TextValue) :
    (r.textAccount path v).result.bindings =
      (path.bind (r.typographyBinding? v.property)).toList := by
  have literal : (textLiteralAccount v).result.bindings = [] := by
    unfold textLiteralAccount
    split <;> rfl
  unfold textAccount
  cases path with
  | none => exact literal
  | some path =>
    rw [Option.bind_some]
    cases hb : r.typographyBinding? v.property path with
    | some b =>
      simp only [hb]
      rfl
    | none =>
      simp only [hb]
      split
      · cases hr : (textLiteralAccount v).rejection with
        | none =>
          rw [Account.result_andThen hr]
          exact List.append_eq_nil_iff.2 ⟨literal, rfl⟩
        | some rejection =>
          rw [Account.andThen_of_rejection hr]
          exact literal
      · rfl

theorem bindings_typographyAccount {r : Resolver} {ty : Typography}
    (h : (r.typographyAccount ty).rejection = none) :
    (r.typographyAccount ty).result.bindings = r.typographyBindings ty := by
  let path := r.activePath ty.isThemeReference ty.themePath
  have values : (Account.all ((textValues ty).map (r.textAccount path))).rejection = none :=
    (Account.rejection_andThen_eq_none_iff.1 h).1
  rw [typographyAccount, Account.result_andThen values, StyleResult.merge, bindings_colorsAccount,
    Account.bindings_all_map (r.bindings_textAccount path) values]
  rfl

theorem bindings_boxAccounts (t : Node.Traits) (s : Styling) :
    (Account.all (boxAccounts t s)).result.bindings = [] := by
  refine Account.bindings_all_eq_nil ?_
  rw [boxAccounts, List.forall_mem_cons, List.forall_mem_cons, List.forall_mem_singleton]
  refine ⟨?_, ?_, ?_⟩
  · cases s.spacing with
    | none => rfl
    | some x => cases hl : t.laidOut <;> rfl
  · cases s.borders with
    | none => rfl
    | some b =>
      rw [Option.elim_some, bordersAccount, Account.result_andThen (rejection_strokeAccount b)]
      refine List.append_eq_nil_iff.2 ⟨?_, ?_⟩
      · unfold strokeAccount
        split
        · rfl
        · split <;> rfl
      · unfold radiusAccount
        split <;> rfl
  · split
    · rfl
    · unfold shadowsAccount
      split <;> rfl

/-- What a styling binds, even if a rejection ends it. -/
theorem bindings_stylingAccount (r : Resolver) (t : Node.Traits) (s : Styling) :
    (r.stylingAccount t s).result.bindings = r.boundBy t.kind s := by
  rw [stylingAccount_eq, Account.result_andThen (r.rejection_colorsAccount _), StyleResult.merge,
    bindings_colorsAccount, boundBy]
  refine congrArg (s.colors.filterMap r.entryBinding? ++ ·) ?_
  cases ho : r.textOverflows t.kind s with
  | true =>
    obtain ⟨rejection, hr⟩ := exists_rejection_textsAccount ho
    have ended : (r.textsAccount t s).rejection ≠ none := by
      rw [hr]
      exact Option.some_ne_none rejection
    rw [Account.andThen_of_rejection hr, r.isWhole_textsAccount t s ended]
    rfl
  | false =>
    have complete := rejection_textsAccount_iff.2 ho
    rw [Account.result_andThen complete, StyleResult.merge, bindings_boxAccounts, List.append_nil]
    unfold textsAccount at complete ⊢
    cases hty : textOnly t.kind s.typography with
    | none => rfl
    | some ty =>
      rw [hty, Option.elim_some, Account.rejection_whole] at complete
      rw [Option.elim_some, Account.whole_of_complete complete]
      exact bindings_typographyAccount complete

/-- **The node gets what the styling has bound, or nothing.** The result lists all that was bound
before the styling ended. The node has these bindings after its own if the styling came to its end,
and none of them if a length ended it early. So node and result agree unless a styling that ends
early has bound something before. -/
theorem bindings_applyStyles_iff (r : Resolver) (n : Node) (s : Styling) :
    let styled := r.applyStyles n s
    let bound := r.boundBy n.kind s
    styled.2.bindings = bound ∧
      styled.1.bindings = n.bindings ++ (if r.endsEarly n.kind s then [] else bound) ∧
      (styled.1.bindings = n.bindings ++ styled.2.bindings ↔
        r.endsEarly n.kind s = false ∨ bound = []) := by
  intro styled bound
  let a := r.stylingAccount n.traits s
  have bindings : a.result.bindings = bound := r.bindings_stylingAccount n.traits s
  have ends : a.rejection = none ↔ r.endsEarly n.kind s = false := rejection_stylingAccount_iff
  have result : styled.2.bindings = bound := by
    have reported : styled.2 = _ := result_applyStyles r s n
    rw [reported, ← bindings]
    cases a.rejection <;> rfl
  have node : styled.1.bindings =
      n.bindings ++ (if r.endsEarly n.kind s then [] else bound) := by
    have added : styled.1.bindings = _ := r.bindings_applyStyles n s
    rw [added, outcome_eq, ← bindings]
    refine congrArg (n.bindings ++ ·) ?_
    cases hr : a.rejection with
    | none => rw [ends.1 hr]; rfl
    | some rejection =>
      have early : r.endsEarly n.kind s = true := by
        rw [← Bool.not_eq_false, ← ends, hr]
        exact Option.some_ne_none rejection
      rw [early]
      rfl
  refine ⟨result, node, ?_⟩
  rw [result, node, List.append_right_inj]
  cases r.endsEarly n.kind s with
  | false => exact iff_of_true rfl (.inl rfl)
  | true => exact ⟨fun h => .inr h.symm, fun h => (h.resolve_left nofun).symm⟩

/-- A shadow with a blur beyond the doubles ends a styling whose fill is bound by then: the result
has the binding, and lists the fill as applied, but the node does not have it. -/
theorem bindings_of_shadow_beyond_doubles :
    let light : Theme := { colorScheme := { colors := .of [(.primary, "#6750A4")] } }
    let r : Resolver := ⟨.ofTheme light, {}⟩
    let n : Node := { kind := .frame, name := "card" }
    let fill : ColorEntry := { property := "backgroundColor", value := "#000000",
                               isThemeReference := true, themePath := some "colorScheme.primary" }
    let s : Styling := { givenColors := some [fill],
                         givenShadows := some [{ color := "#000000", blur := .int (10 ^ 309) }] }
    let styled := r.applyStyles n s
    styled.2.bindings.map (·.variableId) = ["Default Colors-primary"] ∧
      styled.2.applied = ["backgroundColor"] ∧ styled.1.bindings = [] ∧
      styled.1.bindings ≠ n.bindings ++ styled.2.bindings := by
  decide +kernel

end Resolver

end DesignTree
