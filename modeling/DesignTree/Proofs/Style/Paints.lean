import DesignTree.Proofs.Style.Aspect

/-! # Paints after styling

A styling takes the place of a list of paints exactly if it has something that could go there, and
what goes there is what its literal values come to, in order (`paints_applyStyles`). The two sides
are told apart in the code: the lists are emptied first, by a look at the styling alone, and filled
later, aspect by aspect. They meet in `Edit.KeepsTo`.
-/

namespace DesignTree

open Resolver

/-! ## What the aspects write -/

namespace Resolver

/-- The colour of a text by its typography, as a list of entries. -/
def textColors (kind : NodeKind) (s : Styling) : List ColorEntry :=
  (textOnly kind s.typography).elim [] textColor

/-- The paint of a border's stroke, if its colour is one. -/
def borderPaints (b : Border) : List Paint :=
  ((stroke? b).bind fun stroke => paint? stroke.2).toList

/-- The effects of shadows: none of them, if one has a malformed colour. -/
def castEffects (shadows : List Shadow) : List Effect :=
  match shadowEffects shadows with
  | .ok (.ok effects) => effects
  | _ => []

theorem paintsFor_eq_nil {properties : List Text} (r : Resolver) {cs : List ColorEntry}
    (h : ∀ c ∈ cs, c.property ∉ properties) : r.paintsFor properties cs = [] := by
  unfold paintsFor
  have none : (cs.filter fun c => properties.contains c.property && r.takesLiteral c) = [] := by
    refine List.filter_eq_nil_iff.2 fun c hc ht => h c hc ?_
    rw [Bool.and_eq_true] at ht
    exact List.contains_iff_mem.1 ht.1
  rw [none]
  rfl

theorem property_of_mem_textColor {ty : Typography} {c : ColorEntry} (h : c ∈ textColor ty) :
    c.property = "color" := by
  unfold textColor at h
  split at h
  · split at h
    · cases h
    · rw [List.mem_singleton.1 h]
  · cases h

theorem edit_textAccount (r : Resolver) (path : Option Text) (v : TextValue) :
    ∃ vs ⊆ [v], (r.textAccount path v).edit = { texts := vs } := by
  have literal : ∃ vs ⊆ [v], (textLiteralAccount v).edit = { texts := vs } := by
    unfold textLiteralAccount
    split
    · exact ⟨[v], List.Subset.refl _, rfl⟩
    · exact ⟨[], List.nil_subset _, rfl⟩
  unfold textAccount
  split
  · exact literal
  · split
    · exact ⟨[], List.nil_subset _, rfl⟩
    · split
      · cases hr : (textLiteralAccount v).rejection with
        | none =>
          rw [Account.edit_andThen hr, Account.edit_warning, Edit.append_empty]
          exact literal
        | some rejection =>
          rw [Account.andThen_of_rejection hr]
          exact literal
      · exact ⟨[], List.nil_subset _, rfl⟩

theorem edit_textAccounts (r : Resolver) (path : Option Text) (vs : List TextValue) :
    ∃ us ⊆ vs, (Account.all (vs.map (r.textAccount path))).edit = { texts := us } := by
  refine Account.edit_all (p := fun e => ∃ us ⊆ vs, e = { texts := us })
    ⟨[], List.nil_subset _, rfl⟩ ?_ fun a ha => ?_
  · rintro _ _ ⟨us, hu, rfl⟩ ⟨ws, hw, rfl⟩
    exact ⟨us ++ ws, List.append_subset.2 ⟨hu, hw⟩, rfl⟩
  · obtain ⟨v, hv, rfl⟩ := List.mem_map.1 ha
    obtain ⟨us, hu, h⟩ := r.edit_textAccount path v
    exact ⟨us, List.Subset.trans hu (List.cons_subset.2 ⟨hv, List.nil_subset _⟩), h⟩

/-- A typography sets text properties, and the colour of the text if no rejection ends it. -/
theorem edit_typographyAccount (r : Resolver) (ty : Typography) :
    let color := r.paintsFor Widget.fillProperties (textColor ty)
    ∃ texts ⊆ textValues ty, ∃ fills ⊆ color, (r.typographyAccount ty).edit = { texts, fills } ∧
      ((r.typographyAccount ty).rejection = none → fills = color) := by
  intro color
  let path := r.activePath ty.isThemeReference ty.themePath
  obtain ⟨texts, given, values⟩ := r.edit_textAccounts path (textValues ty)
  have strokes : r.paintsFor Widget.strokeProperties (textColor ty) = [] :=
    r.paintsFor_eq_nil fun c hc => by
      rw [property_of_mem_textColor hc]
      decide
  unfold typographyAccount
  cases hr : (Account.all ((textValues ty).map (r.textAccount path))).rejection with
  | none =>
    refine ⟨texts, given, color, List.Subset.refl _, ?_, fun _ => rfl⟩
    rw [Account.edit_andThen hr, values, edit_colorsAccount, strokes]
    exact congrArg (fun texts : List TextValue => ({ texts, fills := color } : Edit))
      texts.append_nil
  | some rejection =>
    rw [Account.andThen_of_rejection hr, hr]
    exact ⟨texts, given, [], List.nil_subset _, values, nofun⟩

theorem edit_spacingAccount (laidOut : Bool) (s : Spacing) :
    ∃ padding margin, (spacingAccount laidOut s).edit = { padding, margin } := by
  cases laidOut with
  | false => exact ⟨none, none, rfl⟩
  | true => exact ⟨s.padding, s.margin, rfl⟩

theorem edit_bordersAccount (b : Border) :
    ∃ strokeWeight radius,
      (bordersAccount b).edit = { strokes := borderPaints b, strokeWeight, radius } := by
  have radius : ∃ radius, (radiusAccount b).edit = { radius } := by
    unfold radiusAccount
    split
    · exact ⟨none, rfl⟩
    · next radius _ => exact ⟨some radius, rfl⟩
  have stroke : ∃ strokeWeight,
      (strokeAccount b).edit = { strokes := borderPaints b, strokeWeight } := by
    unfold strokeAccount borderPaints paint? Rgb.ofHex
    cases stroke? b with
    | none => exact ⟨none, rfl⟩
    | some stroke =>
      obtain ⟨width, value⟩ := stroke
      simp only [Option.bind_some]
      cases Rgb.ofHex? value with
      | none => exact ⟨none, rfl⟩
      | some color => exact ⟨some width, rfl⟩
  obtain ⟨radius, hr⟩ := radius
  obtain ⟨strokeWeight, hs⟩ := stroke
  refine ⟨strokeWeight, radius.or none, ?_⟩
  rw [bordersAccount, Account.edit_andThen (rejection_strokeAccount b), hs, hr]
  exact congrArg (fun strokes : List Paint => ({ strokes, strokeWeight, radius := _ } : Edit))
    (borderPaints b).append_nil

theorem edit_shadowsAccount (shadows : List Shadow) :
    (shadowsAccount shadows).edit = { effects := castEffects shadows } := by
  unfold shadowsAccount castEffects
  rcases shadowEffects shadows with rejection | e | effects <;> rfl

/-- Where no rejection ends the shadows, each casts its effect if the colours of all are good. -/
theorem forall₂_castEffects {shadows : List Shadow} (h : (shadowsAccount shadows).rejection = none)
    (good : ∀ x ∈ shadows, Rgb.ofHex? x.color ≠ none) :
    List.Forall₂ Casts shadows (castEffects shadows) := by
  unfold shadowsAccount at h
  unfold castEffects
  rcases shadowEffects_cases shadows with ⟨_, hs⟩ | ⟨x, hx, -⟩ | ⟨effects, -, hs, casts⟩
  · rw [hs] at h
    cases h
  · cases (malformedShadow?_eq_none_iff.2 good).symm.trans hx
  · rw [hs]
    exact casts

theorem castEffects_of_malformed {shadows : List Shadow}
    (h : ∃ x ∈ shadows, Rgb.ofHex? x.color = none) : castEffects shadows = [] := by
  unfold castEffects
  rcases shadowEffects_cases shadows with ⟨_, hs⟩ | ⟨_, -, hs⟩ | ⟨_, good, -⟩
  · rw [hs]
  · rw [hs]
  · obtain ⟨x, hx, malformed⟩ := h
    exact absurd malformed (malformedShadow?_eq_none_iff.1 good x hx)

/-! ## What a styling takes the place of -/

/-- A styling has a fill of its own: an entry for one, or the colour of a text. -/
def GivesFills (kind : NodeKind) (s : Styling) : Prop :=
  (∃ c ∈ s.colors, c.property ∈ Widget.fillProperties) ∨
    kind = .text ∧ ∃ ty value, s.typography = some ty ∧ ty.color = some value ∧
      value.isEmpty = false

/-- A styling has a stroke of its own: an entry for one, or a border with a width and a colour. -/
def GivesStrokes (s : Styling) : Prop :=
  (∃ c ∈ s.colors, c.property ∈ Widget.strokeProperties) ∨
    ∃ b width color, s.borders = some b ∧ b.width = some width ∧ b.color = some color ∧
      width.isZero = false ∧ color.isEmpty = false

theorem colorsText_iff {kind : NodeKind} {s : Styling} :
    colorsText kind s = true ↔ kind = .text ∧ ∃ ty value, s.typography = some ty ∧
      ty.color = some value ∧ value.isEmpty = false := by
  unfold colorsText Widget.isFilled
  cases s.typography with
  | none => simp
  | some ty => cases hc : ty.color <;> simp [hc]

theorem isSome_stroke?_iff {o : Option Border} :
    (o.bind stroke?).isSome = true ↔ ∃ b width color, o = some b ∧ b.width = some width ∧
      b.color = some color ∧ width.isZero = false ∧ color.isEmpty = false := by
  cases o with
  | none => simp
  | some b =>
    unfold stroke?
    cases hw : b.width <;> cases hc : b.color <;> simp [hw, hc]

theorem any_contains_iff {properties : List Text} {cs : List ColorEntry} :
    (cs.any fun c => properties.contains c.property) = true ↔
      ∃ c ∈ cs, c.property ∈ properties := by
  simp [List.any_eq_true]

theorem replacesFills_iff {kind : NodeKind} {s : Styling} :
    replacesFills kind s = true ↔ GivesFills kind s := by
  rw [replacesFills, Bool.or_eq_true, colorsText_iff, any_contains_iff, GivesFills, Or.comm]

theorem replacesStrokes_iff {s : Styling} : replacesStrokes s = true ↔ GivesStrokes s := by
  rw [replacesStrokes, Bool.or_eq_true, isSome_stroke?_iff, any_contains_iff, GivesStrokes, Or.comm]

end Resolver

/-! ## Edits of whole stylings -/

/-- An edit adds only to lists that a styling takes the place of, and sets only those properties of
a text that the styling gives. -/
structure Edit.KeepsTo (e : Edit) (kind : NodeKind) (s : Styling) : Prop where
  fills : replacesFills kind s = false → e.fills = []
  strokes : replacesStrokes s = false → e.strokes = []
  effects : s.shadows = [] → e.effects = []
  texts : ∀ v ∈ e.texts, ∃ ty, s.typography = some ty ∧ v ∈ textValues ty

namespace Edit.KeepsTo

variable {kind : NodeKind} {s : Styling}

/-- An edit that touches no list and no text. -/
theorem of_nil {e : Edit} (fills : e.fills = []) (strokes : e.strokes = [])
    (effects : e.effects = []) (texts : e.texts = []) : e.KeepsTo kind s where
  fills _ := fills
  strokes _ := strokes
  effects _ := effects
  texts v hv := by
    rw [texts] at hv
    cases hv

theorem append {d e : Edit} (hd : d.KeepsTo kind s) (he : e.KeepsTo kind s) :
    (d ++ e).KeepsTo kind s where
  fills h := List.append_eq_nil_iff.2 ⟨hd.fills h, he.fills h⟩
  strokes h := List.append_eq_nil_iff.2 ⟨hd.strokes h, he.strokes h⟩
  effects h := List.append_eq_nil_iff.2 ⟨hd.effects h, he.effects h⟩
  texts v hv := (List.mem_append.1 hv).elim (hd.texts v) (he.texts v)

end Edit.KeepsTo

namespace Resolver

variable (r : Resolver) (t : Node.Traits) (s : Styling)

theorem exists_edit_typography :
    let typography : Account :=
      (textOnly t.kind s.typography).elim .nothing fun ty => (r.typographyAccount ty).whole
    let color := r.paintsFor Widget.fillProperties (textColors t.kind s)
    ∃ texts fills, typography.edit = { texts, fills } ∧
      (∀ v ∈ texts, ∃ ty, s.typography = some ty ∧ v ∈ textValues ty) ∧
      fills ⊆ color ∧ (typography.rejection = none → fills = color) := by
  intro typography color
  unfold typography color textColors
  cases hty : textOnly t.kind s.typography with
  | none => exact ⟨[], [], rfl, nofun, List.nil_subset _, fun _ => rfl⟩
  | some ty =>
    obtain ⟨texts, given, fills, painted, edit, all⟩ := r.edit_typographyAccount ty
    rw [Option.elim_some, Account.edit_whole, Account.rejection_whole]
    exact ⟨texts, fills, edit, fun v hv => ⟨ty, (of_textOnly hty).2, given hv⟩, painted, all⟩

theorem exists_edit_spacing (laidOut : Bool) (spacing : Option Spacing) :
    ∃ padding margin,
      (spacing.elim .nothing (spacingAccount laidOut) : Account).edit = { padding, margin } := by
  cases spacing with
  | none => exact ⟨none, none, rfl⟩
  | some x => exact edit_spacingAccount laidOut x

theorem exists_edit_borders (borders : Option Border) :
    ∃ strokeWeight radius, (borders.elim .nothing bordersAccount : Account).edit =
      { strokes := borders.elim [] borderPaints, strokeWeight, radius } := by
  cases borders with
  | none => exact ⟨none, none, rfl⟩
  | some b => exact edit_bordersAccount b

theorem edit_shadows (shadows : List Shadow) :
    (if shadows.isEmpty then .nothing else shadowsAccount shadows : Account).edit =
      { effects := castEffects shadows } := by
  cases shadows with
  | nil => rfl
  | cons x rest => exact edit_shadowsAccount _

/-- What the aspects of a styling write: each of them has its own part of an edit. -/
theorem edits_aspectAccounts :
    let color := r.paintsFor Widget.fillProperties (textColors t.kind s)
    ∃ texts fills padding margin strokeWeight radius,
      (r.aspectAccounts t s).map (·.edit) = [
        { fills := r.paintsFor Widget.fillProperties s.colors
          strokes := r.paintsFor Widget.strokeProperties s.colors },
        { texts, fills },
        { padding, margin },
        { strokes := s.borders.elim [] borderPaints, strokeWeight, radius },
        { effects := castEffects s.shadows }] ∧
      (∀ v ∈ texts, ∃ ty, s.typography = some ty ∧ v ∈ textValues ty) ∧
      fills ⊆ color ∧ ((r.stylingAccount t s).rejection = none → fills = color) := by
  obtain ⟨texts, fills, typography, given, painted, all⟩ := r.exists_edit_typography t s
  obtain ⟨padding, margin, spacing⟩ := exists_edit_spacing t.laidOut s.spacing
  obtain ⟨strokeWeight, radius, borders⟩ := exists_edit_borders s.borders
  refine ⟨texts, fills, padding, margin, strokeWeight, radius, ?_, given, painted, fun h => ?_⟩
  · simp only [aspectAccounts, List.map_cons, List.map_nil, edit_colorsAccount, spacing, borders,
      edit_shadows]
    rw [← typography]
  · exact all (Account.rejection_all_iff.1 h _ (List.mem_cons_of_mem _ List.mem_cons_self))

theorem paintsFor_eq_nil_of_any {properties : List Text}
    (h : (s.colors.any fun c => properties.contains c.property) = false) :
    r.paintsFor properties s.colors = [] :=
  r.paintsFor_eq_nil fun c hc hp => nomatch h.symm.trans (any_contains_iff.2 ⟨c, hc, hp⟩)

theorem textColors_eq_nil {kind : NodeKind} (h : colorsText kind s = false) :
    textColors kind s = [] := by
  unfold textColors
  cases hty : textOnly kind s.typography with
  | none => rfl
  | some ty =>
    obtain ⟨hk, ht⟩ := of_textOnly hty
    rw [colorsText, decide_eq_true hk, ht, Option.bind_some, Bool.true_and] at h
    rw [Option.elim_some, textColor]
    cases hc : ty.color with
    | none => rfl
    | some value =>
      rw [hc, Widget.isFilled, Option.any_some, Bool.not_eq_false'] at h
      exact if_pos h

theorem borderPaints_eq_nil {borders : Option Border}
    (h : (borders.bind stroke?).isSome = false) : borders.elim [] borderPaints = [] := by
  cases borders with
  | none => rfl
  | some b =>
    rw [Option.bind_some, Option.isSome_eq_false_iff, Option.isNone_iff_eq_none] at h
    rw [Option.elim_some, borderPaints, h]
    rfl

/-- What a styling writes keeps to it, even if a rejection ends it. -/
theorem keepsTo_stylingAccount : (r.stylingAccount t s).edit.KeepsTo t.kind s := by
  obtain ⟨texts, fills, padding, margin, strokeWeight, radius, edits, given, painted, -⟩ :=
    r.edits_aspectAccounts t s
  refine Account.edit_all (p := fun e => e.KeepsTo t.kind s) (.of_nil rfl rfl rfl rfl)
    (fun _ _ hd he => hd.append he) fun a ha => ?_
  have ha : a.edit ∈ (r.aspectAccounts t s).map (·.edit) := List.mem_map_of_mem ha
  simp only [edits, List.mem_cons, List.not_mem_nil, or_false] at ha
  rcases ha with ha | ha | ha | ha | ha <;> rw [ha]
  · exact {
      fills := fun h => r.paintsFor_eq_nil_of_any s (Bool.or_eq_false_iff.1 h).2
      strokes := fun h => r.paintsFor_eq_nil_of_any s (Bool.or_eq_false_iff.1 h).2
      effects := fun _ => rfl
      texts := nofun }
  · exact {
      fills := fun h => by
        rw [textColors_eq_nil s (Bool.or_eq_false_iff.1 h).1] at painted
        exact List.subset_nil.1 painted
      strokes := fun _ => rfl
      effects := fun _ => rfl
      texts := given }
  · exact .of_nil rfl rfl rfl rfl
  · exact {
      fills := fun _ => rfl
      strokes := fun h => borderPaints_eq_nil (Bool.or_eq_false_iff.1 h).1
      effects := fun _ => rfl
      texts := nofun }
  · exact {
      fills := fun _ => rfl
      strokes := fun _ => rfl
      effects := fun h => by rw [h]; rfl
      texts := nofun }

/-! ## The lists after a styling -/

/-- An edit adds to what a styling leaves of the lists of a node. -/
theorem apply_clearPaints (e : Edit) (n : Node) :
    e.apply (clearPaints s n) = (e.apply n).withLists
      (extend (if replacesFills n.kind s then some [] else n.properties.fills) e.fills)
      (extend (if replacesStrokes s then some [] else n.properties.strokes) e.strokes)
      (extend (if s.shadows.isEmpty then n.properties.effects else some []) e.effects) :=
  e.apply_withLists n _ _ _

/-- The lists of a node after a styling, even if a rejection ended it. -/
theorem lists_applyStyles (n : Node) :
    let e := (r.stylingAccount n.traits s).edit
    let after := (r.applyStyles n s).1.properties
    after.fills =
        extend (if replacesFills n.kind s then some [] else n.properties.fills) e.fills ∧
      after.strokes =
        extend (if replacesStrokes s then some [] else n.properties.strokes) e.strokes ∧
      after.effects =
        extend (if s.shadows.isEmpty then n.properties.effects else some []) e.effects := by
  have node := r.node_applyStyles s n
  rw [apply_clearPaints] at node
  exact ⟨congrArg (fun m : Node => m.properties.fills) node,
    congrArg (fun m : Node => m.properties.strokes) node,
    congrArg (fun m : Node => m.properties.effects) node⟩

variable {r t s}

/-- The lists that a styling writes, where no rejection ends it. -/
theorem lists_stylingAccount (h : (r.stylingAccount t s).rejection = none) :
    let e := (r.stylingAccount t s).edit
    e.fills = r.paintsFor Widget.fillProperties s.colors ++
        r.paintsFor Widget.fillProperties (textColors t.kind s) ∧
      e.strokes =
        r.paintsFor Widget.strokeProperties s.colors ++ s.borders.elim [] borderPaints ∧
      e.effects = castEffects s.shadows := by
  intro e
  obtain ⟨texts, fills, padding, margin, strokeWeight, radius, edits, -, -, painted⟩ :=
    r.edits_aspectAccounts t s
  have read {β : Type} (f : Edit → List β) (empty : f {} = [])
      (append : ∀ d e, f (d ++ e) = f d ++ f e) :
      f e = ((r.aspectAccounts t s).map (·.edit)).flatMap f := by
    rw [List.flatMap_map]
    exact Account.read_all (fun a => f a.edit) empty
      (fun a b ha => by rw [Account.edit_andThen ha, append]) h
  rw [read (·.fills) rfl fun _ _ => rfl, read (·.strokes) rfl fun _ _ => rfl,
    read (·.effects) rfl fun _ _ => rfl, edits, painted h]
  simp only [List.flatMap_cons, List.flatMap_nil, List.append_nil, List.nil_append, and_self]

/-- **What a styling paints takes the place of what was there.** Where no rejection ends a styling
that has fills of its own, the fills of the node are those of its entries whose literal value is
taken and is a colour, in order, and then the colour of its text; a styling without any leaves them
alone. So with the strokes of its entries, and then of its border, and with the effects of its
shadows, which are none if one of them has a malformed colour. -/
theorem paints_applyStyles (r : Resolver) (n : Node) (s : Styling)
    (h : (r.outcome n s).2.2 = none) :
    let before := n.properties
    let after := (r.applyStyles n s).1.properties
    (GivesFills n.kind s → after.fills = some (r.paintsFor Widget.fillProperties s.colors ++
        r.paintsFor Widget.fillProperties (textColors n.kind s))) ∧
      (¬GivesFills n.kind s → after.fills = before.fills) ∧
      (GivesStrokes s → after.strokes = some (r.paintsFor Widget.strokeProperties s.colors ++
        s.borders.elim [] borderPaints)) ∧
      (¬GivesStrokes s → after.strokes = before.strokes) ∧
      (s.shadows = [] → after.effects = before.effects) ∧
      ((∃ x ∈ s.shadows, Rgb.ofHex? x.color = none) → after.effects = some []) ∧
      (s.shadows ≠ [] → (∀ x ∈ s.shadows, Rgb.ofHex? x.color ≠ none) →
        ∃ effects, after.effects = some effects ∧ List.Forall₂ Casts s.shadows effects) := by
  intro before after
  rw [outcome_eq] at h
  obtain ⟨fills, strokes, effects⟩ := lists_stylingAccount h
  have keeps := r.keepsTo_stylingAccount n.traits s
  obtain ⟨afterFills, afterStrokes, afterEffects⟩ := r.lists_applyStyles s n
  have cast (given : s.shadows ≠ []) : after.effects = some (castEffects s.shadows) := by
    rw [afterEffects, List.isEmpty_eq_false_iff.2 given, effects]
    exact extend_some [] _
  refine ⟨fun hf => ?_, fun hf => ?_, fun hs => ?_, fun hs => ?_, fun he => ?_, fun hx => ?_,
    fun he hx => ?_⟩
  · rw [afterFills, if_pos (replacesFills_iff.2 hf), extend_some, fills]
    rfl
  · have replaces := Bool.eq_false_iff.2 fun hr => hf (replacesFills_iff.1 hr)
    rw [afterFills, replaces, keeps.fills replaces]
    rfl
  · rw [afterStrokes, if_pos (replacesStrokes_iff.2 hs), extend_some, strokes]
    rfl
  · have replaces := Bool.eq_false_iff.2 fun hr => hs (replacesStrokes_iff.1 hr)
    rw [afterStrokes, replaces, keeps.strokes replaces]
    rfl
  · rw [afterEffects, keeps.effects he, he]
    rfl
  · have given : s.shadows ≠ [] := fun he => by
      obtain ⟨x, hx, -⟩ := hx
      rw [he] at hx
      cases hx
    rw [cast given, castEffects_of_malformed hx]
  · refine ⟨castEffects s.shadows, cast he, forall₂_castEffects ?_ hx⟩
    have shadows := Account.rejection_all_iff.1 h
      (if s.shadows.isEmpty then .nothing else shadowsAccount s.shadows) (by simp [aspectAccounts])
    rwa [List.isEmpty_eq_false_iff.2 he] at shadows

theorem paints_applyStyles_title :
    let r : Resolver := {}
    let n : Node := { kind := .text, name := "title",
                      properties := { fills := some [.solid .black] } }
    let fill (value : Text) : ColorEntry := { property := "backgroundColor", value }
    let s : Styling := { givenColors := some [fill "#FFF", fill "#12"],
                         givenTypography := some (some { color := some "#000000" }),
                         givenBorders := some (some { width := some 1, color := some "#FFFFFF" }),
                         givenShadows := some [{ color := "#000", blur := 4 }] }
    (r.outcome n s).2.2 = none ∧
      (r.applyStyles n s).1.properties.fills =
        some [.solid (.ofChannels 255 255 255), .solid (.ofChannels 0 0 0)] ∧
      (r.applyStyles n s).1.properties.strokes = some [.solid (.ofChannels 255 255 255)] ∧
      ∃ effects, (r.applyStyles n s).1.properties.effects = some effects ∧
        List.Forall₂ Casts s.shadows effects := by
  intro r n fill s
  have complete : (r.outcome n s).2.2 = none := by decide +kernel
  have filled : GivesFills n.kind s := replacesFills_iff.1 (by decide)
  have stroked : GivesStrokes s := replacesStrokes_iff.1 (by decide)
  have given : s.shadows ≠ [] := by decide
  have good : ∀ x ∈ s.shadows, Rgb.ofHex? x.color ≠ none := by decide +kernel
  obtain ⟨fills, -, strokes, -, -, -, effects⟩ := r.paints_applyStyles n s complete
  refine ⟨complete, ?_, ?_, effects given good⟩
  · rw [fills filled]
    decide +kernel
  · rw [strokes stroked]
    decide +kernel

end Resolver

end DesignTree
