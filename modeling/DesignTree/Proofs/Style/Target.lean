import DesignTree.Proofs.Style.Ending

/-! # What bound colours aim at

Which paint list a colour is meant for is decided twice: by the binding of its token, and by its
literal value. The two agree on the properties that nodes have. A property that no node has is never
painted, but its token is bound all the same, to the fills (`targets_applyColors`). A list that a
binding is for holds the literal values of other entries, in order, and nothing else
(`paints_of_mem_bindings`).
-/

namespace DesignTree

/-- A node with one more paint at the end of a list that goes by its name. -/
def Node.withPaint (n : Node) (list : Text) (p : Paint) : Node :=
  if list = "fills" then { n with properties := Resolver.addFill p n.properties }
  else if list = "strokes" then { n with properties := Resolver.addStroke p n.properties }
  else n

namespace Resolver

/-! ## Where literal values are painted -/

/-- The literal values of a property that are colours are painted on a list of the node. -/
def PaintsOn (property list : Text) : Prop :=
  ∀ (c : ColorEntry) (color : Rgb) (n : Node), c.property = property →
    Rgb.ofHex? c.value = some color →
    Gives (applyLiteral c) n (.ok (.ofApplied property)) (n.withPaint list (.solid color))

/-- Nodes have a list of paints for a property. -/
def HasPaints (property : Text) : Prop :=
  property ∈ Widget.fillProperties ∨ property ∈ Widget.strokeProperties

theorem paintsOn_of_hasPaints {property : Text} (h : HasPaints property) :
    PaintsOn property (paintTarget property) := by
  rintro c color n rfl hv
  unfold Gives applyLiteral Rgb.ofHex paintTarget
  rw [hv]
  rcases h with hf | hs
  · have fill := List.contains_iff_mem.2 hf
    rw [fill, not_stroke_of_fill fill]
    rfl
  · have stroke := List.contains_iff_mem.2 hs
    have noFill : Widget.fillProperties.contains c.property = false := by
      rw [Bool.eq_false_iff]
      exact fun fill => nomatch stroke.symm.trans (not_stroke_of_fill fill)
    rw [noFill, stroke]
    rfl

/-- A property that no node has is painted on no list. -/
theorem not_paintsOn {property : Text} (h : ¬HasPaints property) (list : Text) :
    ¬PaintsOn property list := by
  obtain ⟨hf, hs⟩ := not_or.1 h
  intro paints
  have hv : Rgb.ofHex? "#000000" = some (.ofChannels 0 0 0) := by decide +kernel
  have painted := paints { property, value := "#000000" } _ { kind := .frame, name := "" } rfl hv
  unfold Gives applyLiteral at painted
  rw [Bool.eq_false_iff.2 (mt List.contains_iff_mem.1 hf),
    Bool.eq_false_iff.2 (mt List.contains_iff_mem.1 hs)] at painted
  cases painted

theorem paintsOn_paintTarget_iff {property : Text} :
    PaintsOn property (paintTarget property) ↔ HasPaints property :=
  ⟨fun paints => by_contra fun h => not_paintsOn h _ paints, paintsOn_of_hasPaints⟩

/-! ## Bindings of entries -/

theorem targetProperty_of_entryBinding? {r : Resolver} {c : ColorEntry} {b : Binding}
    (h : r.entryBinding? c = some b) : b.targetProperty = paintTarget c.property := by
  obtain ⟨path, -, hb⟩ := Option.bind_eq_some_iff.1 h
  exact targetProperty_of_binding? hb

theorem LiteralOutcome.hasPaints_of_mem {c : ColorEntry} {a : Account} (h : LiteralOutcome c a)
    {property : Text} (hm : property ∈ a.result.applied) : HasPaints property := by
  cases h with
  | fill hp hv =>
    rw [List.mem_singleton.1 hm]
    exact .inl hp
  | stroke hp hv =>
    rw [List.mem_singleton.1 hm]
    exact .inr hp
  | malformed | unmapped => cases hm

/-- An entry is reported as applied if it is bound, or else as its literal value is. -/
theorem applied_colorAccount (r : Resolver) (c : ColorEntry) :
    (r.colorAccount c).result.applied =
      if (r.entryBinding? c).isSome then [c.property]
      else if r.takesLiteral c then (literalAccount c).result.applied
      else [] := by
  unfold colorAccount entryBinding? takesLiteral
  cases r.activePath c.isThemeReference c.themePath with
  | none => rfl
  | some path =>
    rw [Option.bind_some]
    cases hb : r.colorBinding? c.property path with
    | some b =>
      simp only [hb]
      rfl
    | none =>
      simp only [hb]
      cases r.config.fallbackToDirectValues with
      | false => rfl
      | true =>
        cases isMalformed c with
        | true => rfl
        | false =>
          have merged := Account.result_andThen (b := .warning (missingWarning path))
            (rejection_literalAccount c)
          exact (congrArg StyleResult.applied merged).trans (List.append_nil _)

/-- A property that no node has is reported as applied only where it is bound. -/
theorem mem_applied_colorAccount_iff {r : Resolver} {c : ColorEntry} {property : Text}
    (h : ¬HasPaints property) :
    property ∈ (r.colorAccount c).result.applied ↔
      c.property = property ∧ (r.entryBinding? c).isSome = true := by
  rw [applied_colorAccount]
  cases (r.entryBinding? c).isSome with
  | true =>
    rw [if_pos rfl, List.mem_singleton, eq_comm]
    exact (and_iff_left rfl).symm
  | false =>
    refine iff_of_false (fun hm => ?_) fun hb => nomatch hb.2
    rw [if_neg Bool.false_ne_true] at hm
    split at hm
    · exact h ((literalOutcome c).hasPaints_of_mem hm)
    · cases hm

/-- **A binding aims where its literal value would be painted, if anywhere.** Colour entries are
bound each for itself. The binding of an entry is for the list that its literal value is painted on
exactly if nodes have a list of paints for its property. A property that nodes have no list for is
reported as applied exactly if an entry for it is bound. -/
theorem targets_applyColors (r : Resolver) (n : Node) (cs : List ColorEntry) :
    ∃ result m, Gives (r.applyColors cs) n result m ∧
      result.bindings = cs.filterMap r.entryBinding? ∧
      (∀ c ∈ cs, ∀ b, r.entryBinding? c = some b →
        (PaintsOn c.property b.targetProperty ↔ HasPaints c.property)) ∧
      ∀ property, (∀ list, ¬PaintsOn property list) →
        (property ∈ result.applied ↔
          ∃ c ∈ cs, c.property = property ∧ (r.entryBinding? c).isSome = true) := by
  have complete := r.rejection_colorsAccount cs
  have gives := (r.for_applyColors cs n.traits).gives complete
  refine ⟨_, _, gives, r.bindings_colorsAccount cs, fun c _ b hb => ?_, fun property h => ?_⟩
  · rw [targetProperty_of_entryBinding? hb]
    exact paintsOn_paintTarget_iff
  · have unpainted : ¬HasPaints property := fun hp => h _ (paintsOn_of_hasPaints hp)
    have result : (r.colorsAccount cs).result = _ := Account.result_all complete
    simp only [result, List.flatMap_map, List.mem_flatMap,
      mem_applied_colorAccount_iff unpainted]

/-- An entry for a property that no node has is bound to the fills and reported as applied, though
its literal value is painted nowhere. -/
theorem targets_of_unmapped_property :
    let light : Theme := { colorScheme := { colors := .of [(.primary, "#6750A4")] } }
    let r : Resolver := ⟨.ofTheme light, {}⟩
    let n : Node := { kind := .frame, name := "card" }
    let c : ColorEntry := { property := "shadowColor", value := "#000000",
                            isThemeReference := true, themePath := some "colorScheme.primary" }
    (∀ list, ¬PaintsOn c.property list) ∧ ∃ result m, Gives (r.applyColors [c]) n result m ∧
      result.bindings.map (·.targetProperty) = ["fills"] ∧ result.applied = [c.property] := by
  intro light r n c
  have unpainted : ¬HasPaints c.property := by
    unfold HasPaints
    decide
  have gives := (r.for_applyColors [c] n.traits).gives (r.rejection_colorsAccount [c])
  refine ⟨not_paintsOn unpainted, _, _, gives, ?_, ?_⟩ <;> decide +kernel

/-! ## Lists that bindings are for -/

/-- The colour entries that a styling comes to: its own, and that of its typography if this does
not end it. -/
def reachedColors (r : Resolver) (kind : NodeKind) (s : Styling) : List ColorEntry :=
  s.colors ++ if r.textOverflows kind s then [] else textColors kind s

/-- The paints that a border adds, if a styling comes to it. -/
def reachedBorder (r : Resolver) (kind : NodeKind) (s : Styling) : List Paint :=
  if r.textOverflows kind s then [] else s.borders.elim [] borderPaints

section

variable {r : Resolver} {t : Node.Traits} {s : Styling}

/-- The colour of a text is no stroke. -/
theorem property_notMem_of_text {ended : Bool} {kind : NodeKind} {c : ColorEntry}
    (h : c ∈ if ended then [] else textColors kind s) :
    c.property ∉ Widget.strokeProperties := by
  have text : c ∈ textColors kind s := by
    split at h
    · cases h
    · exact h
  unfold textColors at text
  cases hty : textOnly kind s.typography with
  | none =>
    rw [hty] at text
    cases text
  | some ty =>
    rw [hty] at text
    rw [property_of_mem_textColor text]
    decide

theorem paintsFor_append (r : Resolver) (properties : List Text) (cs ds : List ColorEntry) :
    r.paintsFor properties (cs ++ ds) =
      r.paintsFor properties cs ++ r.paintsFor properties ds := by
  unfold paintsFor
  rw [List.filter_append, List.filterMap_append]

/-- A typography that a rejection ends has not come to its colour. -/
theorem edit_typographyAccount_of_rejection {ty : Typography}
    (h : (r.typographyAccount ty).rejection ≠ none) :
    ∃ texts, (r.typographyAccount ty).edit = { texts } := by
  let path := r.activePath ty.isThemeReference ty.themePath
  obtain ⟨texts, -, values⟩ := r.edit_textAccounts path (textValues ty)
  cases hr : (Account.all ((textValues ty).map (r.textAccount path))).rejection with
  | none =>
    have complete : (r.typographyAccount ty).rejection = none :=
      (Account.rejection_andThen hr).trans (r.rejection_colorsAccount _)
    exact absurd complete h
  | some rejection =>
    refine ⟨texts, ?_⟩
    rw [typographyAccount, Account.andThen_of_rejection hr]
    exact values

/-- What the typography of a styling writes on the lists of paints: the colour of the text as a
fill, if it comes to that. -/
theorem lists_textsAccount :
    (r.textsAccount t s).edit.fills = (if r.textOverflows t.kind s then []
        else r.paintsFor Widget.fillProperties (textColors t.kind s)) ∧
      (r.textsAccount t s).edit.strokes = [] := by
  unfold textsAccount textOverflows textColors
  cases textOnly t.kind s.typography with
  | none => exact ⟨rfl, rfl⟩
  | some ty =>
    rw [Option.elim_some, Option.elim_some, Option.any_some, Account.edit_whole]
    cases ho : r.typographyOverflows ty with
    | true =>
      have ended : (r.typographyAccount ty).rejection ≠ none := fun h => by
        rw [rejection_typographyAccount_iff, ho] at h
        cases h
      obtain ⟨texts, edit⟩ := edit_typographyAccount_of_rejection ended
      rw [edit]
      exact ⟨rfl, rfl⟩
    | false =>
      obtain ⟨texts, -, fills, -, edit, painted⟩ := r.edit_typographyAccount ty
      rw [edit, painted (rejection_typographyAccount_iff.2 ho)]
      exact ⟨rfl, rfl⟩

/-- What the aspects after the typography write on the lists of paints, even if a length ends the
shadows, which come last. -/
theorem lists_boxAccounts :
    (Account.all (boxAccounts t s)).edit.fills = [] ∧
      (Account.all (boxAccounts t s)).edit.strokes = s.borders.elim [] borderPaints := by
  obtain ⟨_, _, padding, margin, strokeWeight, radius, edits, -⟩ :=
    ({} : Resolver).edits_aspectAccounts t s
  simp only [aspectAccounts, List.map_cons, List.map_nil, List.cons.injEq, and_true] at edits
  obtain ⟨-, -, spacing, borders, shadows⟩ := edits
  have edit : (Account.all (boxAccounts t s)).edit =
      { padding, margin } ++ ({ strokes := s.borders.elim [] borderPaints, strokeWeight, radius } ++
        { effects := castEffects s.shadows }) := by
    rw [← spacing, ← borders, ← shadows, boxAccounts, Account.all_cons, Account.all_cons,
      Account.edit_andThen (rejection_given (rejection_spacingAccount t.laidOut) _),
      Account.edit_andThen (rejection_given rejection_bordersAccount _)]
    exact congrArg (fun a : Account => _ ++ (_ ++ a.edit)) (Account.andThen_nothing _)
  rw [edit]
  exact ⟨rfl, List.append_nil _⟩

/-- The paints that a styling writes, even if a length ends it early. -/
theorem paints_stylingAccount :
    let e := (r.stylingAccount t s).edit
    let reached := r.reachedColors t.kind s
    e.fills = r.paintsFor Widget.fillProperties reached ∧
      e.strokes =
        r.paintsFor Widget.strokeProperties reached ++ r.reachedBorder t.kind s := by
  intro e reached
  obtain ⟨textFills, textStrokes⟩ := r.lists_textsAccount (t := t) (s := s)
  obtain ⟨boxFills, boxStrokes⟩ := lists_boxAccounts (t := t) (s := s)
  have first : e = { fills := r.paintsFor Widget.fillProperties s.colors
                     strokes := r.paintsFor Widget.strokeProperties s.colors } ++
      ((r.textsAccount t s).andThen (.all (boxAccounts t s))).edit := by
    rw [← edit_colorsAccount, ← Account.edit_andThen (r.rejection_colorsAccount _)]
    rfl
  have stroked : r.paintsFor Widget.strokeProperties
      (if r.textOverflows t.kind s then [] else textColors t.kind s) = [] :=
    r.paintsFor_eq_nil fun c hc => property_notMem_of_text hc
  unfold reached reachedColors reachedBorder
  rw [first, Edit.fills_append, Edit.strokes_append, paintsFor_append, paintsFor_append, stroked,
    List.append_nil]
  cases ho : r.textOverflows t.kind s with
  | true =>
    obtain ⟨rejection, hr⟩ := exists_rejection_textsAccount ho
    rw [Account.andThen_of_rejection hr, textFills, textStrokes, ho]
    exact ⟨rfl, rfl⟩
  | false =>
    rw [Account.edit_andThen (rejection_textsAccount_iff.2 ho), Edit.fills_append,
      Edit.strokes_append, textFills, textStrokes, boxFills, boxStrokes, ho, List.append_nil]
    exact ⟨rfl, rfl⟩

theorem paintsFor_eq_nil_iff {properties : List Text} {cs : List ColorEntry} :
    r.paintsFor properties cs = [] ↔ ∀ c ∈ cs, c.property ∈ properties →
      r.takesLiteral c = true → Rgb.ofHex? c.value = none := by
  unfold paintsFor paint?
  simp only [List.filterMap_eq_nil_iff, List.mem_filter, Bool.and_eq_true, List.contains_iff_mem,
    Option.map_eq_none_iff, and_imp]

/-- A binding for a list of paints is that of a colour entry. -/
theorem exists_entry_of_mem_boundBy {kind : NodeKind} {b : Binding} (h : b ∈ r.boundBy kind s)
    (hb : b.targetProperty = "fills" ∨ b.targetProperty = "strokes") :
    ∃ c ∈ r.reachedColors kind s, r.entryBinding? c = some b := by
  unfold boundBy at h
  unfold reachedColors
  rcases List.mem_append.1 h with h | h
  · obtain ⟨c, hc, hcb⟩ := List.mem_filterMap.1 h
    exact ⟨c, List.mem_append_left _ hc, hcb⟩
  · cases ho : r.textOverflows kind s with
    | true =>
      rw [ho] at h
      cases h
    | false =>
      rw [ho] at h
      unfold textColors
      cases hty : textOnly kind s.typography with
      | none =>
        rw [hty] at h
        cases h
      | some ty =>
        rw [hty] at h
        rcases List.mem_append.1 h with h | h
        · -- the bindings of text properties are for these properties themselves
          obtain ⟨v, -, hv⟩ := List.mem_filterMap.1 h
          obtain ⟨path, -, hv⟩ := Option.bind_eq_some_iff.1 hv
          have target : b.targetProperty = v.property := targetProperty_of_binding? hv
          rw [target] at hb
          revert hb
          cases v <;> exact fun hb => absurd hb (by simp only [TextValue.property]; decide)
        · obtain ⟨c, hc, hcb⟩ := List.mem_filterMap.1 h
          exact ⟨c, List.mem_append_right _ hc, hcb⟩

/-- A styling that comes to an entry for a fill takes the place of the fills. -/
theorem replacesFills_of_reached {kind : NodeKind} {c : ColorEntry}
    (h : c ∈ r.reachedColors kind s) (hp : c.property ∈ Widget.fillProperties) :
    replacesFills kind s = true := by
  rw [replacesFills, Bool.or_eq_true, any_contains_iff]
  rcases List.mem_append.1 h with hc | hc
  · exact .inr ⟨c, hc, hp⟩
  · refine .inl (by_contra fun colored => ?_)
    rw [textColors_eq_nil s (Bool.eq_false_iff.2 colored), ite_self] at hc
    cases hc

/-- A styling that comes to an entry for a stroke takes the place of the strokes. -/
theorem replacesStrokes_of_reached {kind : NodeKind} {c : ColorEntry}
    (h : c ∈ r.reachedColors kind s) (hp : c.property ∈ Widget.strokeProperties) :
    replacesStrokes s = true := by
  rw [replacesStrokes, Bool.or_eq_true, any_contains_iff]
  refine .inr ⟨c, (List.mem_append.1 h).resolve_right fun hc => ?_, hp⟩
  exact property_notMem_of_text hc hp

/-- **A list that a binding is for holds the literal values of others.** A binding for the fills is
that of a colour entry. If such an entry has a property for fills, the fills of the node are those
of the entries whose literal value is taken and is a colour, in order; so they are empty exactly if
there is no such entry. A binding for the strokes is that of an entry for strokes, and
the strokes are those of the entries and then that of the border. Entries, and the border, count as
far as the styling comes before a length ends it. -/
theorem paints_of_mem_bindings (r : Resolver) (n : Node) (s : Styling) {b : Binding}
    (h : b ∈ (r.applyStyles n s).2.bindings) :
    let after := (r.applyStyles n s).1.properties
    let reached := r.reachedColors n.kind s
    let border := r.reachedBorder n.kind s
    let Unpainted (properties : List Text) := ∀ c ∈ reached, c.property ∈ properties →
      r.takesLiteral c = true → Rgb.ofHex? c.value = none
    (b.targetProperty = "fills" → (∃ c ∈ reached, r.entryBinding? c = some b) ∧
        ∀ c ∈ reached, r.entryBinding? c = some b → c.property ∈ Widget.fillProperties →
          after.fills = some (r.paintsFor Widget.fillProperties reached) ∧
            (after.fills = some [] ↔ Unpainted Widget.fillProperties)) ∧
      (b.targetProperty = "strokes" → ∃ c ∈ reached, r.entryBinding? c = some b ∧
        c.property ∈ Widget.strokeProperties ∧
          after.strokes = some (r.paintsFor Widget.strokeProperties reached ++ border) ∧
            (after.strokes = some [] ↔ Unpainted Widget.strokeProperties ∧ border = [])) := by
  intro after reached border Unpainted
  rw [(r.bindings_applyStyles_iff n s).1] at h
  obtain ⟨fills, strokes⟩ := r.paints_stylingAccount (t := n.traits) (s := s)
  obtain ⟨afterFills, afterStrokes, -⟩ := r.lists_applyStyles s n
  constructor
  · intro hb
    refine ⟨exists_entry_of_mem_boundBy h (.inl hb), fun c hc _ hp => ?_⟩
    have painted : after.fills = some (r.paintsFor Widget.fillProperties reached) := by
      rw [afterFills, if_pos (replacesFills_of_reached hc hp), extend_some, fills]
      rfl
    refine ⟨painted, ?_⟩
    rw [painted, Option.some.injEq]
    exact paintsFor_eq_nil_iff
  · intro hb
    obtain ⟨c, hc, hcb⟩ := exists_entry_of_mem_boundBy h (.inr hb)
    have hp : c.property ∈ Widget.strokeProperties := by
      have target := (targetProperty_of_entryBinding? hcb).symm.trans hb
      by_contra hp
      rw [paintTarget, Bool.eq_false_iff.2 (mt List.contains_iff_mem.1 hp)] at target
      cases target
    have painted :
        after.strokes = some (r.paintsFor Widget.strokeProperties reached ++ border) := by
      rw [afterStrokes, if_pos (replacesStrokes_of_reached hc hp), extend_some, strokes]
      rfl
    refine ⟨c, hc, hcb, hp, painted, ?_⟩
    rw [painted, Option.some.injEq, List.append_eq_nil_iff, paintsFor_eq_nil_iff]

theorem paints_of_mem_bindings_card :
    let light : Theme := { colorScheme := { colors := .of [(.primary, "#6750A4")] } }
    let r : Resolver := ⟨.ofTheme light, {}⟩
    let n : Node := { kind := .frame, name := "card",
                      properties := { fills := some [.solid .black] } }
    let bound (property : Text) : ColorEntry :=
      { property, value := "#000000", isThemeReference := true,
        themePath := some "colorScheme.primary" }
    let s : Styling := { givenColors := some [bound "backgroundColor", bound "borderColor"],
                         givenBorders := some (some { width := some 1, color := some "#FFFFFF" }) }
    let b (list : Text) : Binding :=
      { targetProperty := list, variableId := "Default Colors-primary"
        variableAlias := some "\x7bDefault Colors.primary\x7d" }
    let after := (r.applyStyles n s).1.properties
    (r.applyStyles n s).2.bindings = [b "fills", b "strokes"] ∧ after.fills = some [] ∧
      after.strokes = some [.solid (.ofChannels 255 255 255)] := by
  intro light r n bound s b after
  have bindings : (r.applyStyles n s).2.bindings = [b "fills", b "strokes"] := by decide +kernel
  have fill : b "fills" ∈ (r.applyStyles n s).2.bindings := by
    rw [bindings]
    exact List.mem_cons_self
  have stroke : b "strokes" ∈ (r.applyStyles n s).2.bindings := by
    rw [bindings]
    exact List.mem_cons_of_mem _ List.mem_cons_self
  obtain ⟨-, fills⟩ := (r.paints_of_mem_bindings n s fill).1 rfl
  obtain ⟨-, -, -, -, strokes, -⟩ := (r.paints_of_mem_bindings n s stroke).2 rfl
  have reached : bound "backgroundColor" ∈ r.reachedColors n.kind s :=
    List.mem_append_left _ List.mem_cons_self
  obtain ⟨painted, -⟩ := fills _ reached (by decide +kernel) (by decide)
  refine ⟨bindings, painted.trans ?_, strokes.trans ?_⟩ <;> decide +kernel

/-- Fills that are bound are not empty beside an entry with a literal value. -/
theorem fills_of_bound_and_literal :
    let light : Theme := { colorScheme := { colors := .of [(.primary, "#6750A4")] } }
    let r : Resolver := ⟨.ofTheme light, {}⟩
    let n : Node := { kind := .frame, name := "card" }
    let bound : ColorEntry := { property := "backgroundColor", value := "#000000",
                                isThemeReference := true, themePath := some "colorScheme.primary" }
    let literal : ColorEntry := { property := "color", value := "#FFFFFF" }
    let s : Styling := { givenColors := some [bound, literal] }
    (∃ b ∈ (r.applyStyles n s).2.bindings, b.targetProperty = "fills") ∧
      (r.applyStyles n s).1.properties.fills = some [.solid (.ofChannels 255 255 255)] := by
  decide +kernel

end

end Resolver

end DesignTree
