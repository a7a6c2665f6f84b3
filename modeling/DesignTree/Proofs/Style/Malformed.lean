import DesignTree.Proofs.Style.Paints

/-! # Malformed colours

A styling with a malformed colour is compared with the styling without it. What is malformed comes
to one error and nothing else, so both come to the same but for that error
(`Resolver.Spoils.adds`). They leave the same node, unless nothing else of the styling is
for the list that the colour was meant for: then this list is empty (`applyStyles_of_spoils`).
-/

namespace DesignTree

open Resolver

/-- The lists of a node that a styling takes the place of. -/
inductive PaintList
  | fills
  | strokes
  | effects

namespace PaintList

/-- The properties of colour entries that go to a list. -/
def properties : PaintList → List Text
  | .fills => Widget.fillProperties
  | .strokes => Widget.strokeProperties
  | .effects => []

/-- A styling has something for a list. -/
def IsGiven (kind : NodeKind) (s : Styling) : PaintList → Prop
  | .fills => GivesFills kind s
  | .strokes => GivesStrokes s
  | .effects => s.shadows ≠ []

/-- Whether a styling takes the place of a list. -/
def isReplaced (kind : NodeKind) (s : Styling) : PaintList → Bool
  | .fills => replacesFills kind s
  | .strokes => replacesStrokes s
  | .effects => !s.shadows.isEmpty

theorem isReplaced_iff {kind : NodeKind} {s : Styling} {l : PaintList} :
    l.isReplaced kind s = true ↔ l.IsGiven kind s := by
  cases l with
  | fills => exact replacesFills_iff
  | strokes => exact replacesStrokes_iff
  | effects => simp [isReplaced, IsGiven]

/-- Whether a styling takes the place of a list by something else than its colour entries. -/
def isAsked (kind : NodeKind) (s : Styling) : PaintList → Bool
  | .fills => colorsText kind s
  | .strokes => (s.borders.bind stroke?).isSome
  | .effects => !s.shadows.isEmpty

theorem isReplaced_eq (kind : NodeKind) (s : Styling) (l : PaintList) :
    l.isReplaced kind s =
      (l.isAsked kind s || s.colors.any fun c => l.properties.contains c.property) := by
  cases l with
  | fills | strokes => rfl
  | effects => simp [isReplaced, isAsked, properties]

/-- No property of a colour entry goes to two lists. -/
theorem not_contains_of_ne {l other : PaintList} (h : other ≠ l) {property : Text}
    (hp : property ∈ l.properties) : other.properties.contains property = false := by
  cases l with
  | fills =>
    cases other with
    | fills => exact absurd rfl h
    | strokes => exact not_stroke_of_fill (List.contains_iff_mem.2 hp)
    | effects => rfl
  | strokes =>
    cases other with
    | fills =>
      rw [Bool.eq_false_iff]
      intro fill
      exact absurd (List.contains_iff_mem.2 hp) (Bool.eq_false_iff.1 (not_stroke_of_fill fill))
    | strokes => exact absurd rfl h
    | effects => rfl
  | effects => cases hp

/-- A node with nothing in a list. -/
def emptied (n : Node) : PaintList → Node
  | .fills => n.withLists (some []) n.properties.strokes n.properties.effects
  | .strokes => n.withLists n.properties.fills (some []) n.properties.effects
  | .effects => n.withLists n.properties.fills n.properties.strokes (some [])

/-- The nodes that one edit leaves of two stylings, of which only the first one is sure to take the
place of a list, and which do so with the other lists alike. -/
theorem apply_clearPaints_of_replaced {e : Edit} {s s' : Styling} {n : Node} {l : PaintList}
    (he : e.KeepsTo n.kind s') (replaced : l.isReplaced n.kind s = true)
    (alike : ∀ other, other ≠ l → other.isReplaced n.kind s = other.isReplaced n.kind s') :
    e.apply (clearPaints s n) =
      if l.isReplaced n.kind s' then e.apply (clearPaints s' n)
      else l.emptied (e.apply (clearPaints s' n)) := by
  rw [apply_clearPaints, apply_clearPaints]
  cases l with
  | fills =>
    have strokes : replacesStrokes s = replacesStrokes s' := alike .strokes nofun
    have effects : s.shadows.isEmpty = s'.shadows.isEmpty := Bool.not_inj (alike .effects nofun)
    rw [show replacesFills n.kind s = true from replaced, strokes, effects, isReplaced]
    cases hf : replacesFills n.kind s' with
    | true => rfl
    | false =>
      rw [he.fills hf]
      rfl
  | strokes =>
    have fills : replacesFills n.kind s = replacesFills n.kind s' := alike .fills nofun
    have effects : s.shadows.isEmpty = s'.shadows.isEmpty := Bool.not_inj (alike .effects nofun)
    rw [show replacesStrokes s = true from replaced, fills, effects, isReplaced]
    cases hs : replacesStrokes s' with
    | true => rfl
    | false =>
      rw [he.strokes hs]
      rfl
  | effects =>
    have fills : replacesFills n.kind s = replacesFills n.kind s' := alike .fills nofun
    have strokes : replacesStrokes s = replacesStrokes s' := alike .strokes nofun
    have shadows : s.shadows.isEmpty = false := Bool.not_inj replaced
    rw [shadows, fills, strokes, isReplaced]
    cases hs : s'.shadows with
    | nil =>
      rw [he.effects hs]
      rfl
    | cons x rest => rfl

end PaintList

/-! ## One error more -/

namespace Account

/-- Changes come to what others come to, and to one error somewhere between them. -/
def Adds (message : Text) (spoilt plain : Account) : Prop :=
  ∃ before after : Account, spoilt = before.andThen ((error message).andThen after) ∧
    plain = before.andThen after

section

variable {message : Text} {spoilt plain : Account}

theorem adds_error (message : Text) : Adds message (error message) nothing :=
  ⟨nothing, nothing, by rw [nothing_andThen, andThen_nothing], (nothing_andThen _).symm⟩

theorem Adds.andThen (h : Adds message spoilt plain) (next : Account) :
    Adds message (spoilt.andThen next) (plain.andThen next) := by
  obtain ⟨before, after, rfl, rfl⟩ := h
  exact ⟨before, after.andThen next, by simp only [andThen_assoc], andThen_assoc ..⟩

theorem Adds.after (first : Account) (h : Adds message spoilt plain) :
    Adds message (first.andThen spoilt) (first.andThen plain) := by
  obtain ⟨before, after, rfl, rfl⟩ := h
  exact ⟨first.andThen before, after, (andThen_assoc ..).symm, (andThen_assoc ..).symm⟩

/-- The error of one of the changes is the only one that all of them come to in addition. -/
theorem Adds.all (before : List Account) (h : Adds message spoilt plain) (after : List Account) :
    Adds message (all (before ++ spoilt :: after)) (all (before ++ plain :: after)) := by
  rw [all_append, all_append, all_cons, all_cons]
  exact (h.andThen _).after _

/-- An error between two changes is all that it adds to them. -/
theorem Adds.effects (h : Adds message spoilt plain) (complete : spoilt.rejection = none) :
    spoilt.edit = plain.edit ∧ plain.rejection = none ∧
      ∃ before after, plain.result.errors = before ++ after ∧
        spoilt.result = { plain.result with
          success := false
          errors := before ++ message :: after } := by
  obtain ⟨a, b, rfl, rfl⟩ := h
  obtain ⟨ha, hb⟩ := rejection_andThen_eq_none_iff.1 complete
  have passed : (error message).rejection = none := rfl
  rw [rejection_andThen passed] at hb
  refine ⟨?_, rejection_andThen_eq_none_iff.2 ⟨ha, hb⟩, a.result.errors, b.result.errors, ?_, ?_⟩
  · rw [edit_andThen ha, edit_andThen ha, edit_andThen passed, edit_error, Edit.empty_append]
  · rw [result_andThen ha]
    rfl
  · rw [result_andThen ha, result_andThen ha, result_andThen passed]
    simp [error, StyleResult.merge, StyleResult.ofError]

end

end Account

/-! ## Malformed parts of stylings -/

namespace Resolver

/-- A styling has a malformed colour: the second one is the styling without it, and then there are
the list that the colour is meant for, and the message of the error that it comes to. A colour entry
spoils a styling if its literal value is taken, as that of each entry is that does not refer into
the theme, a border if it is drawn, and shadows do all together. -/
inductive Spoils (r : Resolver) (s : Styling) : Styling → PaintList → Text → Prop
  | color {before after : List ColorEntry} {c : ColorEntry} {l : PaintList}
    (hs : s.colors = before ++ c :: after)
    (taken : ∀ path, r.Refers c path → ¬r.HasColor path ∧ r.config.fallbackToDirectValues = true)
    (hp : c.property ∈ l.properties) (hv : Rgb.ofHex? c.value = none) :
    Spoils r s { s with givenColors := some (before ++ after) } l (malformedMessage c)
  | border {b : Border} {width : Number} {value : Text} (hb : s.borders = some b)
    (hw : b.width = some width) (hz : width.isZero = false) (hc : b.color = some value)
    (hn : value.isEmpty = false) (hv : Rgb.ofHex? value = none) :
    Spoils r s { s with givenBorders := some (some { b with color := none }) } .strokes
      ("Failed to apply border styles: " ++ (DesignError.invalidColor value).message)
  | shadows {x : Shadow} (hx : malformedShadow? s.shadows = some x) :
    Spoils r s { s with givenShadows := none } .effects
      ("Failed to apply shadow styles: " ++ (DesignError.invalidColor x.color).message)

variable {r : Resolver} {s s' : Styling} {l : PaintList} {message : Text}

theorem colorAccount_of_malformed {c : ColorEntry} (taken : r.takesLiteral c = true)
    (h : isMalformed c = true) : r.colorAccount c = .error (malformedMessage c) := by
  rw [← literalAccount_of_malformed h]
  unfold takesLiteral at taken
  unfold colorAccount
  cases hp : r.activePath c.isThemeReference c.themePath with
  | none => rfl
  | some path =>
    rw [hp, Bool.and_eq_true, Option.isNone_iff_eq_none] at taken
    simp only
    rw [taken.1, taken.2, h]
    rfl

theorem isMalformed_of_mem {c : ColorEntry} (hp : c.property ∈ l.properties)
    (hv : Rgb.ofHex? c.value = none) : isMalformed c = true := by
  have painted : (painting? c.property).isSome = true := by
    unfold painting?
    cases l with
    | fills =>
      rw [show Widget.fillProperties.contains c.property = true from List.contains_iff_mem.2 hp]
      rfl
    | strokes =>
      rw [show Widget.strokeProperties.contains c.property = true from List.contains_iff_mem.2 hp]
      cases Widget.fillProperties.contains c.property <;> rfl
    | effects => cases hp
  rw [isMalformed, painted, hv]
  rfl

theorem strokeAccount_of_malformed {b : Border} {width : Number} {value : Text}
    (hw : b.width = some width) (hz : width.isZero = false) (hc : b.color = some value)
    (hn : value.isEmpty = false) (hv : Rgb.ofHex? value = none) :
    strokeAccount b =
      .error ("Failed to apply border styles: " ++ (DesignError.invalidColor value).message) := by
  have drawn : stroke? b = some (width, value) := by
    unfold stroke?
    rw [hw, hc]
    simp [hz, hn]
  unfold strokeAccount Rgb.ofHex
  rw [drawn]
  simp only [hv]

theorem isEmpty_shadows_of_malformed {shadows : List Shadow} {x : Shadow}
    (hx : malformedShadow? shadows = some x) : shadows.isEmpty = false :=
  List.isEmpty_eq_false_iff.2 (List.ne_nil_of_mem (List.mem_of_find?_eq_some hx))

theorem shadowsAccount_of_malformed {shadows : List Shadow} {x : Shadow}
    (hx : malformedShadow? shadows = some x) (h : (shadowsAccount shadows).rejection = none) :
    shadowsAccount shadows =
      .error ("Failed to apply shadow styles: " ++ (DesignError.invalidColor x.color).message) := by
  unfold shadowsAccount at h ⊢
  rcases shadowEffects_cases shadows with ⟨_, hs⟩ | ⟨y, hy, hs⟩ | ⟨_, hn, -⟩
  · rw [hs] at h
    cases h
  · cases hx.symm.trans hy
    rw [hs]
  · cases hn.symm.trans hx

theorem adds_colorsAccount {before after : List ColorEntry} {c : ColorEntry}
    (taken : r.takesLiteral c = true) (h : isMalformed c = true) :
    Account.Adds (malformedMessage c) (r.colorsAccount (before ++ c :: after))
      (r.colorsAccount (before ++ after)) := by
  have entry : r.colorsAccount (c :: after) =
      (r.colorAccount c).andThen (r.colorsAccount after) := rfl
  rw [colorsAccount_append, colorsAccount_append, entry, colorAccount_of_malformed taken h]
  exact ⟨_, _, rfl, rfl⟩

theorem adds_bordersAccount {b : Border} {width : Number} {value : Text}
    (hw : b.width = some width) (hz : width.isZero = false) (hc : b.color = some value)
    (hn : value.isEmpty = false) (hv : Rgb.ofHex? value = none) :
    Account.Adds ("Failed to apply border styles: " ++ (DesignError.invalidColor value).message)
      (bordersAccount b) (bordersAccount { b with color := none }) := by
  have plain : strokeAccount { b with color := none } = .nothing := by
    unfold strokeAccount stroke?
    cases b.width <;> rfl
  rw [bordersAccount, bordersAccount, strokeAccount_of_malformed hw hz hc hn hv, plain]
  exact (Account.adds_error _).andThen _

/-- A styling with a malformed colour comes to what it comes to without it, and to one error. -/
theorem Spoils.adds (h : r.Spoils s s' l message) {t : Node.Traits}
    (complete : (r.stylingAccount t s).rejection = none) :
    Account.Adds message (r.stylingAccount t s) (r.stylingAccount t s') := by
  -- colours are the first of the five aspects, borders the fourth and shadows the last
  let as := r.aspectAccounts t s
  cases h with
  | @color before after c _ hs taken hp hv =>
    have colors : Account.Adds _ (r.colorsAccount (before ++ c :: after))
        (r.colorsAccount (before ++ after)) :=
      adds_colorsAccount (takesLiteral_iff.2 taken) (isMalformed_of_mem hp hv)
    rw [← hs] at colors
    exact colors.all [] as.tail
  | @border b width value hb hw hz hc hn hv =>
    have here : s.borders.elim .nothing bordersAccount = bordersAccount b := by
      rw [hb]
      rfl
    have borders := adds_bordersAccount hw hz hc hn hv
    rw [← here] at borders
    exact borders.all (as.take 3) (as.drop 4)
  | @shadows x hx =>
    have here : (if s.shadows.isEmpty then .nothing else shadowsAccount s.shadows) =
        shadowsAccount s.shadows := by
      rw [isEmpty_shadows_of_malformed hx]
      rfl
    have last : as.drop 4 = [shadowsAccount s.shadows] := congrArg ([·]) here
    have passed : (shadowsAccount s.shadows).rejection = none :=
      Account.rejection_all_iff.1 complete _
        (List.mem_of_mem_drop (i := 4) (last ▸ List.mem_singleton_self _))
    have shadows := Account.adds_error
      ("Failed to apply shadow styles: " ++ (DesignError.invalidColor x.color).message)
    rw [← shadowsAccount_of_malformed hx passed, ← here] at shadows
    exact shadows.all (as.take 4) []

/-- A styling with a malformed colour takes the place of the list that this is meant for, and of the
others as it does without it. -/
theorem Spoils.isReplaced (h : r.Spoils s s' l message) (kind : NodeKind) :
    l.isReplaced kind s = true ∧
      ∀ other, other ≠ l → other.isReplaced kind s = other.isReplaced kind s' := by
  cases h with
  | @color before after c _ hs taken hp hv =>
    refine ⟨?_, fun other ho => ?_⟩
    · have entry : (s.colors.any fun c => l.properties.contains c.property) = true :=
        any_contains_iff.2 ⟨c, by rw [hs]; simp, hp⟩
      rw [PaintList.isReplaced_eq, entry, Bool.or_true]
    · have colors : ({ s with givenColors := some (before ++ after) } : Styling).colors =
          before ++ after := rfl
      have asked : other.isAsked kind { s with givenColors := some (before ++ after) } =
          other.isAsked kind s := by cases other <;> rfl
      rw [PaintList.isReplaced_eq, PaintList.isReplaced_eq, asked, colors, hs, List.any_append,
        List.any_append, List.any_cons, PaintList.not_contains_of_ne ho hp, Bool.false_or]
  | @border b width value hb hw hz hc hn hv =>
    refine ⟨replacesStrokes_iff.2 (.inr ⟨b, width, value, hb, hw, hc, hz, hn⟩), fun other ho => ?_⟩
    cases other with
    | fills | effects => rfl
    | strokes => exact absurd rfl ho
  | @shadows x hx =>
    refine ⟨congrArg (!·) (isEmpty_shadows_of_malformed hx), fun other ho => ?_⟩
    cases other with
    | fills | strokes => rfl
    | effects => exact absurd rfl ho

/-- **A malformed colour spoils only what it is meant for.** Where no rejection ends a styling with
a malformed colour, it reports one error more than the styling without that colour, and else the
same. It leaves the same node; only if nothing else of the styling is for the list that the colour
is meant for, this list is empty and not what it was. -/
theorem applyStyles_of_spoils (n : Node) (h : r.Spoils s s' l message)
    (complete : (r.outcome n s).2.2 = none) :
    let spoilt := r.applyStyles n s
    let other := r.applyStyles n s'
    (∃ before after, other.2.errors = before ++ after ∧
      spoilt.2 = { other.2 with success := false, errors := before ++ message :: after }) ∧
      (l.IsGiven n.kind s' → spoilt.1 = other.1) ∧
      (¬l.IsGiven n.kind s' → spoilt.1 = l.emptied other.1) := by
  have completes : (r.stylingAccount n.traits s).rejection = none := by
    rwa [outcome_eq] at complete
  obtain ⟨edit, completes', before, after, errors, result⟩ := (h.adds completes).effects completes
  obtain ⟨replaced, alike⟩ := h.isReplaced n.kind
  have node := PaintList.apply_clearPaints_of_replaced (r.keepsTo_stylingAccount n.traits s')
    replaced alike
  rw [applyStyles_of_complete completes, applyStyles_of_complete completes', edit, result]
  refine ⟨⟨before, after, errors, rfl⟩, fun hl => ?_, fun hl => ?_⟩
  · rw [node, if_pos (PaintList.isReplaced_iff.2 hl)]
  · rw [node, if_neg fun hr => hl (PaintList.isReplaced_iff.1 hr)]
    cases l <;> rfl

theorem applyStyles_of_spoils_card :
    let r : Resolver := {}
    let n : Node := { kind := .rectangle, name := "card",
                      properties := { fills := some [.solid .black] } }
    let good : ColorEntry := { value := "#FFFFFF" }
    let bad : ColorEntry := { value := "#12" }
    let border : Border := { width := some 1, color := some "red" }
    let shadow : Shadow := { color := "grey", blur := 4 }
    let s : Styling := { givenColors := some [good, bad], givenBorders := some (some border),
                         givenShadows := some [shadow] }
    let plain : Styling := { s with givenColors := some [good] }
    let borderless : Styling := { s with givenBorders := some (some { border with color := none }) }
    let flat : Styling := { s with givenShadows := none }
    (r.outcome n s).2.2 = none ∧
      (r.applyStyles n s).1 = (r.applyStyles n plain).1 ∧
      (r.applyStyles n s).1 = PaintList.emptied (r.applyStyles n borderless).1 .strokes ∧
      (r.applyStyles n s).1 = PaintList.emptied (r.applyStyles n flat).1 .effects := by
  intro r n good bad border shadow s plain borderless flat
  have complete : (r.outcome n s).2.2 = none := by decide +kernel
  have entries : s.colors = [good] ++ bad :: [] := rfl
  have color : r.Spoils s plain .fills _ :=
    .color entries (fun _ h => nomatch h.1) (by decide) (by decide +kernel)
  have drawn : r.Spoils s borderless .strokes _ :=
    .border rfl rfl (by decide) rfl (by decide) (by decide +kernel)
  have first : malformedShadow? s.shadows = some shadow := by decide +kernel
  have shadowed : r.Spoils s flat .effects _ := .shadows first
  obtain ⟨-, filled, -⟩ := applyStyles_of_spoils n color complete
  obtain ⟨-, -, stroked⟩ := applyStyles_of_spoils n drawn complete
  obtain ⟨-, -, cast⟩ := applyStyles_of_spoils n shadowed complete
  refine ⟨complete, filled ?_, stroked fun h => ?_, cast fun h => h rfl⟩
  · exact replacesFills_iff.1 (by decide)
  · have replaced := replacesStrokes_iff.2 h
    revert replaced
    decide

end Resolver

end DesignTree
