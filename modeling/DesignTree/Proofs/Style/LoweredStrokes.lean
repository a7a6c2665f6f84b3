import DesignTree.Proofs.Lowering.Paints
import DesignTree.Proofs.Lowering.Range
import DesignTree.Proofs.Style.Target

/-! # Styling the strokes that were lowered

Both lowering and styling look at the width and the colour of a border before they draw it, and both
leave out a border without a colour or with the width zero. Lowering leaves out one with a width
below zero, too (`Widget.isDrawn_eq`). So there are three kinds of borders: those that both of them
draw, those that neither of them does, and those that styling draws alone (`Border.IsNegative`). By
them it is decided whether a styling keeps the strokes of a lowered node
(`Resolver.strokes_of_lowered_iff`).
-/

namespace DesignTree

open InRun Resolver

/-! ## Borders -/

/-- A border has a colour and a width below zero. -/
def Border.IsNegative (b : Border) : Prop :=
  ∃ width color, b.width = some width ∧ width.less 0 = true ∧ b.color = some color ∧
    Rgb.ofHex? color ≠ none

theorem Number.isZero_of_less {n : Number} (h : n.less 0 = true) : n.isZero = false := by
  unfold isZero same
  unfold less at h
  cases hp : n.place with
  | none => rfl
  | some p =>
    rw [hp] at h
    refine decide_eq_false fun same => ?_
    rw [same] at h
    exact absurd h (by decide)

theorem Rgb.ofHex?_of_isEmpty {s : Text} (h : s.isEmpty = true) : ofHex? s = none := by
  unfold ofHex? hexChannels? hexDigits
  rw [List.isEmpty_iff.1 h]
  rfl

/-- Lowering draws what styling draws, if its width is not below zero. -/
theorem Widget.isDrawn_eq (b : Border) :
    isDrawn b = (stroke? b).any fun stroke => !stroke.1.less 0 := by
  unfold isDrawn stroke? isFilled Number.atMost Number.isZero
  cases b.width with
  | none => rfl
  | some width =>
    cases b.color with
    | none => exact Bool.and_false _
    | some color =>
      cases hz : width.same 0 <;> cases he : color.isEmpty <;> simp [hz, he]

theorem Resolver.stroke?_eq_some_iff {b : Border} {width : Number} {color : Text} :
    stroke? b = some (width, color) ↔ b.width = some width ∧ b.color = some color ∧
      width.isZero = false ∧ color.isEmpty = false := by
  unfold stroke?
  cases b.width with
  | none => simp
  | some other =>
    cases b.color with
    | none => simp
    | some value =>
      simp only [Option.some_inj, Option.ite_none_left_eq_some, Prod.mk.injEq, Bool.or_eq_true,
        not_or, Bool.not_eq_true]
      constructor
      · rintro ⟨⟨hz, he⟩, rfl, rfl⟩
        exact ⟨rfl, rfl, hz, he⟩
      · rintro ⟨rfl, rfl, hz, he⟩
        exact ⟨⟨hz, he⟩, rfl, rfl⟩

namespace Border

variable {b : Border}

/-- A negative border is one that styling draws and lowering does not. -/
theorem isNegative_iff :
    b.IsNegative ↔ Widget.isDrawn b = false ∧ borderPaints b ≠ [] := by
  rw [Widget.isDrawn_eq]
  constructor
  · rintro ⟨width, color, hw, below, hc, good⟩
    have filled : color.isEmpty = false :=
      Bool.eq_false_iff.2 fun empty => good (Rgb.ofHex?_of_isEmpty empty)
    have drawn := stroke?_eq_some_iff.2 ⟨hw, hc, Number.isZero_of_less below, filled⟩
    rw [borderPaints, drawn, Option.any_some, below]
    refine ⟨rfl, ?_⟩
    simpa [paint?] using good
  · rintro ⟨undrawn, painted⟩
    rw [borderPaints] at painted
    cases hs : stroke? b with
    | none => exact absurd (by rw [hs]; rfl) painted
    | some stroke =>
      obtain ⟨width, color⟩ := stroke
      rw [hs] at undrawn painted
      obtain ⟨hw, hc, -, -⟩ := stroke?_eq_some_iff.1 hs
      refine ⟨width, color, hw, by simpa using undrawn, hc, fun none => painted ?_⟩
      rw [Option.bind_some, paint?, none]
      rfl

end Border

theorem Resolver.borderPaints_cases (b : Border) :
    borderPaints b = [] ∨ (stroke? b).isSome = true ∧ ∃ p, borderPaints b = [p] := by
  unfold borderPaints
  cases stroke? b with
  | none => exact .inl rfl
  | some stroke =>
    rw [Option.bind_some]
    cases paint? stroke.2 with
    | none => exact .inl rfl
    | some p => exact .inr ⟨rfl, p, rfl⟩

/-- The strokes that lowering and styling give for a border: neither of them gives one, both give
the same, or styling gives one alone. -/
inductive Border.Drawn (b : Border) : List Paint → List Paint → Prop
  | byNone (h : ¬b.IsNegative) : Drawn b [] []
  | byBoth (h : ¬b.IsNegative) (p : Paint) : Drawn b [p] [p]
  | byStyling (h : b.IsNegative) (p : Paint) : Drawn b [] [p]

theorem Widget.drawn_borderStrokes {w : Widget} {b : Border} (hb : w.styling.borders = some b) :
    b.Drawn w.borderStrokes (borderPaints b) := by
  have same : w.borderStrokes = if isDrawn b then borderPaints b else [] := by
    rw [borderStrokes, hb, Option.elim_some]
    cases hd : isDrawn b with
    | false => rfl
    | true =>
      rw [isDrawn_eq, Option.any_eq_true] at hd
      obtain ⟨⟨width, color⟩, hs, -⟩ := hd
      rw [if_pos rfl, if_pos rfl, borderPaints, hs, (stroke?_eq_some_iff.1 hs).2.1, plainPaints,
        readColor_eq]
      rfl
  rw [same]
  rcases borderPaints_cases b with none | ⟨-, p, one⟩
  · rw [none, ite_self]
    exact .byNone fun h => (Border.isNegative_iff.1 h).2 none
  · rw [one]
    cases hd : isDrawn b with
    | false => exact .byStyling (Border.isNegative_iff.2 ⟨hd, one ▸ List.cons_ne_nil p []⟩) p
    | true => exact .byBoth (fun h => by cases (Border.isNegative_iff.1 h).1.symm.trans hd) p

namespace Resolver

/-! ## Strokes by styling -/

/-- What the stroke of a border comes to: one paint and the width, or nothing that is written. -/
theorem strokeAccount_cases (b : Border) :
    (borderPaints b = [] ∧ (strokeAccount b).edit = {} ∧ (strokeAccount b).result.applied = []) ∨
      ∃ p, borderPaints b = [p] ∧
        strokeAccount b = .applied { strokes := [p], strokeWeight := b.width } ["border"] := by
  unfold strokeAccount borderPaints paint? Rgb.ofHex
  cases hs : stroke? b with
  | none => exact .inl ⟨rfl, rfl, rfl⟩
  | some stroke =>
    obtain ⟨width, value⟩ := stroke
    simp only [Option.bind_some]
    cases Rgb.ofHex? value with
    | none => exact .inl ⟨rfl, rfl, rfl⟩
    | some color =>
      rw [(stroke?_eq_some_iff.1 hs).1]
      exact .inr ⟨.solid color, rfl, rfl⟩

/-- A border that gives a stroke gives its width, too, and is reported as applied. -/
theorem stroke_bordersAccount (b : Border) :
    let border : Text := "border"
    (bordersAccount b).edit.strokes = borderPaints b ∧
      (bordersAccount b).edit.strokeWeight =
        (if (borderPaints b).isEmpty then none else b.width) ∧
      (border ∈ (bordersAccount b).result.applied ↔ borderPaints b ≠ []) := by
  intro border
  have radius : (radiusAccount b).edit.strokes = [] ∧ (radiusAccount b).edit.strokeWeight = none ∧
      border ∉ (radiusAccount b).result.applied := by
    unfold radiusAccount
    cases b.radius with
    | none => exact ⟨rfl, rfl, List.not_mem_nil⟩
    | some radius =>
      have other : border ≠ "borderRadius" := by decide
      exact ⟨rfl, rfl, fun h => other (List.mem_singleton.1 h)⟩
  obtain ⟨strokes, weight, applied⟩ := radius
  have complete := rejection_strokeAccount b
  rw [bordersAccount, Account.edit_andThen complete, Account.result_andThen complete,
    Edit.strokes_append, Edit.strokeWeight_append, strokes, weight, Option.none_or,
    List.append_nil, StyleResult.merge]
  rcases strokeAccount_cases b with ⟨none, edit, silent⟩ | ⟨p, one, account⟩
  · rw [edit, silent, none]
    exact ⟨rfl, rfl, iff_of_false applied (not_not_intro rfl)⟩
  · rw [account, one]
    refine ⟨rfl, rfl, iff_of_true ?_ (List.cons_ne_nil p [])⟩
    exact List.mem_append_left _ List.mem_cons_self

/-- A border on a node adds its stroke, and sets its width if there is one. -/
theorem exists_gives_applyBorders (b : Border) (n : Node) :
    let border : Text := "border"
    ∃ result m, Gives (applyBorders b) n result m ∧
      m.properties.strokes = extend n.properties.strokes (borderPaints b) ∧
      m.properties.strokeWeight =
        (if (borderPaints b).isEmpty then none else b.width).or n.properties.strokeWeight ∧
      (border ∈ result.applied ↔ borderPaints b ≠ []) := by
  obtain ⟨strokes, weight, applied⟩ := stroke_bordersAccount b
  have gives := (for_applyBorders b (t := n.traits)).gives (rejection_bordersAccount b)
  refine ⟨_, _, gives, ?_, ?_, applied⟩
  · rw [← strokes]
    exact Edit.strokes_paints _ _
  · rw [← weight]
    exact Edit.strokeWeight_paints _ _

/-- On a node that is no text a styling writes the stroke weight of its border. -/
theorem strokeWeight_stylingAccount (r : Resolver) {t : Node.Traits} {s : Styling} {b : Border}
    (ht : t.kind ≠ .text) (hb : s.borders = some b) :
    (r.stylingAccount t s).edit.strokeWeight =
      if (borderPaints b).isEmpty then none else b.width := by
  obtain ⟨_, _, _, _, _, _, edits, -⟩ := r.edits_aspectAccounts t s
  simp only [aspectAccounts, List.map_cons, List.map_nil, List.cons.injEq, and_true] at edits
  obtain ⟨colors, -, spacing, -, shadows⟩ := edits
  rw [edit_stylingAccount ht, colors, spacing, shadows, hb, ← (stroke_bordersAccount b).2.1]
  simp

/-- On a lowered node that is no text a styling without entries for strokes leaves the stroke of its
border. -/
theorem strokes_applyStyles_of_drawn (r : Resolver) {n : Node} {s : Styling} {b : Border}
    {lowered : List Paint} (ht : n.kind ≠ .text) (hb : s.borders = some b)
    (hs : ∀ c ∈ s.colors, c.property ∉ Widget.strokeProperties)
    (hn : n.properties.strokes = some lowered) (drawn : b.Drawn lowered (borderPaints b)) :
    let after := (r.applyStyles n s).1.properties
    after.strokes = some (borderPaints b) ∧
      after.strokeWeight =
        (if (borderPaints b).isEmpty then none else b.width).or n.properties.strokeWeight := by
  intro after
  have texts : textOnly n.kind s.typography = none := if_neg ht
  have plain : r.textOverflows n.kind s = false := by rw [textOverflows, texts]; rfl
  have entries : r.paintsFor Widget.strokeProperties (r.reachedColors n.kind s) = [] :=
    r.paintsFor_eq_nil fun c hc => (List.mem_append.1 hc).elim (hs c) property_notMem_of_text
  have written : (r.stylingAccount n.traits s).edit.strokes = borderPaints b := by
    rw [paints_stylingAccount.2, show n.traits.kind = n.kind from rfl, entries, reachedBorder,
      plain, hb]
    rfl
  have replaced : replacesStrokes s = (stroke? b).isSome := by
    have none : (s.colors.any fun c => Widget.strokeProperties.contains c.property) = false :=
      Bool.eq_false_iff.2 fun any => by
        obtain ⟨c, hc, hp⟩ := any_contains_iff.1 any
        exact hs c hc hp
    rw [replacesStrokes, hb, none, Bool.or_false]
    rfl
  constructor
  · rw [(r.lists_applyStyles s n).2.1, written, replaced, hn]
    rcases borderPaints_cases b with none | ⟨drawable, -⟩
    · rw [none] at drawn ⊢
      cases drawn
      rw [ite_self]
      rfl
    · rw [if_pos drawable, extend_some]
      rfl
  · have node := congrArg (fun m : Node => m.properties.strokeWeight) (r.node_applyStyles s n)
    refine node.trans ((Edit.strokeWeight_paints _ _).trans ?_)
    rw [r.strokeWeight_stylingAccount (t := n.traits) ht hb]
    rfl

/-- **Lowering and styling agree on borders, but for those below zero.** The node of a widget with a
border that is no text has a stroke of the border's width or none. On this node the border is
applied, with the same colour and the same width where there is a stroke. Lowering gives a stroke if
and only if the border is applied, and the styling leaves strokes and stroke weight as lowering set
them, exactly if the border is not one with a colour and a width below zero. -/
theorem strokes_of_lowered_iff (r : Resolver) {w : Widget} {b : Border} (ht : w.kind ≠ .text)
    (hb : w.styling.borders = some b)
    (hs : ∀ c ∈ w.styling.colors, c.property ∉ Widget.strokeProperties) {run after : Run} {n : Node}
    (h : w.lower.Yields run n after) :
    let border : Text := "border"
    let before := n.properties
    let styled := (r.applyStyles n w.styling).1.properties
    (before.strokes = some [] ∧ before.strokeWeight = none ∨
        ∃ p, before.strokes = some [p] ∧ before.strokeWeight = b.width) ∧
      (∃ result m, Gives (applyBorders b) n result m ∧
        (∀ p, before.strokes = some [p] → border ∈ result.applied ∧
          m.properties.strokes = some [p, p] ∧
          m.properties.strokeWeight = before.strokeWeight) ∧
        (((∃ p, before.strokes = some [p]) ↔ border ∈ result.applied) ↔ ¬b.IsNegative)) ∧
      (styled.strokes = before.strokes ∧ styled.strokeWeight = before.strokeWeight ↔
        ¬b.IsNegative) := by
  intro border before styled
  obtain ⟨-, strokes, weight⟩ := (Widget.yields_painted ht h).1
  obtain ⟨result, m, gives, added, width, told⟩ := exists_gives_applyBorders b n
  have drawn := Widget.drawn_borderStrokes hb
  obtain ⟨styledStrokes, styledWeight⟩ :=
    r.strokes_applyStyles_of_drawn (Widget.kind_ne_text_of_yields ht h) hb hs strokes drawn
  rw [Widget.strokeWeight, hb, Option.bind_some] at weight
  generalize w.borderStrokes = lowered at strokes weight drawn
  generalize borderPaints b = drawing at added width told styledStrokes styledWeight drawn
  rw [strokes] at added
  rw [weight] at width styledWeight
  cases drawn with
  | byNone kept =>
    refine ⟨.inl ⟨strokes, weight⟩, ⟨result, m, gives, ?_, ?_⟩, ?_⟩
    · simp [before, strokes]
    · simp [before, border, strokes, told, kept]
    · simp [before, styled, strokes, weight, styledStrokes, styledWeight, kept]
  | byBoth kept p =>
    refine ⟨.inr ⟨p, strokes, weight⟩, ⟨result, m, gives, ?_, ?_⟩, ?_⟩
    · simp [before, border, strokes, weight, added, width, told]
    · simp [before, border, strokes, told, kept]
    · simp [before, styled, strokes, weight, styledStrokes, styledWeight, kept]
  | byStyling negative p =>
    refine ⟨.inl ⟨strokes, weight⟩, ⟨result, m, gives, ?_, ?_⟩, ?_⟩
    · simp [before, strokes]
    · simp [before, border, strokes, told, negative]
    · simp [before, styled, strokes, styledStrokes, negative]

theorem strokes_of_lowered_iff_card :
    let r : Resolver := {}
    let b : Border := { width := some 2, color := some "#00F", style := some .dashed }
    let w : Widget := { id := "card", kind := .card, styling := {
      givenColors := some [{ value := "#FFF" }], givenBorders := some (some b) } }
    let border : Text := "border"
    w.kind ≠ .text ∧ w.styling.borders = some b ∧
      (∀ c ∈ w.styling.colors, c.property ∉ Widget.strokeProperties) ∧
      ∃ n after, w.lower.Yields {} n after ∧
        let before := n.properties
        let styled := (r.applyStyles n w.styling).1.properties
        (before.strokes = some [] ∧ before.strokeWeight = none ∨
            ∃ p, before.strokes = some [p] ∧ before.strokeWeight = b.width) ∧
          (∃ result m, Gives (applyBorders b) n result m ∧
            (∀ p, before.strokes = some [p] → border ∈ result.applied ∧
              m.properties.strokes = some [p, p] ∧
              m.properties.strokeWeight = before.strokeWeight) ∧
            (((∃ p, before.strokes = some [p]) ↔ border ∈ result.applied) ↔ ¬b.IsNegative)) ∧
          (styled.strokes = before.strokes ∧ styled.strokeWeight = before.strokeWeight ↔
            ¬b.IsNegative) := by
  intro r b w border
  have ht : w.kind ≠ .text := by decide
  have entries : ∀ c ∈ w.styling.colors, c.property ∉ Widget.strokeProperties := by decide
  obtain ⟨n, after, h⟩ := (w.returns_lower_iff {}).2 (by decide +kernel)
  exact ⟨ht, rfl, entries, n, after, h, r.strokes_of_lowered_iff ht rfl entries h⟩

/-- A red border of the width -1 is not lowered, but it is applied to the lowered container, and its
styling gives it a stroke of that weight. -/
theorem strokes_of_negative_border :
    let r : Resolver := {}
    let b : Border := { width := some (.int (-1)), color := some "#FF0000" }
    let w : Widget := { id := "c", kind := .container,
                        styling := { givenBorders := some (some b) } }
    let red : Paint := .solid (.ofChannels 255 0 0)
    ∃ n after, w.lower.Yields {} n after ∧
      n.properties.strokes = some [] ∧ n.properties.strokeWeight = none ∧
      (∃ result m, Gives (applyBorders b) n result m ∧ result.applied = ["border"]) ∧
      (r.applyStyles n w.styling).1.properties.strokes = some [red] ∧
      (r.applyStyles n w.styling).1.properties.strokeWeight = b.width := by
  intro r b w red
  have ht : w.kind ≠ .text := by decide
  obtain ⟨n, after, h⟩ := (w.returns_lower_iff {}).2 (by decide +kernel)
  obtain ⟨-, strokes, weight⟩ := (Widget.yields_painted ht h).1
  have gives : Gives (applyBorders b) n _ _ :=
    (for_applyBorders b).gives (rejection_bordersAccount b)
  have drawn : b.Drawn _ _ := Widget.drawn_borderStrokes (rfl : w.styling.borders = some b)
  obtain ⟨styledStrokes, styledWeight⟩ := r.strokes_applyStyles_of_drawn (s := w.styling)
    (Widget.kind_ne_text_of_yields ht h) rfl (by decide) strokes drawn
  rw [weight] at styledWeight
  refine ⟨n, after, h, strokes.trans ?_, weight.trans ?_, ⟨_, _, gives, ?_⟩,
    styledStrokes.trans ?_, styledWeight.trans ?_⟩ <;> decide +kernel

end Resolver

end DesignTree
