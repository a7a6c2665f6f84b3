import DesignTree.Proofs.Lowering.Place
import DesignTree.Proofs.Run.Append

/-! # The paints of lowered nodes

A node is painted with what its widget has by itself; its layout and its children make no difference
(`Widget.paints_of_assemble`, `Widget.yields_painted`). The colour entries of a widget fill its node
one by one, each with its own paint and its own record (`Widget.paints_entryPaints`,
`Widget.notes_entryPaints`), and the records about them come before all else that is recorded about
the widget.
-/

namespace DesignTree

/-- The entries of a styling for fills. -/
def Styling.fillEntries (s : Styling) : List ColorEntry :=
  s.colors.filter fun c => Widget.fillProperties.contains c.property

namespace Widget

open InRun

/-! ## Colour entries -/

/-- The record of a malformed colour. -/
def malformedWarning (id value : Text) : Diagnostic :=
  .warning .style (DesignError.invalidColor value).userMessage id

/-- What is recorded about a colour entry of a frame or a rectangle. -/
def entryNotes (id : Text) (c : ColorEntry) : Diagnostics := (entryPaints id [c]).2

theorem readColor_eq (id : Text) (themed : Bool) (value : Text) :
    readColor id themed value = (Rgb.ofHex? value,
      if (Rgb.ofHex? value).isNone && !themed then [malformedWarning id value] else []) := by
  unfold readColor Rgb.ofHex
  cases Rgb.ofHex? value with
  | none => cases themed <;> rfl
  | some color => rfl

theorem entryNotes_eq (id : Text) (c : ColorEntry) :
    entryNotes id c =
      if isFillEntry c && (Rgb.ofHex? c.value).isNone && !c.isThemeReference then
        [malformedWarning id c.value]
      else [] := by
  unfold entryNotes entryPaints entryPaints
  rw [readColor_eq]
  cases isFillEntry c with
  | false => rfl
  | true => exact List.append_nil _

/-- The fills of several entries: the colours of those that fill with something that can be seen and
that are colours. -/
theorem paints_entryPaints (id : Text) (cs : List ColorEntry) :
    (entryPaints id cs).1 =
      (cs.filter isFillEntry).filterMap fun c => (Rgb.ofHex? c.value).map fun color =>
        .solid color := by
  induction cs with
  | nil => rfl
  | cons c rest ih =>
    rw [entryPaints, readColor_eq, List.filter_cons]
    cases isFillEntry c with
    | false => exact ih
    | true =>
      simp only [if_true, List.filterMap_cons, ih]
      cases Rgb.ofHex? c.value <;> rfl

/-- What is recorded about several entries is what is recorded about each of them. -/
theorem notes_entryPaints (id : Text) (cs : List ColorEntry) :
    (entryPaints id cs).2 = cs.flatMap (entryNotes id) := by
  induction cs with
  | nil => rfl
  | cons c rest ih =>
    rw [List.flatMap_cons, ← ih, entryNotes_eq, entryPaints, readColor_eq]
    cases isFillEntry c <;> rfl

/-! ## Own paints -/

/-- The strokes that the border of a widget gives. -/
def borderStrokes (w : Widget) : List Paint :=
  w.styling.borders.elim [] fun b =>
    if isDrawn b then (plainPaints w.id (b.color.getD "")).1 else []

theorem yields_fills {w : Widget} {run after : Run} {ps : List Paint}
    (h : w.fills.Yields run ps after) :
    run.diagnostics ++ w.styling.colors.flatMap (entryNotes w.id) <+: after.diagnostics ∧
      ((entryPaints w.id w.styling.colors).1 ≠ [] →
        ps = (entryPaints w.id w.styling.colors).1) := by
  unfold fills at h
  simp only [yields_bind, yields_record] at h
  obtain ⟨_, _, rfl, h⟩ := h
  rw [← notes_entryPaints, ← Run.diagnostics_noting]
  split at h
  · obtain ⟨rfl, rfl⟩ := yields_pure.1 h
    exact ⟨List.prefix_refl _, fun _ => rfl⟩
  · next unpainted =>
    have none : (entryPaints w.id w.styling.colors).1 = [] := by simpa using unpainted
    refine ⟨?_, fun painted => absurd none painted⟩
    split at h
    · next d _ =>
      have plain := (plain_decorationPaints w.id d).bind fun paints =>
        plain_pure (if paints.isEmpty then [unseen] else paints)
      exact plain.appends.extends h
    · exact (plain_pure _).appends.extends h

theorem yields_strokes {w : Widget} {run after : Run} {ps : List Paint}
    (h : w.strokes.Yields run ps after) : ps = w.borderStrokes := by
  unfold strokes at h
  unfold borderStrokes
  cases hb : w.styling.borders with
  | none =>
    rw [hb] at h
    exact (yields_pure.1 h).1
  | some b =>
    rw [hb] at h
    rw [Option.elim_some]
    cases hd : isDrawn b with
    | false =>
      simp only [hd] at h
      exact (yields_pure.1 h).1
    | true =>
      simp only [hd] at h
      obtain ⟨_, _, -, h⟩ := yields_bind.1 h
      exact (yields_pure.1 h).1

/-- What a frame or a rectangle is painted with: its fills, which are those of the colour entries if
there are any, and the strokes of its border. -/
structure IsPainted (w : Widget) (p : NodePaints) : Prop where
  fills : ∃ fills, p.fills = some fills ∧ ((entryPaints w.id w.styling.colors).1 ≠ [] →
    fills = (entryPaints w.id w.styling.colors).1)
  strokes : p.strokes = some w.borderStrokes
  strokeWeight : p.strokeWeight = w.strokeWeight w.borderStrokes

theorem yields_rectangleProperties {w : Widget} {run after : Run} {p : NodeProperties}
    (h : w.rectangleProperties.Yields run p after) :
    w.IsPainted p.toNodePaints ∧
      run.diagnostics ++ w.styling.colors.flatMap (entryNotes w.id) <+: after.diagnostics := by
  unfold rectangleProperties at h
  simp only [yields_bind, yields_lift, yields_pure] at h
  obtain ⟨basic, _, ⟨-, rfl⟩, fills, _, filled, strokes, _, stroked, rfl, rfl⟩ := h
  obtain ⟨notes, entries⟩ := yields_fills filled
  cases yields_strokes stroked
  exact ⟨⟨⟨fills, rfl, entries⟩, rfl, rfl⟩,
    notes.trans (w.plain_strokes.appends.extends stroked)⟩

theorem nodeKind_eq_text_iff {k : WidgetKind} : k.nodeKind = .text ↔ k = .text := by
  cases k <;> decide

/-- The node of a widget that is no text has the paints of a rectangle. -/
theorem exists_rectangleProperties {w : Widget} {run after : Run} {p : NodeProperties}
    (ht : w.kind ≠ .text) (h : w.ownProperties.Yields run p after) :
    ∃ q, w.rectangleProperties.Yields run q after ∧ p.toNodePaints = q.toNodePaints := by
  unfold ownProperties at h
  split at h
  · next hk => exact absurd (nodeKind_eq_text_iff.1 hk) ht
  · exact ⟨p, h, rfl⟩
  · unfold frameProperties at h
    simp only [yields_bind, yields_pure] at h
    obtain ⟨q, _, h, rfl, rfl⟩ := h
    exact ⟨q, h, rfl⟩

/-- A widget that is no text paints its node, and records first what there is about its entries. -/
theorem yields_ownProperties {w : Widget} {run after : Run} {p : NodeProperties}
    (ht : w.kind ≠ .text) (h : w.ownProperties.Yields run p after) :
    w.IsPainted p.toNodePaints ∧
      run.diagnostics ++ w.styling.colors.flatMap (entryNotes w.id) <+: after.diagnostics := by
  obtain ⟨q, hq, same⟩ := exists_rectangleProperties ht h
  rw [same]
  exact yields_rectangleProperties hq

/-- A text has one fill. -/
theorem fills_of_ownProperties_text {w : Widget} {p : NodeProperties} (ht : w.kind = .text)
    (hp : w.ownProperties.outcome = .ok p) : p.fills = some [w.textFill.1] := by
  have own : w.ownProperties.Yields {} p _ := w.plain_ownProperties.yields_iff.2 ⟨hp, rfl⟩
  unfold ownProperties at own
  rw [ht] at own
  unfold textProperties at own
  simp only [WidgetKind.nodeKind, yields_bind, yields_lift, yields_record, yields_pure] at own
  obtain ⟨_, _, -, _, _, -, rfl, -⟩ := own
  rfl

/-! ## Paints of nodes -/

theorem kind_ne_text_of_yields {w : Widget} {run after : Run} {n : Node} (ht : w.kind ≠ .text)
    (h : w.lower.Yields run n after) : n.kind ≠ .text := by
  obtain ⟨_, _, -, -, hn⟩ := yields_lower.1 h
  rw [(isNodeOf_of_assemble hn).kind]
  exact mt nodeKind_eq_text_iff.1 ht

/-- The node that is put together has the paints of its own properties. -/
theorem paints_of_assemble {w : Widget} {id : Text} {p : NodeProperties} {children : List Node}
    {n : Node} (h : w.assemble id p children = .ok n) :
    n.properties.toNodePaints = p.toNodePaints := by
  obtain ⟨⟨description, hn⟩, -⟩ := parts_of_assemble h
  obtain ⟨mode, wrap, spacing, between, ha⟩ := w.arranged_eq p
  rw [hn, ha, bounded]
  split
  · rfl
  · cases w.layout <;> rfl

/-- A text is lowered to a node with one fill. -/
theorem fills_of_yields_text {w : Widget} {run after : Run} {n : Node} (ht : w.kind = .text)
    (h : w.lower.Yields run n after) : n.properties.fills = some [w.textFill.1] := by
  obtain ⟨p, children, hp, -, hn⟩ := yields_lower.1 h
  have own := fills_of_ownProperties_text ht hp
  have painted := congrArg NodePaints.fills (paints_of_assemble hn)
  exact painted.trans own

/-- A widget that is no text is lowered to a node with its own paints. What is recorded about its
colour entries comes first. -/
theorem yields_painted {w : Widget} {run after : Run} {n : Node} (ht : w.kind ≠ .text)
    (h : w.lower.Yields run n after) :
    w.IsPainted n.properties.toNodePaints ∧
      run.diagnostics ++ w.styling.colors.flatMap (entryNotes w.id) <+: after.diagnostics := by
  have whole : after.diagnostics = run.diagnostics ++ w.noted := by
    rw [(w.mirrors_of_yields h).after, Run.diagnostics_advanced]
  obtain ⟨p, children, hp, -, hn⟩ := yields_lower.1 h
  have own : w.ownProperties.Yields run p _ := w.plain_ownProperties.yields_iff.2 ⟨hp, rfl⟩
  obtain ⟨painted, notes⟩ := yields_ownProperties ht own
  rw [paints_of_assemble hn, whole, noted_eq, ← List.append_assoc]
  exact ⟨painted, notes.trans (List.prefix_append _ _)⟩

end Widget

end DesignTree
