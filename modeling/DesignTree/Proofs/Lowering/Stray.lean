import DesignTree.Proofs.Lowering.Range
import DesignTree.Proofs.Run.Record
import DesignTree.Proofs.Widget.Check

/-! # Stray children

A child is stray if it asks for a place and its parent is no stack. A check reports such children,
and lowering records a warning for each of them, a child after those below it. The two count
differently what asks for a place: a position among the properties counts for lowering alone. They
name the same children exactly if no child of a widget that is no stack asks in that way alone
(`strays_reported_iff`).

Besides, lowering records only problems of style (`notes_ownProperties`), so that its warnings about
widgets are those about stray children (`filter_noted_perm`).
-/

namespace DesignTree

/-- Of two tests the stronger one picks the same from a list as the weaker one, in number, exactly
if the weaker one implies it there. -/
theorem perm_map_filter_iff {α β : Type} {p q : α → Bool} (hpq : ∀ a, p a → q a) (f : α → β)
    (xs : List α) :
    ((xs.filter p).map f).Perm ((xs.filter q).map f) ↔ ∀ a ∈ xs, q a → p a := by
  constructor
  · intro h a ha hq
    have sub : (xs.filter p).Sublist (xs.filter q) := List.monotone_filter_right xs hpq
    have len := h.length_eq
    rw [List.length_map, List.length_map] at len
    have same := sub.eq_of_length len
    have mem : a ∈ xs.filter p := by
      rw [same]
      exact List.mem_filter.2 ⟨ha, hq⟩
    exact (List.mem_filter.1 mem).2
  · intro h
    have same : xs.filter p = xs.filter q :=
      List.filter_congr fun a ha => Bool.eq_iff_iff.2 ⟨hpq a, h a ha⟩
    rw [same]

/-- The widgets about which there are records, rather than about their styles. -/
def Diagnostics.ofWidgets (ds : Diagnostics) : List (Option Text) :=
  (ds.filter fun d => d.concern = .widget).map (·.nodeId)

namespace Widget

open InRun

/-! ## Records of style -/

/-- A record about a style. -/
def OfStyle (d : Diagnostic) : Prop := d.concern = .style

/-! What holds of all warnings about styles holds of what is recorded about a widget's looks. -/

section

variable {p : Diagnostic → Prop} (hp : ∀ message node, p (.warning .style message node))
include hp

theorem forall_readColor (id : Text) (themed : Bool) (value : Text) :
    ∀ d ∈ (readColor id themed value).2, p d := by
  unfold readColor
  split
  · simp
  · split
    · simp
    · intro d hd
      cases List.mem_singleton.1 hd
      exact hp _ _

theorem forall_entryPaints (id : Text) (cs : List ColorEntry) :
    ∀ d ∈ (entryPaints id cs).2, p d := by
  induction cs with
  | nil => simp [entryPaints]
  | cons c rest ih =>
    have notes : (entryPaints id (c :: rest)).2 =
        (if isFillEntry c then (readColor id c.isThemeReference c.value).2 else []) ++
          (entryPaints id rest).2 := by
      by_cases hf : isFillEntry c <;> simp [entryPaints, hf]
    rw [notes]
    intro d hd
    rcases List.mem_append.1 hd with hd | hd
    · split at hd
      · exact forall_readColor hp _ _ _ d hd
      · simp at hd
    · exact ih d hd

theorem forall_gradientPaint (id : Text) (g : Gradient) :
    ∀ d ∈ (gradientPaint id g).2, p d := by
  have read : (gradientPaint id g).2 = (g.colors.map (readColor id false)).flatMap (·.2) := by
    unfold gradientPaint
    simp only
    split <;> rfl
  rw [read]
  intro d hd
  obtain ⟨r, hr, hd⟩ := List.mem_flatMap.1 hd
  obtain ⟨value, -, rfl⟩ := List.mem_map.1 hr
  exact forall_readColor hp _ _ _ d hd

theorem recordsOnly_decorationPaints (id : Text) (d : Decoration) :
    RecordsOnly p (decorationPaints id d) := by
  unfold decorationPaints
  refine (RecordsOnly.record ?_).bind fun _ => ?_
  · split
    · split
      · simp
      · exact forall_readColor hp _ _ _
    · simp
  · cases d.gradient with
    | none => exact .pure _
    | some g =>
      simp only
      split
      · exact .pure _
      · refine (RecordsOnly.record (forall_gradientPaint hp id g)).bind fun _ => ?_
        exact (RecordsOnly.lift _).bind fun _ => .pure _

theorem recordsOnly_fills (w : Widget) : RecordsOnly p w.fills := by
  unfold fills
  refine (RecordsOnly.record (forall_entryPaints hp _ _)).bind fun _ => ?_
  split
  · exact .pure _
  · cases w.properties.decoration with
    | none => exact .pure _
    | some d => exact (recordsOnly_decorationPaints hp w.id d).bind fun _ => .pure _

theorem recordsOnly_strokes (w : Widget) : RecordsOnly p w.strokes := by
  unfold strokes
  cases w.styling.borders with
  | none => exact .pure _
  | some b =>
    simp only
    split
    · exact .pure _
    · exact (RecordsOnly.record (forall_readColor hp _ _ _)).bind fun _ => .pure _

theorem forall_textFill (w : Widget) : ∀ d ∈ w.textFill.2, p d := by
  unfold textFill
  split
  · exact forall_readColor hp _ _ _
  · simp

theorem forall_ownProperties (w : Widget) : ∀ d ∈ w.ownProperties.notes, p d := by
  have rectangle : RecordsOnly p w.rectangleProperties :=
    (RecordsOnly.lift _).bind fun _ => (recordsOnly_fills hp w).bind fun _ =>
      (recordsOnly_strokes hp w).bind fun _ => .pure _
  refine RecordsOnly.notes ?_
  unfold ownProperties
  split
  · exact (RecordsOnly.lift _).bind fun _ => (RecordsOnly.record (forall_textFill hp w)).bind
      fun _ => .pure _
  · exact rectangle
  · exact rectangle.bind fun _ => .pure _

end

/-- What is recorded about the looks of a single widget is about its style. -/
theorem notes_ownProperties (w : Widget) : ∀ d ∈ w.ownProperties.notes, OfStyle d :=
  forall_ownProperties (p := OfStyle) (fun _ _ => rfl) w

/-- All that lowering records are warnings. -/
theorem isError_of_mem_strayNotes {parent child : Widget} :
    ∀ d ∈ strayNotes parent child, d.isError = false := by
  intro d hd
  unfold strayNotes at hd
  split at hd
  · rw [List.mem_singleton.1 hd]
    rfl
  · exact absurd hd List.not_mem_nil

theorem isError_of_mem_noted (w : Widget) : ∀ d ∈ w.noted, d.isError = false := by
  induction w using Widget.forest_induct
    (q := fun cs => ∀ parent, ∀ d ∈ notedAll parent cs, d.isError = false) with
  | step w children =>
    rw [noted_eq, List.forall_mem_append]
    refine ⟨forall_ownProperties (p := fun d => d.isError = false) (fun _ _ => rfl) w, ?_⟩
    split
    · exact fun d hd => absurd hd List.not_mem_nil
    · exact children w
  | nil parent d hd => exact absurd hd List.not_mem_nil
  | cons c rest first others parent d hd =>
    rw [notedAll, List.mem_append, List.mem_append] at hd
    rcases hd with (hd | hd) | hd
    · exact first d hd
    · exact isError_of_mem_strayNotes d hd
    · exact others parent d hd

/-! ## What a tree records -/

theorem records_placeChild (parent : Widget) (index : Nat) (child : Widget) (node : Node) :
    (placeChild parent index child node).Records (strayNotes parent child) := by
  have steps := (records_lift (placedProperties parent index child node.properties)).bind fun p =>
    (records_record (strayNotes parent child)).bind fun _ =>
      records_pure ({ node with properties := p } : Node)
  rw [List.nil_append, List.append_nil] at steps
  rw [placeChild_eq]
  exact steps

/-- Lowering a tree records what there is to record about it, as far as it comes. -/
theorem records_lower (w : Widget) : w.lower.Records w.noted := by
  induction w using Widget.forest_induct
    (q := fun cs => ∀ parent index,
      (lowerChildren parent index cs).Records (notedAll parent cs)) with
  | step w children =>
    have inner : w.lowerInner.Records (if w.isLeaf then [] else notedAll w w.children) := by
      unfold lowerInner
      split
      · exact records_pure _
      · exact children w 0
    have steps := w.plain_ownProperties.records.bind fun p => (records_nextId nodePrefix).bind
      fun id => inner.bind fun ns => records_lift (w.assemble id p ns)
    rw [List.nil_append, List.append_nil] at steps
    rw [lower_eq_assemble, noted_eq]
    exact steps
  | nil => exact records_pure _
  | cons child rest first others parent index =>
    have steps := first.bind fun node => (records_placeChild parent index child node).bind
      fun placed => (others parent (index + 1)).bind fun ns => records_pure (placed :: ns)
    rw [List.append_nil, ← List.append_assoc] at steps
    rw [lowerChildren, notedAll]
    exact steps

/-- Whether a child asks in any way for a place that its parent does not give. -/
def asksAstray (parent child : Widget) : Bool := !parent.isStack && child.asksForPlace

theorem filter_strayNotes (w c : Widget) :
    ((strayNotes w c).filter fun d => d.concern = .widget) =
      ([(w, c)].filter fun e => asksAstray e.1 e.2).map fun e => strayWarning e.1 e.2 := by
  change ((if asksAstray w c then [strayWarning w c] else []).filter _) = _
  cases hs : asksAstray w c with
  | false => simp [hs]
  | true => simp [hs, strayWarning, Diagnostic.warning]

theorem filter_notedAll_perm (w : Widget) {cs : List Widget}
    (each : ∀ c ∈ cs, (c.noted.filter fun d => d.concern = .widget).Perm
      ((c.edges.filter fun e => asksAstray e.1 e.2).map fun e => strayWarning e.1 e.2)) :
    ((notedAll w cs).filter fun d => d.concern = .widget).Perm
      (((cs.flatMap fun c => (w, c) :: c.edges).filter fun e => asksAstray e.1 e.2).map
        fun e => strayWarning e.1 e.2) := by
  induction cs with
  | nil => exact .refl _
  | cons c rest ih =>
    have first := each c List.mem_cons_self
    have others := ih fun d hd => each d (List.mem_cons_of_mem c hd)
    rw [notedAll, List.flatMap_cons, List.filter_append, List.filter_append, List.filter_append,
      List.map_append, ← List.singleton_append, List.filter_append, List.map_append,
      filter_strayNotes]
    exact ((first.append_right _).trans List.perm_append_comm).append others

/-- The warnings about widgets are those about stray children, in an order of their own. -/
theorem filter_noted_perm {w : Widget} (h : ∀ v ∈ w.walk, v.isLeaf → v.children = []) :
    (w.noted.filter fun d => d.concern = .widget).Perm
      ((w.edges.filter fun e => asksAstray e.1 e.2).map fun e => strayWarning e.1 e.2) := by
  induction w using Widget.induct with
  | step w ih =>
    rw [forall_mem_walk] at h
    have own : (w.ownProperties.notes.filter fun d => d.concern = .widget) = [] := by
      rw [List.filter_eq_nil_iff]
      intro d hd
      rw [show d.concern = .style from w.notes_ownProperties d hd]
      decide
    have inner : (if w.isLeaf then [] else notedAll w w.children) = notedAll w w.children := by
      split
      · next hl => rw [h.1 hl]; rfl
      · rfl
    rw [noted_eq, List.filter_append, own, inner, List.nil_append, edges_eq]
    exact filter_notedAll_perm w fun c hc => ih c hc (h.2 c hc)

/-! ## What is reported and what is recorded -/

/-- **Checking and lowering on stray children.** In a tree without children under leaves, the
warnings that lowering records about widgets are those about the children that ask for a place
outside of a stack; a lowering that ends in a fault records the first of them. One that returns
names the widgets that a check reports as positioned outside of a stack, exactly if no child outside
of a stack asks for its place by a position among its properties alone. -/
theorem strays_reported_iff (w : Widget) (run : Run)
    (h : ∀ v ∈ w.walk, v.isLeaf → v.children = []) :
    ∃ found warnings, (runFrom run w.lower).2.diagnostics = run.diagnostics ++ found ∧
      warnings.Perm ((w.edges.filter fun e => !e.1.isStack && e.2.asksForPlace).map fun e =>
        strayWarning e.1 e.2) ∧
      (found.filter fun d => d.concern = .widget) <+: warnings ∧
      (w.lower.Returns run → (found.filter fun d => d.concern = .widget) = warnings ∧
        (((w.reported .positionedOutsideStack).map some).Perm found.ofWidgets ↔
          ∀ e ∈ w.edges, e.1.isStack = false → e.2.properties.positioned.isSome →
            e.2.isPlaced)) := by
  obtain ⟨found, recorded, start, whole⟩ := w.records_lower run
  have perm := filter_noted_perm h
  refine ⟨found, w.noted.filter fun d => d.concern = .widget, recorded, perm, start.filter _, ?_⟩
  intro returns
  rw [whole returns]
  refine ⟨rfl, ?_⟩
  -- Both name the children of edges: those that are stray, and those that ask astray in any way.
  have reported : (w.reported .positionedOutsideStack).map some =
      (w.edges.filter fun e => isStray e.1 e.2).map fun e => some e.2.id := by
    have children := congrArg (List.map fun v => some v.id) (map_filter_edges isStray w)
    rw [List.map_map, List.map_map] at children
    rw [brokenIf_positionedOutsideStack.reported_eq, List.map_map]
    exact children.symm
  have named : w.noted.ofWidgets.Perm
      ((w.edges.filter fun e => asksAstray e.1 e.2).map fun e => some e.2.id) := by
    have ids := perm.map (·.nodeId)
    rw [List.map_map] at ids
    exact ids
  have stronger (e : Widget × Widget) (he : isStray e.1 e.2 = true) :
      asksAstray e.1 e.2 = true := by
    simp_all [isStray, asksAstray, asksForPlace]
  rw [reported, named.congr_right, perm_map_filter_iff stronger]
  refine forall_congr' fun e => forall_congr' fun _ => ?_
  simp only [isStray, asksAstray, asksForPlace, Bool.and_eq_true, Bool.or_eq_true,
    Bool.not_eq_true']
  tauto

theorem strays_reported_iff_row :
    let chip : Widget := { id := "chip", kind := .container, position := some { left := some 4 } }
    let badge : Widget := { id := "badge", kind := .container,
                            properties := { positioned := some { top := some 2 } } }
    let stack : Widget := { id := "stack", kind := .stack, children := [badge] }
    let row : Widget := { id := "row", kind := .row, children := [chip, stack] }
    (∀ v ∈ row.walk, v.isLeaf → v.children = []) ∧
    ∃ found warnings : Diagnostics,
      (runFrom {} row.lower).2.diagnostics = [] ++ found ∧
      warnings.Perm ((row.edges.filter fun e => !e.1.isStack && e.2.asksForPlace).map fun e =>
        strayWarning e.1 e.2) ∧
      (found.filter fun d => d.concern = .widget) <+: warnings ∧
      (row.lower.Returns {} → (found.filter fun d => d.concern = .widget) = warnings ∧
        (((row.reported .positionedOutsideStack).map some).Perm found.ofWidgets ↔
          ∀ e ∈ row.edges, e.1.isStack = false → e.2.properties.positioned.isSome →
            e.2.isPlaced)) := by
  intro chip badge stack row
  have leaves : ∀ v ∈ row.walk, v.isLeaf → v.children = [] := by decide
  exact ⟨leaves, strays_reported_iff row {} leaves⟩

/-- A child with a position among its properties is placed by lowering, with a warning where its
parent is no stack, and no check reports it. -/
theorem positioned_child_unreported :
    let child : Widget := { id := "p", kind := .container,
                            properties := { positioned := some { top := some 7 } } }
    let column : Widget := { id := "col", kind := .column, children := [child] }
    (∀ v ∈ column.walk, v.isLeaf → v.children = []) ∧ column.check = [] ∧
      column.lower.Returns {} ∧
      (runFrom {} column.lower).2.diagnostics = [strayWarning column child] := by
  intro child column
  refine ⟨by decide, by decide +kernel, ?_, by decide +kernel⟩
  exact (column.returns_lower_iff {}).2 (by decide +kernel)

end Widget

end DesignTree
