import DesignTree.Proofs.Lowering.Shape
import DesignTree.Proofs.Number.Basic
import DesignTree.Proofs.Run.Return

/-! # When lowering returns

Lowering computes with few of a widget's numbers: its size, the places of a gradient that it is
painted with, the paddings and the gap of its automatic layout, and the place of a child that keeps
its distance to the far side. `returns_lower_iff` says that lowering returns exactly if these have
doubles near them, for the widgets that become nodes; `lowerable_of_numbers` that this is so where
all numbers of the tree have.
-/

namespace DesignTree

theorem length_of_mapM {α β : Type} {f : α → Option β} {xs : List α} {ys : List β}
    (h : xs.mapM f = some ys) : ys.length = xs.length := by
  induction xs generalizing ys with
  | nil =>
    cases h
    rfl
  | cons x rest ih =>
    rw [List.mapM_cons] at h
    simp only [Option.bind_eq_bind, Option.bind_eq_some_iff, Option.pure_def,
      Option.some.injEq] at h
    obtain ⟨y, -, zs, hz, rfl⟩ := h
    rw [List.length_cons, List.length_cons, ih hz]

theorem isSome_mapM {α β : Type} (f : α → Option β) (xs : List α) :
    (xs.mapM f).isSome = xs.all fun x => (f x).isSome := by
  induction xs with
  | nil => rfl
  | cons x rest ih =>
    rw [List.mapM_cons, List.all_cons, ← ih]
    cases f x <;> cases rest.mapM f <;> rfl

theorem map_fst_zip_take {α β : Type} (xs : List α) (ys : List β) :
    (xs.zip ys).map (·.1) = xs.take ys.length := by
  induction xs generalizing ys with
  | nil => simp
  | cons x rest ih =>
    cases ys with
    | nil => rfl
    | cons y ys => exact congrArg (x :: ·) (ih ys)

theorem all_zip_fst {α β : Type} (p : α → Bool) (xs : List α) (ys : List β) :
    ((xs.zip ys).all fun e => p e.1) = (xs.take ys.length).all p := by
  rw [← map_fst_zip_take, List.all_map]
  rfl

theorem all_toList {α : Type} (p : α → Bool) (o : Option α) : o.toList.all p = o.all p := by
  cases o <;> simp

namespace Widget

open InRun

/-! ## Own properties -/

/-- The places of the gradient that a frame or a rectangle is painted with: one whose colours can
all be read, where no colour of the styling paints. -/
def paintedPlaces (w : Widget) : List Number :=
  match w.properties.decoration.bind (·.gradient) with
  | some g =>
    if (entryPaints w.id w.styling.colors).1.isEmpty && g.colors.all fun c => (Rgb.ofHex c).isOk
    then (gradientPlaces g).take g.colors.length
    else []
  | none => []

/-- The numbers that become doubles among a widget's own properties. -/
def ownLengths (w : Widget) : List Number :=
  w.properties.width.toList ++ w.properties.height.toList ++
    if w.kind = .text then [] else w.paintedPlaces

theorem isOk_gradientStop (place : Number) (color : Rgb) :
    (gradientStop place color).isOk = place.fitsDouble := by
  unfold gradientStop
  cases place.fitsDouble <;> rfl

theorem isSome_readColor (id : Text) (themed : Bool) (value : Text) :
    (readColor id themed value).1.isSome = (Rgb.ofHex value).isOk := by
  unfold readColor
  cases Rgb.ofHex value <;> rfl

theorem isOk_gradientPaint (id : Text) (g : Gradient) :
    (gradientPaint id g).1.isOk = (!(g.colors.all fun c => (Rgb.ofHex c).isOk) ||
      ((gradientPlaces g).take g.colors.length).all Number.fitsDouble) := by
  have hread : ((g.colors.map (readColor id false)).mapM Prod.fst).isSome =
      g.colors.all fun c => (Rgb.ofHex c).isOk := by
    rw [isSome_mapM, List.all_map]
    simp only [Function.comp_def, isSome_readColor]
  unfold gradientPaint
  simp only
  rw [← hread]
  split
  · next h => rw [h]; rfl
  · next colors h =>
    have hl : colors.length = g.colors.length := by rw [length_of_mapM h, List.length_map]
    rw [h, isOk_map, isOk_mapM, ← hl, ← all_zip_fst]
    simp only [isOk_gradientStop, Option.isSome_some, Bool.not_true, Bool.false_or]

theorem returns_decorationPaints (id : Text) (d : Decoration) (run : Run) :
    (decorationPaints id d).Returns run ↔
      d.gradient.all (fun g => (gradientPaint id g).1.isOk) = true := by
  unfold decorationPaints
  rw [returns_bind_of (p := d.gradient.all (fun g => (gradientPaint id g).1.isOk) = true)]
  · simp
  intro _ mid _
  cases hg : d.gradient with
  | none => simp
  | some g =>
    simp only [Option.all_some]
    split
    · next he =>
      -- A gradient without colours is not painted, and nothing is wrong with its places.
      rw [isOk_gradientPaint, List.isEmpty_iff.1 he]
      simp
    · rw [returns_bind_of (p := (gradientPaint id g).1.isOk = true)]
      · simp
      intro _ _ _
      rw [returns_bind_of (p := True)]
      · simp
      · simp

theorem returns_fills (w : Widget) (run : Run) :
    w.fills.Returns run ↔ w.paintedPlaces.all Number.fitsDouble = true := by
  unfold fills
  rw [returns_bind_of (p := w.paintedPlaces.all Number.fitsDouble = true)]
  · simp
  intro _ mid _
  unfold paintedPlaces
  cases (entryPaints w.id w.styling.colors).1.isEmpty with
  | false => cases w.properties.decoration.bind (·.gradient) <;> simp
  | true =>
    cases w.properties.decoration with
    | none => simp
    | some d =>
      simp only [Bool.not_true, Bool.false_eq_true, if_false, Bool.true_and, Option.bind_some]
      rw [returns_bind_of (p := True) (by simp), and_true, returns_decorationPaints]
      cases d.gradient with
      | none => simp
      | some g =>
        simp only [Option.all_some, isOk_gradientPaint]
        by_cases hr : (g.colors.all fun c => (Rgb.ofHex c).isOk) = true
        · rw [if_pos hr, hr, Bool.not_true, Bool.false_or]
        · rw [if_neg hr, Bool.eq_false_iff.2 hr]
          exact iff_of_true rfl rfl

theorem returns_strokes (w : Widget) (run : Run) : w.strokes.Returns run := by
  unfold strokes
  cases w.styling.borders with
  | none => exact returns_pure _
  | some b =>
    simp only
    split
    · exact returns_pure _
    · rw [returns_bind_of (p := True)] <;> simp

theorem isOk_basicProperties (w : Widget) :
    w.basicProperties.isOk =
      (w.properties.width.all Number.fitsDouble && w.properties.height.all Number.fitsDouble) := by
  simp [basicProperties]

theorem returns_rectangleProperties (w : Widget) (run : Run) :
    w.rectangleProperties.Returns run ↔
      (w.properties.width.toList ++ w.properties.height.toList ++ w.paintedPlaces).all
        Number.fitsDouble = true := by
  unfold rectangleProperties
  rw [returns_bind_of (p := w.paintedPlaces.all Number.fitsDouble = true)]
  · rw [returns_lift, isOk_basicProperties, List.all_append, List.all_append, all_toList,
      all_toList]
    exact (Bool.and_eq_true _ _).symm.to_iff
  intro _ _ _
  rw [returns_bind_of (p := True), returns_fills, and_true]
  intro _ mid _
  rw [returns_bind_of (p := True) (by simp), and_true, iff_true]
  exact w.returns_strokes mid

/-- A widget's own properties can be made exactly if their numbers have doubles near them. -/
theorem returns_ownProperties (w : Widget) (run : Run) :
    w.ownProperties.Returns run ↔ w.ownLengths.all Number.fitsDouble = true := by
  unfold ownProperties ownLengths
  split
  · next hk =>
    have ht : w.kind = .text := by
      cases hw : w.kind <;> simp_all [WidgetKind.nodeKind]
    unfold textProperties
    rw [returns_bind_of (p := True), returns_lift, isOk_basicProperties, and_true]
    · rw [if_pos ht, List.append_nil, List.all_append, all_toList, all_toList]
    · intro _ _ _
      rw [returns_bind_of (p := True)] <;> simp
  · next hk =>
    have ht : w.kind ≠ .text := by
      intro ht
      rw [ht] at hk
      cases hk
    rw [if_neg ht, returns_rectangleProperties]
  · next hn _ =>
    have ht : w.kind ≠ .text := by
      intro ht
      rw [ht] at hn
      exact hn rfl
    unfold frameProperties
    rw [if_neg ht, returns_bind_of (p := True) (by simp), and_true, returns_rectangleProperties]

/-! ## Layouts and places -/

end Widget

/-- The numbers of a layout that become doubles. -/
def Layout.lengths (l : Layout) : List Number :=
  let padding := l.padding.getD {}
  [padding.left, padding.right, padding.top, padding.bottom, l.gap?.getD 0]

theorem Layout.isOk_toAutoLayout (l : Layout) :
    l.toAutoLayout.isOk = l.lengths.all Number.fitsDouble := by
  simp [toAutoLayout, lengths, Bool.and_assoc]

/-- Whether there is a start for what lies `far` from the far side. -/
def Position.starts (near far size : Option Number) : Bool :=
  match near, far, size with
  | none, some far, some size => (far.neg.sub? size).isSome
  | _, _, _ => true

/-- Whether a node can be placed at a position. -/
def Position.fits (p : Position) : Bool :=
  starts p.left p.right p.width && starts p.top p.bottom p.height

namespace NodeProperties

theorem isOk_fromFarSide (far size : Number) :
    (fromFarSide far size).isOk = (far.neg.sub? size).isSome := by
  unfold fromFarSide
  cases far.neg.sub? size <;> rfl

theorem isOk_place (p : NodeProperties) (position : Position) :
    (p.place position).isOk = position.fits := by
  have horizontal (p : NodeProperties) : (p.placeHorizontally position).isOk =
      Position.starts position.left position.right position.width := by
    unfold placeHorizontally Position.starts
    cases position.left <;> cases position.right <;> cases position.width <;>
      simp [isOk_fromFarSide]
  have vertical (p : NodeProperties) : (p.placeVertically position).isOk =
      Position.starts position.top position.bottom position.height := by
    unfold placeVertically Position.starts
    cases position.top <;> cases position.bottom <;> cases position.height <;>
      simp [isOk_fromFarSide]
  unfold place Position.fits
  rw [isOk_bind fun q _ => ?_, horizontal]
  rw [isOk_bind (b := true) fun r _ => rfl, Bool.and_true, vertical]

end NodeProperties

namespace Widget

open InRun

/-- The numbers of a widget's layout that become doubles: those of automatic layouts do. -/
def layoutLengths (w : Widget) : List Number :=
  if w.isLeaf || w.isStack then [] else (w.layout.map Layout.lengths).getD []

/-- The position at which a child is placed by its parent, if it is at any. -/
def givenPosition (parent child : Widget) : Option Position :=
  if parent.isStack || child.asksForPlace then child.resolvedPosition else none

theorem isOk_assembleFrame (w : Widget) (kind : NodeKind) (name id : Text) (p : NodeProperties)
    (children : List Node) (hl : w.isLeaf = false) :
    (w.assembleFrame kind name id p children).isOk = w.layoutLengths.all Number.fitsDouble := by
  unfold assembleFrame layoutLengths
  rw [hl, Bool.false_or]
  cases w.layout with
  | none => simp
  | some l =>
    simp only
    split
    · rfl
    · rw [isOk_map, Layout.isOk_toAutoLayout]
      rfl

theorem isOk_assemble (w : Widget) (id : Text) (p : NodeProperties) (children : List Node) :
    (w.assemble id p children).isOk = w.layoutLengths.all Number.fitsDouble := by
  have leaf (hl : w.isLeaf = true) : w.layoutLengths.all Number.fitsDouble = true := by
    simp [layoutLengths, hl]
  unfold assemble
  split
  · next hk => rw [leaf (by simp [isLeaf_eq, hk])]; rfl
  · next hk => rw [leaf (by simp [isLeaf_eq, hk])]; rfl
  · next hk => rw [isOk_map, isOk_assembleFrame _ _ _ _ _ _ (by simp [isLeaf_eq, hk])]
  · next ht hr _ => rw [isOk_assembleFrame _ _ _ _ _ _ (by simpa [isLeaf_eq] using ⟨ht, hr⟩)]

theorem isOk_placedProperties (parent : Widget) (index : Nat) (child : Widget)
    (p : NodeProperties) :
    (placedProperties parent index child p).isOk =
      (givenPosition parent child).all Position.fits := by
  unfold placedProperties givenPosition
  by_cases hs : parent.isStack
  · simp only [hs, if_true, isOk_map, Bool.true_or]
    cases child.resolvedPosition with
    | none => rfl
    | some position => exact NodeProperties.isOk_place _ _
  · simp only [hs, Bool.false_eq_true, if_false, Bool.false_or]
    split
    · next position h => rw [h, NodeProperties.isOk_place]; rfl
    · next h => rw [h]; rfl

/-! ## Whole trees -/

mutual

/-- Whether a widget tree can be lowered: what becomes a node has numbers with doubles near them,
and children can be placed. -/
def lowerable : Widget → Bool
  | ⟨id, kind, sourceType, properties, children, styling, layout, position⟩ =>
    let w : Widget := ⟨id, kind, sourceType, properties, children, styling, layout, position⟩
    (w.ownLengths ++ w.layoutLengths).all Number.fitsDouble &&
      (kind.isLeaf || lowerableAll w children)

def lowerableAll (parent : Widget) : List Widget → Bool
  | [] => true
  | child :: rest =>
    child.lowerable && (givenPosition parent child).all Position.fits && lowerableAll parent rest

end

theorem lowerable_eq (w : Widget) :
    w.lowerable = ((w.ownLengths ++ w.layoutLengths).all Number.fitsDouble &&
      (w.isLeaf || lowerableAll w w.children)) := by
  cases w
  rfl

theorem lowerableAll_iff {parent : Widget} {cs : List Widget} :
    lowerableAll parent cs = true ↔
      ∀ c ∈ cs, c.lowerable = true ∧ (givenPosition parent c).all Position.fits = true := by
  induction cs with
  | nil => simp [lowerableAll]
  | cons child rest ih =>
    rw [lowerableAll, Bool.and_eq_true, Bool.and_eq_true, ih, List.forall_mem_cons]

theorem returns_lowerChildren_iff {parent : Widget} {index : Nat} {cs : List Widget} {run : Run}
    (ih : ∀ c ∈ cs, ∀ run, c.lower.Returns run ↔ c.lowerable = true) :
    (lowerChildren parent index cs).Returns run ↔ lowerableAll parent cs = true := by
  induction cs generalizing index run with
  | nil => exact iff_of_true (returns_pure _) rfl
  | cons child rest ihr =>
    have hrest (run : Run) : (lowerChildren parent (index + 1) rest).Returns run ↔
        lowerableAll parent rest = true :=
      ihr fun c hc => ih c (List.mem_cons_of_mem child hc)
    rw [lowerChildren, lowerableAll, Bool.and_eq_true, Bool.and_eq_true, and_assoc,
      ← ih child List.mem_cons_self run]
    refine returns_bind_of fun node lowered _ => ?_
    rw [returns_bind_of (p := lowerableAll parent rest = true)]
    · rw [placeChild_eq, returns_bind_of (p := True), returns_lift, isOk_placedProperties, and_true]
      exact fun p mid _ => iff_true_intro (returns_bind.2 ⟨(), _, rfl, returns_pure _⟩)
    intro _ placed _
    rw [returns_bind_of (p := True) (by simp), and_true, hrest]

/-- Lowering returns exactly for the trees that can be lowered, in any run. -/
theorem returns_lower_iff (w : Widget) (run : Run) :
    w.lower.Returns run ↔ w.lowerable = true := by
  induction w using Widget.induct generalizing run with
  | step w ih =>
    have inner (run : Run) :
        w.lowerInner.Returns run ↔ (w.isLeaf || lowerableAll w w.children) = true := by
      unfold lowerInner
      cases w.isLeaf with
      | true => simp
      | false => simpa using returns_lowerChildren_iff fun c hc run => ih c hc run
    rw [lower_eq_assemble, lowerable_eq, List.all_append, Bool.and_eq_true, Bool.and_eq_true,
      and_assoc, ← w.returns_ownProperties run]
    refine returns_bind_of fun p _ _ => ?_
    rw [returns_bind_of (p := w.layoutLengths.all Number.fitsDouble = true ∧
      (w.isLeaf || lowerableAll w w.children) = true)]
    · simp
    intro id _ _
    rw [returns_bind_of (p := w.layoutLengths.all Number.fitsDouble = true), inner, and_comm]
    intro children _ _
    rw [returns_lift, isOk_assemble]

end Widget

/-! ## Trees whose numbers all have doubles near them -/

/-- The distances and sizes of a position. -/
def Position.numbers (p : Position) : List Number :=
  p.top.toList ++ p.right.toList ++ p.bottom.toList ++ p.left.toList ++ p.width.toList ++
    p.height.toList

theorem Position.fits_of_numbers {p : Position} (h : ∀ n ∈ p.numbers, n.fitsDouble) :
    p.fits = true := by
  have starts {near far size : Option Number} (hf : ∀ n ∈ far, n.fitsDouble)
      (hs : ∀ n ∈ size, n.fitsDouble) : Position.starts near far size = true := by
    unfold Position.starts
    split
    · next far size =>
      refine Number.isSome_sub? ?_ (hs size rfl)
      rw [Number.fitsDouble_neg]
      exact hf far rfl
    · rfl
  simp only [numbers, List.mem_append, Option.mem_toList] at h
  rw [fits, Bool.and_eq_true]
  constructor
  · exact starts (fun n hn => h n (by simp_all)) fun n hn => h n (by simp_all)
  · exact starts (fun n hn => h n (by simp_all)) fun n hn => h n (by simp_all)

/-- The paddings and the spacing of a layout. -/
def Layout.numbers (l : Layout) : List Number :=
  let padding := l.padding.getD {}
  [padding.top, padding.right, padding.bottom, padding.left] ++ l.spacing.toList

theorem Layout.fits_lengths {l : Layout} (h : ∀ n ∈ l.numbers, n.fitsDouble) :
    l.lengths.all Number.fitsDouble = true := by
  have gap : (l.gap?.getD 0).fitsDouble = true := by
    cases hg : l.gap? with
    | none => rfl
    | some n => exact h n (by simp [numbers, (Option.filter_eq_some_iff.1 hg).1])
  simp only [numbers, List.cons_append, List.nil_append, List.forall_mem_cons] at h
  obtain ⟨top, right, bottom, left, -⟩ := h
  simp [lengths, top, right, bottom, left, gap]

namespace Widget

open InRun

/-- The numbers of a widget's size, its place, its layout and its gradient. -/
def numbers (w : Widget) : List Number :=
  let p := w.properties
  p.width.toList ++ p.height.toList ++ p.left.toList ++ p.right.toList ++ p.top.toList ++
    p.bottom.toList ++ ((p.decoration.bind (·.gradient)).bind (·.stops)).getD [] ++
    (w.layout.map Layout.numbers).getD [] ++ (w.position.map Position.numbers).getD [] ++
    (p.positioned.map Position.numbers).getD []

section

variable {w : Widget} (h : ∀ n ∈ w.numbers, n.fitsDouble)

include h

theorem fits_gradientPlaces {g : Gradient} (hg : w.properties.decoration.bind (·.gradient) = some g)
    {n : Number} (hn : n ∈ gradientPlaces g) : n.fitsDouble = true := by
  unfold gradientPlaces at hn
  split at hn
  · next stop stops hs =>
    have hm : n ∈ g.stops.getD [] := by
      rw [hs]
      exact hn
    exact h n (by simp [numbers, hg, hm])
  · obtain ⟨i, -, rfl⟩ := List.mem_map.1 hn
    split <;> rfl

theorem fits_ownLengths : w.ownLengths.all Number.fitsDouble = true := by
  rw [List.all_eq_true]
  intro n hn
  rw [ownLengths, List.mem_append, List.mem_append] at hn
  rcases hn with (hn | hn) | hn
  · exact h n (by simp_all [numbers])
  · exact h n (by simp_all [numbers])
  · split at hn
    · simp at hn
    unfold paintedPlaces at hn
    split at hn
    · next g hg =>
      split at hn
      · exact fits_gradientPlaces h hg (List.mem_of_mem_take hn)
      · simp at hn
    · simp at hn

theorem fits_layoutLengths : w.layoutLengths.all Number.fitsDouble = true := by
  unfold layoutLengths
  split
  · rfl
  cases hl : w.layout with
  | none => rfl
  | some l => exact Layout.fits_lengths fun n hn => h n (by simp [numbers, hl, hn])

theorem fits_givenPosition (parent : Widget) :
    (givenPosition parent w).all Position.fits = true := by
  have resolved : w.resolvedPosition.all Position.fits = true := by
    unfold resolvedPosition
    split
    · next p _ hp _ => exact Position.fits_of_numbers fun n hn => h n (by simp_all [numbers])
    · next p hp => exact Position.fits_of_numbers fun n hn => h n (by simp_all [numbers])
    · simp only
      split
      · refine Position.fits_of_numbers fun n hn => h n ?_
        simp only [Position.numbers, List.mem_append] at hn
        simp only [numbers, List.mem_append]
        tauto
      · rfl
  unfold givenPosition
  split
  · exact resolved
  · rfl

end

/-- A tree can be lowered if all its numbers have doubles near them. -/
theorem lowerable_of_numbers {w : Widget} (h : ∀ v ∈ w.walk, ∀ n ∈ v.numbers, n.fitsDouble) :
    w.lowerable = true := by
  induction w using Widget.induct with
  | step w ih =>
    rw [forall_mem_walk] at h
    have children : lowerableAll w w.children = true := by
      rw [lowerableAll_iff]
      intro c hc
      exact ⟨ih c hc (h.2 c hc), fits_givenPosition (h.2 c hc c c.mem_walk_self) w⟩
    rw [lowerable_eq, List.all_append, fits_ownLengths h.1, fits_layoutLengths h.1, children]
    simp

/-! ## What lowering returns -/

/-- **Lowering keeps the tree.** A tree whose numbers have doubles near them is lowered, in any run,
to a tree of nodes that mirrors it without the children of texts and images: each node names its
widget, is of the kind that belongs to the widget's, and has the identifier of its place in the
walk. -/
theorem lower_mirrors_pruned (w : Widget) (run : Run)
    (h : ∀ v ∈ w.walk, ∀ n ∈ v.numbers, n.fitsDouble) :
    ∃ node after, runFrom run w.lower = (.ok node, after) ∧
      node.labels Node.origin = w.pruned.labels origin ∧
      node.walk.map (·.id) = nodeIds run.issued w.pruned.size ∧
      after.issued = run.issued + w.pruned.size ∧
      (node.shape = w.shape ↔ ∀ v ∈ w.walk, v.isLeaf → v.children = []) := by
  obtain ⟨node, after, hy⟩ := (w.returns_lower_iff run).2 (lowerable_of_numbers h)
  have hm := w.mirrors_of_yields hy
  refine ⟨node, after, hy, hm.labels, ?_, ?_, ?_⟩
  · rw [← hm.count_eq]
    exact hm.ids
  · rw [hm.after, Run.issued_advanced, hm.count_eq]
  · rw [hm.shape_eq]
    exact w.shape_pruned_iff

theorem lower_mirrors_pruned_row :
    let label : Widget :=
      { id := "label", kind := .text, children := [{ id := "mark", kind := .image }] }
    let row : Widget := { id := "row", kind := .row, properties := { width := some 120 },
                          children := [label, { id := "box", kind := .container }] }
    ∃ node after, runFrom { issued := 7 } row.lower = (.ok node, after) ∧
      node.labels Node.origin = row.pruned.labels origin ∧
      node.walk.map (·.id) = nodeIds 7 row.pruned.size ∧
      after.issued = 7 + row.pruned.size ∧
      (node.shape = row.shape ↔ ∀ v ∈ row.walk, v.isLeaf → v.children = []) :=
  lower_mirrors_pruned _ { issued := 7 } (by decide +kernel)

end Widget

end DesignTree
