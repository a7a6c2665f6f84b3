import DesignTree.Proofs.Lowering.Place

/-! # The size of a lowered node

Four sources write the size of a node and its share of the space, each one over those before it: the
widget's own size, its layout, the share that its parent has for it, and the place that its parent
gives it. `Extent.above` puts one source over another; `sized_of_yields` says that lowering puts
them over each other in this order all over the tree.
-/

namespace DesignTree

/-- A size, and a share of the space along the parent's axis. -/
structure Extent where
  width : Option Number := none
  height : Option Number := none
  grow : Option Number := none
  deriving DecidableEq

namespace Extent

/-- An extent over another one: where the former says nothing, the latter counts. -/
def above (a b : Extent) : Extent :=
  { width := a.width <|> b.width
    height := a.height <|> b.height
    grow := a.grow <|> b.grow }

theorem above_assoc (a b c : Extent) : (a.above b).above c = a.above (b.above c) := by
  have orElse (x y z : Option Number) : ((x <|> y) <|> z) = (x <|> (y <|> z)) := by
    cases x <;> rfl
  simp only [above, orElse]

@[simp]
theorem empty_above (a : Extent) : above {} a = a := rfl

end Extent

/-- The size of a layout. -/
def Layout.extent (l : Layout) : Extent := { width := l.width, height := l.height }

/-- The size of a position. -/
def Position.extent (p : Position) : Extent := { width := p.width, height := p.height }

/-- The size of a node and its share of the space. -/
def NodeProperties.extent (p : NodeProperties) : Extent :=
  { width := p.width, height := p.height, grow := p.layoutGrow }

namespace Widget

/-- The size among a widget's own properties. -/
def ownExtent (w : Widget) : Extent :=
  { width := w.properties.width.map Number.asLength
    height := w.properties.height.map Number.asLength }

/-- The size that a widget's layout gives its frame. -/
def layoutExtent (w : Widget) : Extent :=
  if w.isLeaf then {} else (w.layout.map Layout.extent).getD {}

/-- The share of the space that a parent has for a child: only along an axis does a child grow. -/
def shareIn (parent child : Widget) : Option Number :=
  if !parent.isStack && parent.mainAxis.isSome then NodeProperties.growth child else none

/-- What a parent gives a child: the size of the child's place, and a share of the space. -/
def placeExtent (parent child : Widget) : Extent :=
  { ((givenPosition parent child).map Position.extent).getD {} with grow := shareIn parent child }

/-- What a widget is given beside its own size: that of its place, over that of its layout. -/
def givenExtent : Option Widget → Widget → Extent
  | none, w => w.layoutExtent
  | some parent, w => (placeExtent parent w).above w.layoutExtent

/-- The extent of a widget's node. -/
def loweredExtent (parent : Option Widget) (w : Widget) : Extent :=
  (givenExtent parent w).above w.ownExtent

end Widget

/-! ## Own sizes -/

namespace Widget

theorem extent_of_ownProperties {w : Widget} {p : NodeProperties}
    (h : w.ownProperties.outcome = .ok p) : p.extent = w.ownExtent := by
  obtain ⟨geometry, flow, -⟩ := sized_of_ownProperties h
  unfold NodeProperties.extent
  rw [geometry, flow]
  rfl

/-! ## Sizes of layouts -/

/-- The node that is put together has the size of the layout over the own one. -/
theorem extent_of_assemble {w : Widget} {id : Text} {p : NodeProperties} {children : List Node}
    {n : Node} (h : w.assemble id p children = .ok n) :
    n.properties.extent = w.layoutExtent.above p.extent := by
  obtain ⟨geometry, mode, wrap, spacing, between, flow⟩ := bounded_of_assemble h
  have same : n.properties.extent = (w.bounded p).extent := by
    unfold NodeProperties.extent
    rw [geometry, flow]
  rw [same, bounded, layoutExtent]
  split
  · rfl
  · cases w.layout <;> rfl

end Widget

/-! ## Sizes of places -/

namespace NodeProperties

theorem extent_grow (p : NodeProperties) (child : Widget) (axis : Option Axis) :
    (p.grow child axis).extent =
      Extent.above { grow := if axis.isSome then growth child else none } p.extent := by
  unfold grow
  cases growth child with
  | none => rcases axis with _ | _ | _ <;> rfl
  | some share => rcases axis with _ | _ | _ <;> rfl

end NodeProperties

namespace Widget

open InRun

/-- What a parent gives a child goes over what the child's node has. -/
theorem extent_of_placedProperties {parent child : Widget} {index : Nat} {p q : NodeProperties}
    (h : placedProperties parent index child p = .ok q) :
    q.extent = (placeExtent parent child).above p.extent := by
  have grow : q.layoutGrow = (shareIn parent child <|> p.layoutGrow) := by
    have flow := flow_of_placedProperties h
    have share := congrArg Extent.grow (p.extent_grow child parent.mainAxis)
    rw [show q.layoutGrow = _ from congrArg NodeFlow.layoutGrow flow, shareIn]
    by_cases hs : parent.isStack
    · simp only [hs, if_true, Bool.not_true, Bool.false_and, Bool.false_eq_true, if_false]
      rfl
    · simp only [hs, Bool.false_eq_true, if_false, Bool.not_false, Bool.true_and]
      exact share
  obtain ⟨x, y, constraints, hq⟩ := exists_of_placedProperties h
  have width := congrArg (fun r : NodeProperties => r.width) hq
  have height := congrArg (fun r : NodeProperties => r.height) hq
  unfold NodeProperties.extent Extent.above placeExtent
  rw [width, height, grow]
  cases givenPosition parent child <;> rfl

/-! ## Sizes all over a tree -/

/-- All over a tree, whose root has this parent, nodes are as large as their widgets are given to
be. -/
def Sized (parent : Option Widget) (w : Widget) (n : Node) : Prop :=
  n.labels (fun m => (m.widgetId, m.properties.extent)) =
    (w.withParents parent).map fun e => (some e.2.id, loweredExtent e.1 e.2)

/-- In the tree that lowering yields all nodes are as large as their widgets are given to be. -/
theorem sized_of_yields (w : Widget) {run after : Run} {n : Node}
    (h : w.lower.Yields run n after) (hs : n.shape = w.shape) : Sized none w n := by
  refine labels_of_yields (f := NodeProperties.extent) ?_ ?_ h hs
  · intro w p id ms n hp hn
    rw [extent_of_assemble hn, extent_of_ownProperties hp]
    rfl
  · -- What the parent gives goes over what the layout gives, which is over the own size already.
    intro parent child index p q hextent hq
    rw [extent_of_placedProperties hq, hextent]
    exact (Extent.above_assoc _ _ _).symm

end Widget

end DesignTree
