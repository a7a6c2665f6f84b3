import DesignTree.Proofs.Lowering.AxisPlace
import DesignTree.Proofs.Tree.Edge

/-! # Lowering place by place

What a node gets beside its children comes in two steps: it is put together from its own widget, and
its parent places it. For something that is taken from the properties of nodes it is enough to know
what these two steps make of it; `labels_of_yields` then says what it is all over a lowered tree,
and `forall₂_of_yields` says so along the two walks.
-/

namespace DesignTree

theorem LabelTree.toList_map {α β : Type} (g : α → β) (t : LabelTree α) :
    (t.map g).toList = t.toList.map g :=
  @LabelTree.rec α (fun t => (t.map g).toList = t.toList.map g)
    (fun ts => toListAll (mapAll g ts) = (toListAll ts).map g)
    (fun label ts ih => by rw [map, toList, toList, ih, List.map_cons])
    rfl
    (fun t ts ht hts => by rw [mapAll, toListAll, toListAll, ht, hts, List.map_append])
    t

theorem lengthAs_eq_ok {name : Text} {n m : Number} (h : lengthAs name n = .ok m) :
    m = n.asLength := by
  unfold lengthAs at h
  split at h
  · cases h
    rfl
  · cases h

theorem lengthIfAny_eq_ok {name : Text} {n m : Option Number} (h : lengthIfAny name n = .ok m) :
    m = n.map Number.asLength := by
  cases n with
  | none =>
    cases h
    rfl
  | some n =>
    obtain ⟨length, hl, rfl⟩ := Decoded.map_eq_ok_iff.1 h
    rw [lengthAs_eq_ok hl, Option.map_some]

namespace Widget

open InRun

section

variable {β : Type} (f : NodeProperties → β) (g : Option Widget → Widget → β)

/-- All over a tree, whose root has this parent, nodes are as `g` tells by their widgets. -/
def PlaceByPlace (parent : Option Widget) (w : Widget) (n : Node) : Prop :=
  n.labels (fun m => (m.widgetId, f m.properties)) =
    (w.withParents parent).map fun e => (some e.2.id, g e.1 e.2)

variable {f g}

theorem placeByPlace_iff {parent : Option Widget} {w : Widget} {n : Node} :
    PlaceByPlace f g parent w n ↔ n.widgetId = some w.id ∧ f n.properties = g parent w ∧
      Node.labelsAll (fun m => (m.widgetId, f m.properties)) n.children =
        LabelTree.mapAll (fun e => (some e.2.id, g e.1 e.2)) (withParentsAll w w.children) := by
  rw [PlaceByPlace, Node.labels_eq, withParents_eq, LabelTree.map, LabelTree.node.injEq,
    Prod.mk.injEq, and_assoc]

variable {w : Widget} {run after : Run} {n : Node}
  (own : ∀ w p id ms n, w.ownProperties.outcome = .ok p → w.assemble id p ms = .ok n →
    f n.properties = g none w)
  (placed : ∀ parent child index p q, f p = g none child →
    placedProperties parent index child p = .ok q → f q = g (some parent) child)

include placed

/-- Children whose nodes are what the two steps make of them come to their labels in order. -/
theorem labelsAll_of_placedFrom {cs : List Widget} {ns : List Node}
    (h : List.Forall₂ (PlacedFrom (fun w n => n.shape = w.shape → PlaceByPlace f g none w n) w)
      cs ns)
    (hs : ns.map Node.shape = cs.map Widget.shape) :
    Node.labelsAll (fun m => (m.widgetId, f m.properties)) ns =
      LabelTree.mapAll (fun e => (some e.2.id, g e.1 e.2)) (withParentsAll w cs) := by
  induction h with
  | nil => rfl
  | @cons child _ _ _ first _ ih =>
    obtain ⟨node, index, p, unplaced, hp, rfl⟩ := first
    rw [List.map_cons, List.map_cons, List.cons.injEq] at hs
    have shape : node.shape = child.shape := by
      rw [← hs.1, Node.shape_eq, Node.shape_eq]
    obtain ⟨hid, hf, hbelow⟩ := placeByPlace_iff.1 (unplaced shape)
    have first : PlaceByPlace f g (some w) child { node with properties := p } :=
      placeByPlace_iff.2 ⟨hid, placed w child index node.properties p hf hp, hbelow⟩
    rw [Node.labelsAll, withParentsAll, LabelTree.mapAll, ih hs.2]
    exact congrArg (· :: _) first

include own

/-- What the two steps make of a single node, lowering makes of all nodes of a tree of the same
shape. -/
theorem labels_of_yields (h : w.lower.Yields run n after) (hs : n.shape = w.shape) :
    PlaceByPlace f g none w n := by
  refine lower_induct (motive := fun w n => n.shape = w.shape → PlaceByPlace f g none w n)
    (fun w p id ms n hp hc hn hs => ?_) w h hs
  have hnode := isNodeOf_of_assemble hn
  rw [Node.shape_eq, Widget.shape_eq, LabelTree.node.injEq] at hs
  refine placeByPlace_iff.2 ⟨hnode.widgetId, own w p id ms n hp hn, ?_⟩
  by_cases hl : w.isLeaf
  · have childless : n.children = [] := by rw [hnode.children, if_pos hl]
    have alone : w.children = [] := by simpa [childless] using hs.2.symm
    rw [childless, alone]
    rfl
  · have all : n.children = ms := by rw [hnode.children, if_neg hl]
    rw [if_neg hl] at hc
    rw [all] at hs ⊢
    exact labelsAll_of_placedFrom placed hc hs.2

/-- The nodes of a walk, one by one with the widgets and their parents. -/
theorem forall₂_of_yields (h : w.lower.Yields run n after) (hs : n.shape = w.shape) :
    List.Forall₂ (fun e m => m.widgetId = some e.2.id ∧ f m.properties = g e.1 e.2)
      (walkWithParent none w) n.walk := by
  have same := congrArg LabelTree.toList (labels_of_yields own placed h hs)
  rw [Node.toList_labels, LabelTree.toList_map, toList_withParents] at same
  have pairs : List.Forall₂ (· = ·) _ _ := List.forall₂_eq_eq_eq.symm ▸ same
  rw [List.forall₂_map_left_iff, List.forall₂_map_right_iff] at pairs
  exact pairs.flip.imp fun e m he => Prod.mk.inj he

end

/-! ## Own properties -/

/-- But for its looks, what a widget gives its node by itself are the basic properties. -/
theorem basic_of_ownProperties {w : Widget} {p : NodeProperties}
    (h : w.ownProperties.outcome = .ok p) :
    ∃ basic, w.basicProperties = .ok basic ∧ p.toNodeGeometry = basic.toNodeGeometry ∧
      p.toNodeFlow = { basic.toNodeFlow with clipsContent := p.clipsContent } ∧
      p.toNodePaints = { basic.toNodePaints with
        fills := p.fills
        strokes := p.strokes
        strokeWeight := p.strokeWeight
        cornerRadius := p.cornerRadius } := by
  have yields : w.ownProperties.Yields {} p _ := w.plain_ownProperties.yields_iff.2 ⟨h, rfl⟩
  unfold ownProperties at yields
  split at yields
  · unfold textProperties at yields
    simp only [yields_bind, yields_lift, yields_record, yields_pure] at yields
    obtain ⟨basic, _, ⟨hb, -⟩, _, _, -, rfl, -⟩ := yields
    exact ⟨basic, hb, rfl, rfl, rfl⟩
  · unfold rectangleProperties at yields
    simp only [yields_bind, yields_lift, yields_pure] at yields
    obtain ⟨basic, _, ⟨hb, -⟩, _, _, -, _, _, -, rfl, -⟩ := yields
    exact ⟨basic, hb, rfl, rfl, rfl⟩
  · unfold frameProperties rectangleProperties at yields
    simp only [yields_bind, yields_lift, yields_pure] at yields
    obtain ⟨_, _, ⟨basic, _, ⟨hb, -⟩, _, _, -, _, _, -, rfl, -⟩, rfl, -⟩ := yields
    exact ⟨basic, hb, rfl, rfl, rfl⟩

theorem eq_of_basicProperties {w : Widget} {p : NodeProperties} (h : w.basicProperties = .ok p) :
    p = { width := w.properties.width.map Number.asLength
          height := w.properties.height.map Number.asLength
          visible := some true
          locked := some false } := by
  rw [basicProperties, orFault_eq_ok_iff, Decoded.seq_eq_ok_iff] at h
  obtain ⟨make, height, hm, hh, rfl⟩ := h
  cases hw : lengthIfAny "width" w.properties.width with
  | failed issues =>
    rw [hw] at hm
    cases hm
  | ok width =>
    rw [hw] at hm
    cases hm
    rw [← lengthIfAny_eq_ok hw, ← lengthIfAny_eq_ok hh]

/-- By itself a widget gives its node a size, nothing about how it flows but whether it cuts off
what lies outside of it, and no radii of single corners. -/
theorem sized_of_ownProperties {w : Widget} {p : NodeProperties}
    (h : w.ownProperties.outcome = .ok p) :
    p.toNodeGeometry = {
        width := w.properties.width.map Number.asLength
        height := w.properties.height.map Number.asLength
        visible := some true
        locked := some false } ∧
      p.toNodeFlow = { clipsContent := p.clipsContent } ∧
      p.toNodePaints = {
        fills := p.fills
        strokes := p.strokes
        strokeWeight := p.strokeWeight
        cornerRadius := p.cornerRadius } := by
  obtain ⟨basic, hb, geometry, flow, paints⟩ := basic_of_ownProperties h
  rw [eq_of_basicProperties hb] at geometry flow paints
  exact ⟨geometry, flow, paints⟩

/-! ## Layouts -/

/-- The properties of a widget's node with the size and the bounds of its layout: only frames have
one. -/
def bounded (w : Widget) (p : NodeProperties) : NodeProperties :=
  if w.isLeaf then p else (w.layout.map fun l => l.applyBounds p).getD p

/-- The properties of a widget's node with what tells how it arranges its children: a stack places
them one by one, and a layout that wraps lets them go on in a new line. -/
def arranged (w : Widget) (p : NodeProperties) : NodeProperties :=
  if w.isLeaf then p
  else if w.isStack then { w.bounded p with layoutMode := some .none }
  else (w.layout.map fun l => l.applyWrap (l.applyBounds p)).getD p

/-- The automatic layout of a widget's node, if it has one. -/
def autoLayout? (w : Widget) : Except Fault (Option AutoLayout) :=
  if w.isLeaf || w.isStack then .ok none
  else w.layout.elim (.ok none) fun l => l.toAutoLayout.map some

theorem parts_of_assembleFrame {w : Widget} {kind : NodeKind} {name id : Text}
    {p : NodeProperties} {children : List Node} {n : Node} (hl : w.isLeaf = false)
    (h : w.assembleFrame kind name id p children = .ok n) :
    n.properties = w.arranged p ∧ w.autoLayout? = .ok n.autoLayout := by
  unfold arranged autoLayout? bounded
  unfold assembleFrame at h
  cases hw : w.layout with
  | none =>
    rw [hw] at h
    cases h
    by_cases hs : w.isStack <;> simp [hl, hs]
  | some layout =>
    rw [hw] at h
    by_cases hs : w.isStack
    · simp only [hs, if_true] at h
      cases h
      simp [hl, hs]
    · simp only [hs, Bool.false_eq_true, if_false] at h
      obtain ⟨auto, ha, rfl⟩ := map_eq_ok_iff.1 h
      simp [hl, hs, ha, Except.map]

/-- What a node that is put together has from the layout of its widget. -/
theorem parts_of_assemble {w : Widget} {id : Text} {p : NodeProperties} {children : List Node}
    {n : Node} (h : w.assemble id p children = .ok n) :
    (∃ description, n.properties = { w.arranged p with description }) ∧
      w.autoLayout? = .ok n.autoLayout := by
  have leaf (hl : w.isLeaf = true) :
      (∃ description, p = { w.arranged p with description }) ∧ w.autoLayout? = .ok none := by
    rw [arranged, autoLayout?, hl]
    exact ⟨⟨p.description, rfl⟩, rfl⟩
  unfold assemble at h
  split at h
  · next hk =>
    cases h
    exact leaf (by simp [isLeaf_eq, hk])
  · next hk =>
    cases h
    exact leaf (by simp [isLeaf_eq, hk])
  · next hk =>
    obtain ⟨frame, hf, rfl⟩ := map_eq_ok_iff.1 h
    obtain ⟨properties, auto⟩ := parts_of_assembleFrame (by simp [isLeaf_eq, hk]) hf
    exact ⟨⟨_, by rw [describedAs, properties]⟩, auto⟩
  · next ht hr _ =>
    obtain ⟨properties, auto⟩ := parts_of_assembleFrame (by simpa [isLeaf_eq] using ⟨ht, hr⟩) h
    exact ⟨⟨_, properties⟩, auto⟩

/-- How a node flows apart from the size and the bounds of its layout. -/
theorem arranged_eq (w : Widget) (p : NodeProperties) :
    ∃ mode wrap spacing between, w.arranged p = { w.bounded p with
      layoutMode := mode, layoutWrap := wrap, itemSpacing := spacing,
      counterAxisSpacing := between } := by
  unfold arranged bounded
  split
  · exact ⟨_, _, _, _, rfl⟩
  · split
    · exact ⟨_, _, _, _, rfl⟩
    · cases w.layout with
      | none => exact ⟨_, _, _, _, rfl⟩
      | some l =>
        rw [Option.map_some, Option.getD_some, Option.map_some, Option.getD_some, Layout.applyWrap]
        split <;> exact ⟨_, _, _, _, rfl⟩

/-- The node that is put together has the geometry of its own properties and of its layout. In how
it flows, what the layout does not set stays. -/
theorem bounded_of_assemble {w : Widget} {id : Text} {p : NodeProperties} {children : List Node}
    {n : Node} (h : w.assemble id p children = .ok n) :
    n.properties.toNodeGeometry = (w.bounded p).toNodeGeometry ∧
      ∃ mode wrap spacing between, n.properties.toNodeFlow =
        { (w.bounded p).toNodeFlow with
          layoutMode := mode, layoutWrap := wrap, itemSpacing := spacing,
          counterAxisSpacing := between } := by
  obtain ⟨⟨description, hn⟩, -⟩ := parts_of_assemble h
  obtain ⟨mode, wrap, spacing, between, ha⟩ := w.arranged_eq p
  rw [hn, ha]
  exact ⟨rfl, mode, wrap, spacing, between, rfl⟩

end Widget

/-! ## Places -/

namespace NodeProperties

/-- A place changes nothing but coordinates, pins and the size. -/
theorem exists_of_place {p q : NodeProperties} {position : Position}
    (h : p.place position = .ok q) :
    ∃ x y constraints, q = { p with
      x, y, constraints
      width := position.width <|> p.width, height := position.height <|> p.height } := by
  rw [place_eq] at h
  split at h
  · cases h
    exact ⟨_, _, _, rfl⟩
  · cases h

theorem exists_of_align (p : NodeProperties) (alignment : Option Text) :
    ∃ x y constraints, p.align alignment = { p with x, y, constraints } := by
  unfold align
  simp only
  split <;> exact ⟨_, _, _, rfl⟩

theorem exists_of_grow (p : NodeProperties) (child : Widget) (axis : Option Axis) :
    ∃ share horizontal vertical, p.grow child axis = { p with
      layoutGrow := share
      layoutSizingHorizontal := horizontal
      layoutSizingVertical := vertical } := by
  unfold grow
  split <;> exact ⟨_, _, _, rfl⟩

end NodeProperties

namespace Widget

/-- A parent gives a child's node a layer, or a share of the space; a place, and its size. -/
theorem exists_of_placedProperties {parent child : Widget} {index : Nat} {p q : NodeProperties}
    (h : placedProperties parent index child p = .ok q) :
    ∃ x y constraints, q = {
      (if parent.isStack then { p with zIndex := some (index : Int) }
        else p.grow child parent.mainAxis) with
      x, y, constraints
      width := ((givenPosition parent child).bind (·.width)) <|> p.width
      height := ((givenPosition parent child).bind (·.height)) <|> p.height } := by
  obtain ⟨share, horizontal, vertical, grown⟩ := p.exists_of_grow child parent.mainAxis
  have kept : (p.grow child parent.mainAxis).width = p.width ∧
      (p.grow child parent.mainAxis).height = p.height := by
    rw [grown]
    exact ⟨rfl, rfl⟩
  unfold placedProperties at h
  unfold givenPosition
  by_cases hs : parent.isStack
  · rw [if_pos hs] at h
    simp only [hs, Bool.true_or, if_true]
    obtain ⟨placed, hp, rfl⟩ := map_eq_ok_iff.1 h
    cases hr : child.resolvedPosition with
    | none =>
      rw [hr] at hp
      cases hp
      obtain ⟨x, y, constraints, hq⟩ := p.exists_of_align parent.properties.alignment
      rw [hq]
      exact ⟨x, y, constraints, rfl⟩
    | some position =>
      rw [hr] at hp
      obtain ⟨x, y, constraints, rfl⟩ := NodeProperties.exists_of_place hp
      exact ⟨x, y, constraints, rfl⟩
  · rw [if_neg hs] at h
    simp only [hs, Bool.false_or, Bool.false_eq_true, if_false, ← kept]
    cases hr : if child.asksForPlace then child.resolvedPosition else none with
    | none =>
      rw [hr] at h
      cases h
      exact ⟨_, _, _, rfl⟩
    | some position =>
      rw [hr] at h
      exact NodeProperties.exists_of_place h

/-- The place of a child's node changes nothing about its paints. -/
theorem paints_of_placedProperties {parent child : Widget} {index : Nat} {p q : NodeProperties}
    (h : placedProperties parent index child p = .ok q) : q.toNodePaints = p.toNodePaints := by
  obtain ⟨share, horizontal, vertical, grown⟩ := p.exists_of_grow child parent.mainAxis
  obtain ⟨x, y, constraints, rfl⟩ := exists_of_placedProperties h
  rw [grown]
  by_cases hs : parent.isStack <;> simp [hs]

/-- A stack gives a child's node a layer. -/
theorem layer_of_placedProperties {parent child : Widget} {index : Nat} {p q : NodeProperties}
    (h : placedProperties parent index child p = .ok q) :
    q.zIndex = if parent.isStack then some (index : Int) else p.zIndex := by
  obtain ⟨share, horizontal, vertical, grown⟩ := p.exists_of_grow child parent.mainAxis
  obtain ⟨x, y, constraints, rfl⟩ := exists_of_placedProperties h
  rw [grown]
  by_cases hs : parent.isStack <;> simp only [hs, if_true, Bool.false_eq_true, if_false]

/-- Outside of a stack a child grows along the axis of its parent; nothing else changes how its node
flows. -/
theorem flow_of_placedProperties {parent child : Widget} {index : Nat} {p q : NodeProperties}
    (h : placedProperties parent index child p = .ok q) :
    q.toNodeFlow = (if parent.isStack then p else p.grow child parent.mainAxis).toNodeFlow := by
  obtain ⟨x, y, constraints, rfl⟩ := exists_of_placedProperties h
  by_cases hs : parent.isStack <;> simp only [hs, if_true, Bool.false_eq_true, if_false]

/-- The place of a child's node changes nothing about how the node arranges its own children. -/
theorem exists_flow_of_placedProperties {parent child : Widget} {index : Nat}
    {p q : NodeProperties} (h : placedProperties parent index child p = .ok q) :
    ∃ share horizontal vertical, q.toNodeFlow = { p.toNodeFlow with
      layoutGrow := share
      layoutSizingHorizontal := horizontal
      layoutSizingVertical := vertical } := by
  obtain ⟨share, horizontal, vertical, grown⟩ := p.exists_of_grow child parent.mainAxis
  rw [flow_of_placedProperties h, grown]
  by_cases hs : parent.isStack
  · rw [if_pos hs]
    exact ⟨_, _, _, rfl⟩
  · rw [if_neg hs]
    exact ⟨_, _, _, rfl⟩

end Widget

end DesignTree
