import DesignTree.Lowering.Tree
import DesignTree.Proofs.Run.Identifier
import DesignTree.Proofs.Tree.Basic

/-! # The steps of lowering a widget

A widget is lowered in four steps: its own properties are made, an identifier is drawn, its children
are lowered and placed, and the node is put together from these (`lower_eq_assemble`). The first
step is plain, the last one is a function of what the others gave, and what a child gets from its
parent is one too (`placeChild_eq`). What lowering yields then depends on the run by the drawn
identifiers alone. Statements about single trees go by `lower_induct`, which leaves runs out.
-/

namespace DesignTree.Widget

open InRun

/-! ## Own properties -/

/-- The properties of a widget's node, apart from what its layout and its parent give it. -/
def ownProperties (w : Widget) : InRun NodeProperties :=
  match w.kind.nodeKind with
  | .text => w.textProperties
  | .rectangle => w.rectangleProperties
  | _ => w.frameProperties

theorem plain_decorationPaints (id : Text) (d : Decoration) : (decorationPaints id d).Plain := by
  unfold decorationPaints
  refine (plain_record _).bind fun _ => ?_
  cases d.gradient with
  | none => exact plain_pure _
  | some g =>
    simp only
    split
    · exact plain_pure _
    · refine (plain_record _).bind fun _ => ?_
      exact (plain_lift _).bind fun _ => plain_pure _

theorem plain_fills (w : Widget) : w.fills.Plain := by
  unfold fills
  refine (plain_record _).bind fun _ => ?_
  split
  · exact plain_pure _
  · cases w.properties.decoration with
    | none => exact plain_pure _
    | some d => exact (plain_decorationPaints w.id d).bind fun _ => plain_pure _

theorem plain_strokes (w : Widget) : w.strokes.Plain := by
  unfold strokes
  cases w.styling.borders with
  | none => exact plain_pure _
  | some b =>
    simp only
    split
    · exact plain_pure _
    · exact (plain_record _).bind fun _ => plain_pure _

theorem plain_rectangleProperties (w : Widget) : w.rectangleProperties.Plain :=
  (plain_lift _).bind fun _ =>
    w.plain_fills.bind fun _ => w.plain_strokes.bind fun _ => plain_pure _

theorem plain_frameProperties (w : Widget) : w.frameProperties.Plain :=
  w.plain_rectangleProperties.bind fun _ => plain_pure _

theorem plain_textProperties (w : Widget) : w.textProperties.Plain :=
  (plain_lift _).bind fun _ => (plain_record _).bind fun _ => plain_pure _

theorem plain_ownProperties (w : Widget) : w.ownProperties.Plain := by
  unfold ownProperties
  split
  · exact w.plain_textProperties
  · exact w.plain_rectangleProperties
  · exact w.plain_frameProperties

/-! ## The node of a widget from its parts -/

/-- The frame of a widget from its identifier, its properties and its children. -/
def assembleFrame (w : Widget) (kind : NodeKind) (name id : Text) (properties : NodeProperties)
    (children : List Node) : Except Fault Node :=
  match w.layout with
  | none =>
    let properties :=
      if w.isStack then { properties with layoutMode := some .none } else properties
    .ok { id, kind, name, properties, children, widgetId := w.id }
  | some layout =>
    let bounded := layout.applyBounds properties
    if w.isStack then
      .ok { id, kind, name, properties := { bounded with layoutMode := some .none }, children,
            widgetId := w.id }
    else layout.toAutoLayout.map fun autoLayout =>
      { id, kind, name, properties := layout.applyWrap bounded, autoLayout := some autoLayout,
        children, widgetId := w.id }

/-- The description of a widget's node: components have one. -/
def describedAs (w : Widget) (n : Node) : Node :=
  { n with properties := { n.properties with
    description := some ("Component generated from " ++ w.kind.displayName ++ " widget") } }

/-- The node of a widget from its identifier, its properties and its children. -/
def assemble (w : Widget) (id : Text) (properties : NodeProperties) (children : List Node) :
    Except Fault Node :=
  match w.kind.nodeKind with
  | .text => .ok { id, kind := .text, name := w.nodeName, properties, widgetId := w.id }
  | .rectangle => .ok { id, kind := .rectangle, name := w.nodeName, properties, widgetId := w.id }
  | .component =>
    (w.assembleFrame .component (w.kind.displayName ++ " Component") id properties children).map
      w.describedAs
  | _ => w.assembleFrame .frame w.nodeName id properties children

/-- The nodes of the children of a widget, if its kind shows any. -/
def lowerInner (w : Widget) : InRun (List Node) :=
  if w.isLeaf then pure [] else lowerChildren w 0 w.children

theorem frameAround_eq (w : Widget) (kind : NodeKind) (name : Text) (children : InRun (List Node)) :
    w.frameAround kind name children = (do
      let properties ← w.frameProperties
      let id ← nextId
      let children ← children
      lift (w.assembleFrame kind name id properties children)) := by
  unfold frameAround
  congr 1
  funext properties
  congr 1
  funext id
  congr 1
  funext children
  unfold assembleFrame
  cases w.layout with
  | none => rfl
  | some layout =>
    simp only
    split
    · rfl
    · cases layout.toAutoLayout <;> rfl

theorem isLeaf_eq (w : Widget) :
    w.isLeaf = (w.kind.nodeKind = .text || w.kind.nodeKind = .rectangle) := by
  unfold isLeaf
  cases w.kind <;> rfl

/-- Lowering a widget in four steps. -/
theorem lower_eq_assemble (w : Widget) :
    w.lower = (do
      let properties ← w.ownProperties
      let id ← nextId
      let children ← w.lowerInner
      lift (w.assemble id properties children)) := by
  rw [lower_eq, lowerRootAs]
  unfold lowerInner ownProperties assemble
  rw [isLeaf_eq]
  cases w.kind.nodeKind <;>
    simp [lowerAs, lowerText, lowerRectangle, lowerComponent, lowerFrame, frameAround_eq, lift_ok,
      lift_map, describedAs]

/-! ## The place of a child -/

/-- The properties of a child's node as its parent places it: in a stack at its own place or as the
stack aligns it, elsewhere with its share of the space and a place that it asks for. -/
def placedProperties (parent : Widget) (index : Nat) (child : Widget) (p : NodeProperties) :
    Except Fault NodeProperties :=
  if parent.isStack then
    let placed :=
      match child.resolvedPosition with
      | some position => p.place position
      | none => .ok (p.align parent.properties.alignment)
    placed.map fun q => { q with zIndex := some index }
  else
    let grown := p.grow child parent.mainAxis
    match if child.asksForPlace then child.resolvedPosition else none with
    | some position => grown.place position
    | none => .ok grown

/-- What is recorded about the place of a child. -/
def strayNotes (parent child : Widget) : Diagnostics :=
  if !parent.isStack && child.asksForPlace then [strayWarning parent child] else []

theorem placeChild_eq (parent : Widget) (index : Nat) (child : Widget) (node : Node) :
    placeChild parent index child node = (do
      let properties ← lift (placedProperties parent index child node.properties)
      record (strayNotes parent child)
      return { node with properties }) := by
  unfold placeChild placedProperties strayNotes
  by_cases hs : parent.isStack
  · simp only [hs, if_true, Bool.not_true, Bool.false_and, Bool.false_eq_true, if_false,
      record_nil, lift_map, placeInStack]
    cases child.resolvedPosition with
    | none => rfl
    | some position => cases h : node.properties.place position <;> simp [h] <;> rfl
  · simp only [hs, Bool.false_eq_true, if_false, Bool.not_false, Bool.true_and, placeInFlow]
    by_cases ha : child.asksForPlace
    · simp only [ha, if_true]
      cases child.resolvedPosition with
      | none => rfl
      | some position => rfl
    · simp [ha, record_nil, lift_ok]

theorem yields_placeChild {parent child : Widget} {index : Nat} {node placed : Node}
    {run after : Run} :
    (placeChild parent index child node).Yields run placed after ↔
      ∃ p, placedProperties parent index child node.properties = .ok p ∧
        placed = { node with properties := p } ∧ after = run.noting (strayNotes parent child) := by
  rw [placeChild_eq]
  simp only [yields_bind, yields_lift, yields_record, yields_pure]
  constructor
  · rintro ⟨p, _, ⟨hp, rfl⟩, _, _, rfl, rfl, rfl⟩
    exact ⟨p, hp, rfl, rfl⟩
  · rintro ⟨p, hp, rfl, rfl⟩
    exact ⟨p, run, ⟨hp, rfl⟩, (), _, rfl, rfl, rfl⟩

/-! ## What lowering yields -/

theorem yields_lower {w : Widget} {n : Node} {run after : Run} :
    w.lower.Yields run n after ↔
      ∃ p children, w.ownProperties.outcome = .ok p ∧
        w.lowerInner.Yields (run.noting w.ownProperties.notes).counting children after ∧
        w.assemble (nodeId (run.issued + 1)) p children = .ok n := by
  rw [lower_eq_assemble]
  simp only [yields_bind, yields_lift, yields_nextId, w.plain_ownProperties.yields_iff]
  constructor
  · rintro ⟨p, _, ⟨hp, rfl⟩, _, _, ⟨rfl, rfl⟩, children, _, hc, hn, rfl⟩
    exact ⟨p, children, hp, hc, hn⟩
  · rintro ⟨p, children, hp, hc, hn⟩
    exact ⟨p, _, ⟨hp, rfl⟩, _, _, ⟨rfl, rfl⟩, children, _, hc, hn, rfl⟩

theorem yields_lowerChildren_nil {parent : Widget} {index : Nat} {ns : List Node}
    {run after : Run} :
    (lowerChildren parent index []).Yields run ns after ↔ ns = [] ∧ after = run :=
  yields_pure

/-- The nodes of children: those of the first child, placed, and those of the others. -/
theorem yields_lowerChildren_cons {parent child : Widget} {index : Nat} {rest : List Widget}
    {ns : List Node} {run after : Run} :
    (lowerChildren parent index (child :: rest)).Yields run ns after ↔
      ∃ node lowered p others, child.lower.Yields run node lowered ∧
        placedProperties parent index child node.properties = .ok p ∧
        (lowerChildren parent (index + 1) rest).Yields (lowered.noting (strayNotes parent child))
          others after ∧
        ns = { node with properties := p } :: others := by
  rw [lowerChildren]
  simp only [yields_bind, yields_placeChild, yields_pure]
  constructor
  · rintro ⟨node, lowered, hn, _, _, ⟨p, hp, rfl, rfl⟩, others, _, ho, rfl, rfl⟩
    exact ⟨node, lowered, p, others, hn, hp, ho, rfl⟩
  · rintro ⟨node, lowered, p, others, hn, hp, ho, rfl⟩
    exact ⟨node, lowered, hn, _, _, ⟨p, hp, rfl, rfl⟩, others, _, ho, rfl, rfl⟩

/-! ## Induction over lowered trees -/

/-- A child's node as its parent has placed it, where `p` holds of the node before. -/
def PlacedFrom (p : Widget → Node → Prop) (parent child : Widget) (n : Node) : Prop :=
  ∃ node index properties, p child node ∧
    placedProperties parent index child node.properties = .ok properties ∧
    n = { node with properties }

/-- What holds of a node that is put together, as soon as it holds of the nodes of its children
before these are placed, holds of every tree that lowering yields. -/
theorem lower_induct {motive : Widget → Node → Prop}
    (step : ∀ w p id children n, w.ownProperties.outcome = .ok p →
      List.Forall₂ (PlacedFrom motive w) (if w.isLeaf then [] else w.children) children →
      w.assemble id p children = .ok n → motive w n)
    (w : Widget) {run after : Run} {n : Node} (h : w.lower.Yields run n after) : motive w n := by
  induction w using Widget.forest_induct (q := fun cs => ∀ parent index run ns after,
    (lowerChildren parent index cs).Yields run ns after →
      List.Forall₂ (PlacedFrom motive parent) cs ns) generalizing run n after with
  | step w placed =>
    obtain ⟨p, children, hp, hc, hn⟩ := yields_lower.1 h
    refine step w p _ children n hp ?_ hn
    unfold lowerInner at hc
    by_cases hl : w.isLeaf
    · rw [if_pos hl] at hc ⊢
      rw [(yields_pure.1 hc).1]
      exact .nil
    · rw [if_neg hl] at hc ⊢
      exact placed w 0 _ _ _ hc
  | nil parent index run ns after h =>
    rw [(yields_lowerChildren_nil.1 h).1]
    exact .nil
  | cons child rest first others parent index run ns after h =>
    obtain ⟨node, lowered, p, others', hn, hp, ho, rfl⟩ := yields_lowerChildren_cons.1 h
    exact .cons ⟨node, index, p, first hn, hp, rfl⟩ (others _ _ _ _ _ ho)

end DesignTree.Widget
