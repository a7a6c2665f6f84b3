import DesignTree.Proofs.Run.Outcome
import DesignTree.Style.Resolver

/-! # What stylings write on nodes

Whatever a styling writes on a node is an `Edit`: paints and effects that go to the end of the lists
of the node, and values that take the place of those that it had. Edits are put together by `++`,
and the node after two of them is the node after the second one on the node after the first
(`Edit.apply_append`). An edit touches neither the kind of a node nor whether the node has a layout,
which is all that a styling looks at (`Node.Traits`).
-/

namespace DesignTree

open Resolver (TextValue setText setRadius)

variable {α : Type}

/-- A list with more at its end. A list that is not set stays so if there is nothing to add. -/
def extend (old : Option (List α)) (new : List α) : Option (List α) :=
  if new.isEmpty then old else some (old.getD [] ++ new)

@[simp]
theorem extend_some (old new : List α) : extend (some old) new = some (old ++ new) := by
  cases new <;> simp [extend]

@[simp]
theorem extend_extend (old : Option (List α)) (first second : List α) :
    extend (extend old first) second = extend old (first ++ second) := by
  cases first <;> cases second <;> simp [extend]

/-! ## Text properties -/

namespace Resolver.TextValue

/-- What a text shows, with one of its properties set. A value that is refused changes nothing. -/
def write (v : TextValue) (t : NodeText) : NodeText :=
  match setText v { toNodeText := t } with
  | .ok p => p.toNodeText
  | .error _ => t

/-- Whether a value is refused does not hang on the node, and one that is not is written. -/
theorem setText_eq (v : TextValue) (p : NodeProperties) :
    setText v p = (setText v {}).map fun _ => { p with toNodeText := v.write p.toNodeText } := by
  cases v with
  | fontSize n | fontFamily family | fontWeight weight => rfl
  | lineHeight n =>
    simp only [write, setText]
    cases Resolver.lineHeight n <;> rfl
  | letterSpacing n =>
    simp only [write, setText]
    cases Resolver.letterSpacing n <;> rfl

end Resolver.TextValue

/-! ## Corner radii -/

namespace NodePaints

/-- The paints of a node with other corner radii, if there are any. -/
def rounded (p : NodePaints) : Option BorderRadius → NodePaints
  | none => p
  | some radius => (setRadius radius { toNodePaints := p }).toNodePaints

theorem setRadius_eq (radius : BorderRadius) (p : NodeProperties) :
    setRadius radius p = { p with toNodePaints := p.toNodePaints.rounded (some radius) } := by
  simp only [rounded, setRadius]
  split <;> rfl

/-- The paints of a node with other lists and another stroke weight. -/
def withLists (p : NodePaints) (fills strokes : Option (List Paint))
    (effects : Option (List Effect)) (strokeWeight : Option Number) : NodePaints :=
  { p with fills, strokes, effects, strokeWeight }

/-- Corner radii are set apart from all else. -/
theorem withLists_rounded (p : NodePaints) (o : Option BorderRadius) (fills strokes effects)
    (strokeWeight : Option Number) :
    (p.rounded o).withLists fills strokes effects strokeWeight =
      (p.withLists fills strokes effects strokeWeight).rounded o := by
  cases o with
  | none => rfl
  | some radius =>
    simp only [rounded, setRadius]
    split <;> rfl

section

variable (p : NodePaints) (o : Option BorderRadius)

theorem fields_rounded :
    (p.rounded o).fills = p.fills ∧ (p.rounded o).strokes = p.strokes ∧
      (p.rounded o).effects = p.effects ∧ (p.rounded o).strokeWeight = p.strokeWeight := by
  cases o with
  | none => exact ⟨rfl, rfl, rfl, rfl⟩
  | some radius =>
    simp only [rounded, setRadius]
    split <;> exact ⟨rfl, rfl, rfl, rfl⟩

@[simp]
theorem fills_rounded : (p.rounded o).fills = p.fills := (p.fields_rounded o).1

@[simp]
theorem strokes_rounded : (p.rounded o).strokes = p.strokes := (p.fields_rounded o).2.1

@[simp]
theorem effects_rounded : (p.rounded o).effects = p.effects := (p.fields_rounded o).2.2.1

@[simp]
theorem strokeWeight_rounded : (p.rounded o).strokeWeight = p.strokeWeight :=
  (p.fields_rounded o).2.2.2

end

theorem rounded_rounded (p : NodePaints) (first second : Option BorderRadius) :
    (p.rounded first).rounded second = p.rounded (second.or first) := by
  cases second with
  | none => rfl
  | some radius =>
    cases first with
    | none => rfl
    | some other =>
      change (p.rounded (some other)).rounded (some radius) = p.rounded (some radius)
      simp only [rounded, setRadius]
      by_cases hr : radius.isUniform <;> by_cases ho : other.isUniform <;> simp [hr, ho]

end NodePaints

/-! ## Edits -/

/-- What a styling writes on a node. Paints and effects go to the end of the lists of the node. All
else takes the place of what the node had; texts are written one after the other. -/
structure Edit where
  fills : List Paint := []
  strokes : List Paint := []
  effects : List Effect := []
  strokeWeight : Option Number := none
  radius : Option BorderRadius := none
  texts : List TextValue := []
  padding : Option EdgeInsets := none
  margin : Option EdgeInsets := none

namespace Edit

instance : Append Edit where
  append d e := {
    fills := d.fills ++ e.fills
    strokes := d.strokes ++ e.strokes
    effects := d.effects ++ e.effects
    strokeWeight := e.strokeWeight.or d.strokeWeight
    radius := e.radius.or d.radius
    texts := d.texts ++ e.texts
    padding := e.padding.or d.padding
    margin := e.margin.or d.margin }

section

variable (d e : Edit)

@[simp]
theorem fills_append : (d ++ e).fills = d.fills ++ e.fills := rfl

@[simp]
theorem strokes_append : (d ++ e).strokes = d.strokes ++ e.strokes := rfl

@[simp]
theorem effects_append : (d ++ e).effects = d.effects ++ e.effects := rfl

@[simp]
theorem texts_append : (d ++ e).texts = d.texts ++ e.texts := rfl

@[simp]
theorem strokeWeight_append : (d ++ e).strokeWeight = e.strokeWeight.or d.strokeWeight := rfl

@[simp]
theorem radius_append : (d ++ e).radius = e.radius.or d.radius := rfl

@[simp]
theorem padding_append : (d ++ e).padding = e.padding.or d.padding := rfl

@[simp]
theorem margin_append : (d ++ e).margin = e.margin.or d.margin := rfl

end

theorem append_empty (e : Edit) : e ++ {} = e := by
  change Edit.mk .. = e
  simp

theorem empty_append (e : Edit) : {} ++ e = e := by
  change Edit.mk .. = e
  simp

theorem append_assoc (d e f : Edit) : d ++ e ++ f = d ++ (e ++ f) := by
  change Edit.mk .. = Edit.mk ..
  simp [Option.or_assoc]

/-- The paints of a node after an edit. -/
def paints (e : Edit) (p : NodePaints) : NodePaints :=
  (p.withLists (extend p.fills e.fills) (extend p.strokes e.strokes)
    (extend p.effects e.effects) (e.strokeWeight.or p.strokeWeight)).rounded e.radius

/-- What a text shows after an edit. -/
def text (e : Edit) (t : NodeText) : NodeText := e.texts.foldl (fun t v => v.write t) t

/-- A layout after an edit. -/
def layout (e : Edit) (a : AutoLayout) : AutoLayout :=
  let padded :=
    match e.padding with
    | some p => { a with
        paddingTop := p.top, paddingRight := p.right
        paddingBottom := p.bottom, paddingLeft := p.left }
    | none => a
  match e.margin with
  | some m => { padded with itemSpacing := m.maxEdge }
  | none => padded

section

variable (e : Edit) (a : AutoLayout)

@[simp]
theorem layoutMode_layout : (e.layout a).layoutMode = a.layoutMode := by
  unfold layout
  cases e.padding <;> cases e.margin <;> rfl

@[simp]
theorem primaryAxisSizingMode_layout :
    (e.layout a).primaryAxisSizingMode = a.primaryAxisSizingMode := by
  unfold layout
  cases e.padding <;> cases e.margin <;> rfl

/-- A margin is approximated by the gap between the children, as wide as its widest edge. -/
@[simp]
theorem itemSpacing_layout :
    (e.layout a).itemSpacing = (e.margin.map EdgeInsets.maxEdge).getD a.itemSpacing := by
  unfold layout
  cases e.padding <;> cases e.margin <;> rfl

end

/-- The properties of a node after an edit. -/
def properties (e : Edit) (p : NodeProperties) : NodeProperties :=
  { p with toNodePaints := e.paints p.toNodePaints, toNodeText := e.text p.toNodeText }

/-- A node after an edit. -/
def apply (e : Edit) (n : Node) : Node :=
  { n with properties := e.properties n.properties, autoLayout := n.autoLayout.map e.layout }

section

variable (e : Edit) (p : NodePaints)

@[simp]
theorem fills_paints : (e.paints p).fills = extend p.fills e.fills :=
  NodePaints.fills_rounded _ _

@[simp]
theorem strokes_paints : (e.paints p).strokes = extend p.strokes e.strokes :=
  NodePaints.strokes_rounded _ _

@[simp]
theorem effects_paints : (e.paints p).effects = extend p.effects e.effects :=
  NodePaints.effects_rounded _ _

@[simp]
theorem strokeWeight_paints : (e.paints p).strokeWeight = e.strokeWeight.or p.strokeWeight :=
  NodePaints.strokeWeight_rounded _ _

/-- The paints after an edit with other lists and another stroke weight. -/
theorem withLists_paints (fills strokes effects) (strokeWeight : Option Number) :
    (e.paints p).withLists fills strokes effects strokeWeight =
      (p.withLists fills strokes effects strokeWeight).rounded e.radius :=
  NodePaints.withLists_rounded _ _ _ _ _ _

end

theorem paints_append (d e : Edit) (p : NodePaints) :
    (d ++ e).paints p = e.paints (d.paints p) := by
  rw [paints, paints, withLists_paints, NodePaints.rounded_rounded]
  simp [Option.or_assoc]

theorem layout_append (d e : Edit) (a : AutoLayout) :
    (d ++ e).layout a = e.layout (d.layout a) := by
  obtain ⟨_, _, _, _, _, _, padding, margin⟩ := d
  obtain ⟨_, _, _, _, _, _, padding', margin'⟩ := e
  cases padding <;> cases margin <;> cases padding' <;> cases margin' <;> rfl

theorem text_append (d e : Edit) (t : NodeText) : (d ++ e).text t = e.text (d.text t) :=
  List.foldl_append

/-- An edit without spacing leaves the layout of a node alone. -/
theorem apply_of_unspaced {e : Edit} (hp : e.padding = none) (hm : e.margin = none) (n : Node) :
    e.apply n = { n with properties := e.properties n.properties } := by
  have layouts : e.layout = id := by
    funext a
    unfold layout
    rw [hp, hm]
    rfl
  rw [apply, layouts, Option.map_id_fun, id]

theorem apply_empty (n : Node) : ({} : Edit).apply n = n := by
  rw [apply_of_unspaced rfl rfl]
  cases n
  rfl

/-- The node after two edits is the node after the second one on the node after the first. -/
theorem apply_append (d e : Edit) (n : Node) : (d ++ e).apply n = e.apply (d.apply n) := by
  have layouts : (d ++ e).layout = e.layout ∘ d.layout := funext (layout_append d e)
  unfold apply properties
  simp only [paints_append, text_append, layouts, Option.map_map]

end Edit

/-! ## Lists of nodes -/

/-- A node with other lists of paints and effects. -/
def Node.withLists (n : Node) (fills strokes : Option (List Paint))
    (effects : Option (List Effect)) : Node :=
  { n with properties := { n.properties with fills, strokes, effects } }

/-- An edit adds to the lists that it finds, and does all else whatever these are. -/
theorem Edit.apply_withLists (e : Edit) (n : Node) (fills strokes : Option (List Paint))
    (effects : Option (List Effect)) :
    e.apply (n.withLists fills strokes effects) =
      (e.apply n).withLists (extend fills e.fills) (extend strokes e.strokes)
        (extend effects e.effects) := by
  let p := n.properties.toNodePaints
  have paints : e.paints (p.withLists fills strokes effects p.strokeWeight) =
      (e.paints p).withLists (extend fills e.fills) (extend strokes e.strokes)
        (extend effects e.effects) (e.paints p).strokeWeight := by
    rw [withLists_paints, strokeWeight_paints]
    rfl
  exact congrArg (fun paints : NodePaints => { e.apply n with
    properties := { e.properties n.properties with toNodePaints := paints } }) paints

/-! ## What a styling looks at -/

/-- What a styling looks at of a node: its kind, and whether it has an automatic layout. -/
structure Node.Traits where
  kind : NodeKind
  laidOut : Bool

/-- The traits of a node. -/
def Node.traits (n : Node) : Node.Traits := ⟨n.kind, n.autoLayout.isSome⟩

@[simp]
theorem Edit.traits_apply (e : Edit) (n : Node) : (e.apply n).traits = n.traits := by
  simp [Node.traits, apply]

end DesignTree
