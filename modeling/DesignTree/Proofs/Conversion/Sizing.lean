import DesignTree.Proofs.Conversion.Along
import DesignTree.Proofs.Lowering.Arrangement
import DesignTree.Proofs.Lowering.Growth
import DesignTree.Proofs.Lowering.Paints
import DesignTree.Proofs.Style.Aspect

/-! # Sizes and corners of converted nodes

A dimension of a fixed size has one, and the corners of a node have one radius together or one each
(`Node.WellSized`). Lowering fixes a size only where a layout gives it. The later steps of a
conversion take no size away, fix none and set radii for all corners at once: the place of a child,
styling, the name of a component, and an instance in the place of a node.
-/

namespace DesignTree

open Layout (fixedSizing)

/-- The radii of the single corners. -/
def NodePaints.corners (p : NodePaints) : List (Option Number) :=
  [p.topLeftRadius, p.topRightRadius, p.bottomLeftRadius, p.bottomRightRadius]

/-- The corners have no radii of their own, or they have all one and there is none for all. -/
def NodePaints.WellRounded (p : NodePaints) : Prop :=
  (∀ r ∈ p.corners, r = none) ∨ p.cornerRadius = none ∧ ∀ r ∈ p.corners, r.isSome = true

theorem NodePaints.WellRounded.rounded {p : NodePaints} (h : p.WellRounded)
    (radius : Option BorderRadius) : (p.rounded radius).WellRounded := by
  cases radius with
  | none => exact h
  | some radius =>
    simp only [NodePaints.rounded, Resolver.setRadius]
    by_cases hu : radius.isUniform
    · rw [if_pos hu]
      exact .inl (by simp [corners])
    · rw [if_neg hu]
      exact .inr ⟨rfl, by simp [corners]⟩

/-- The size along the direction of an automatic layout. -/
def NodeGeometry.sizeAlong (g : NodeGeometry) : LayoutMode → Option Number
  | .horizontal => g.width
  | .vertical => g.height
  | .none => none

/-- A node that has a size wherever this is fixed, and whose corners are well rounded. -/
structure Node.WellSized (n : Node) : Prop where
  horizontal : n.properties.layoutSizingHorizontal = some fixedSizing →
    n.properties.width.isSome = true
  vertical : n.properties.layoutSizingVertical = some fixedSizing →
    n.properties.height.isSome = true
  primary : ∀ auto, n.autoLayout = some auto → auto.primaryAxisSizingMode = .fixed →
    (n.properties.sizeAlong auto.layoutMode).isSome = true
  corners : n.properties.WellRounded

/-- A node has at least the sizes of another one, and fixes no more of them. -/
structure Node.SizedAs (m n : Node) : Prop where
  width : n.properties.width.isSome = true → m.properties.width.isSome = true
  height : n.properties.height.isSome = true → m.properties.height.isSome = true
  horizontal : m.properties.layoutSizingHorizontal = some fixedSizing →
    n.properties.layoutSizingHorizontal = some fixedSizing
  vertical : m.properties.layoutSizingVertical = some fixedSizing →
    n.properties.layoutSizingVertical = some fixedSizing
  primary : ∀ auto, m.autoLayout = some auto → ∃ before, n.autoLayout = some before ∧
    before.layoutMode = auto.layoutMode ∧
    before.primaryAxisSizingMode = auto.primaryAxisSizingMode

theorem Node.WellSized.of_sizedAs {m n : Node} (h : n.WellSized) (hm : m.SizedAs n)
    (corners : m.properties.WellRounded) : m.WellSized := by
  refine ⟨fun fixed => ?_, fun fixed => ?_, fun auto ha fixed => ?_, corners⟩
  · exact hm.width (h.horizontal (hm.horizontal fixed))
  · exact hm.height (h.vertical (hm.vertical fixed))
  · obtain ⟨before, hb, mode, sizing⟩ := hm.primary auto ha
    have sized := h.primary before hb (sizing.trans fixed)
    rw [mode] at sized
    cases hd : auto.layoutMode with
    | horizontal =>
      rw [hd] at sized
      exact hm.width sized
    | vertical =>
      rw [hd] at sized
      exact hm.height sized
    | none =>
      rw [hd] at sized
      cases sized

/-! ## Lowering -/

namespace Widget

open InRun

/-- With the bounds of a layout a node has the sizes that these fix. -/
theorem sized_bounded {w : Widget} {p : NodeProperties} (hp : p.stretch = {}) :
    ((w.bounded p).layoutSizingHorizontal = some fixedSizing →
        (w.bounded p).width.isSome = true) ∧
      ((w.bounded p).layoutSizingVertical = some fixedSizing →
        (w.bounded p).height.isSome = true) := by
  obtain ⟨-, horizontal, vertical⟩ := Stretch.mk.injEq .. ▸ hp
  have unsized : (p.layoutSizingHorizontal = some fixedSizing → p.width.isSome = true) ∧
      (p.layoutSizingVertical = some fixedSizing → p.height.isSome = true) := by
    rw [horizontal, vertical]
    exact ⟨nofun, nofun⟩
  unfold bounded
  cases w.isLeaf with
  | true => exact unsized
  | false =>
    cases w.layout with
    | none => exact unsized
    | some l =>
      constructor
      · intro fixed
        cases hl : l.width <;> simp_all [Layout.applyBounds]
      · intro fixed
        cases hl : l.height <;> simp_all [Layout.applyBounds]

/-- Along its direction an automatic layout has a fixed size only if the layout hint gives it. -/
theorem primary_bounded {w : Widget} {l : Layout} {auto : AutoLayout} (hw : w.isLeaf = false)
    (hl : w.layout = some l) (ha : l.toAutoLayout = .ok auto)
    (fixed : auto.primaryAxisSizingMode = .fixed) (p : NodeProperties) :
    ((w.bounded p).sizeAlong auto.layoutMode).isSome = true := by
  rw [Layout.eq_of_toAutoLayout ha] at fixed ⊢
  have given : l.primarySize.isSome = true := by
    by_contra hn
    rw [if_neg hn] at fixed
    cases fixed
  rw [bounded, hw, hl]
  unfold Layout.primarySize at given
  unfold NodeGeometry.sizeAlong
  cases hm : l.mode <;> simp_all [Layout.applyBounds]

theorem wellSized_of_assemble {w : Widget} {p : NodeProperties} {id : Text} {ms : List Node}
    {n : Node} (hp : w.ownProperties.outcome = .ok p) (hn : w.assemble id p ms = .ok n) :
    n.WellSized := by
  obtain ⟨-, auto⟩ := parts_of_assemble hn
  obtain ⟨horizontal, vertical⟩ := sized_bounded (w := w) (stretch_of_ownProperties hp)
  obtain ⟨geometry, mode, wrap, spacing, between, flow⟩ := bounded_of_assemble hn
  refine ⟨?_, ?_, fun a ha fixed => ?_, .inl ?_⟩
  · rw [flow, geometry]
    exact horizontal
  · rw [flow, geometry]
    exact vertical
  · rw [geometry]
    rcases autoLayout?_cases auto with ⟨l, b, leaf, -, hl, hb, same⟩ | ⟨-, none⟩
    · obtain rfl : b = a := Option.some.inj (same.symm.trans ha)
      exact primary_bounded leaf hl hb fixed p
    · cases none.symm.trans ha
  · rw [paints_of_assemble hn, (sized_of_ownProperties hp).2.2]
    simp [NodePaints.corners]

/-- A child that grows is not fixed along the axis that it fills. -/
theorem fixed_of_grown {s : Stretch} {child : Widget} {axis : Option Axis} {a : Axis}
    (h : (s.grown child axis).sizing a = some fixedSizing) : s.sizing a = some fixedSizing := by
  have different : some NodeProperties.fillSizing ≠ some fixedSizing := by decide
  unfold Stretch.grown at h
  split at h
  · cases a with
    | horizontal => exact absurd h different
    | vertical => exact h
  · cases a with
    | horizontal => exact h
    | vertical => exact absurd h different
  · exact h

/-- The place that a parent gives a node takes no size away, and it fixes none. -/
theorem wellSized_of_placedProperties {parent w : Widget} {index : Nat} {n : Node}
    {p : NodeProperties} (hp : placedProperties parent index w n.properties = .ok p)
    (h : n.WellSized) : Node.WellSized { n with properties := p } := by
  have fixed (a : Axis) (ha : p.stretch.sizing a = some fixedSizing) :
      n.properties.stretch.sizing a = some fixedSizing := by
    rw [stretch_of_placedProperties hp] at ha
    split at ha
    · exact ha
    · exact fixed_of_grown ha
  obtain ⟨x, y, constraints, placed⟩ := exists_of_placedProperties hp
  refine h.of_sizedAs ⟨fun given => ?_, fun given => ?_, fixed .horizontal, fixed .vertical,
    fun auto ha => ⟨auto, ha, rfl, rfl⟩⟩ ?_
  · simp [placed, given]
  · simp [placed, given]
  · rw [NodePaints.WellRounded, paints_of_placedProperties hp]
    exact h.corners

theorem wellSized_of_yields (w : Widget) {run after : Run} {n : Node}
    (h : w.lower.Yields run n after) : Along (fun _ m => m.WellSized) w.pruned n := by
  refine along_of_made ?_ ?_ w h
  · exact fun _ _ _ _ _ hp hm => wellSized_of_assemble hp hm
  · exact fun _ _ _ _ _ hp hm => wellSized_of_placedProperties hp hm

end Widget

/-! ## Conversions -/

theorem Edit.wellRounded_paints (e : Edit) {p : NodePaints} (h : p.WellRounded) :
    (e.paints p).WellRounded := by
  unfold paints
  refine NodePaints.WellRounded.rounded ?_ e.radius
  exact h

/-- A styling leaves the sizes of a node alone, and gives all its corners one radius or one each. -/
theorem Resolver.wellSized_style (r : Resolver) (w : Widget) {n : Node} (h : n.WellSized) :
    (r.style w n).node.WellSized := by
  have node : (r.style w n).node = _ := r.node_applyStyles w.styling n
  rw [node]
  refine h.of_sizedAs ⟨fun given => given, fun given => given, fun fixed => fixed,
    fun fixed => fixed, fun auto ha => ?_⟩ ?_
  · obtain ⟨before, hb, rfl⟩ := Option.map_eq_some_iff.1 ha
    exact ⟨before, hb, (Edit.layoutMode_layout _ before).symm,
      (Edit.primaryAxisSizingMode_layout _ before).symm⟩
  · exact Edit.wellRounded_paints _ h.corners

/-- An instance is as large as the node was that it takes the place of, or as it asks for. -/
theorem BuiltComponent.wellSized_of_instanceProperties {b : BuiltComponent} {w : Widget} {n : Node}
    {own : NodeProperties} {id : Option Text} {name : Text} (hp : b.instanceProperties w = .ok own)
    (h : n.WellSized) :
    Node.WellSized { id, kind := .componentInstance, name,
                     properties := own.inPlaceOf n.properties, widgetId := some w.id } := by
  refine h.of_sizedAs ⟨fun given => ?_, fun given => ?_, fun fixed => fixed, fun fixed => fixed,
    fun auto ha => ?_⟩ ?_
  · simp [NodeProperties.inPlaceOf, given]
  · simp [NodeProperties.inPlaceOf, given]
  · cases ha
  · rw [eq_of_instanceProperties hp]
    exact .inl (by simp [NodePaints.corners, NodeProperties.inPlaceOf])

namespace Converter

/-- **Fixed sizing has a size.** In all trees of a conversion, those of the components and the
instances included, a node has the dimensions that are fixed, and that of its automatic layout if it
is fixed along its direction. Its corners have one radius together or one each, and not both. -/
theorem wellSized_of_convert (c : Converter) (root : Widget) (theme : Option Theme)
    (ds : List Definition) (modes : Entries Theme) (r : Conversion)
    (h : c.convert root theme ds modes = .ok r) :
    ∀ t ∈ r.root :: r.components.flatMap Component.nodeSpecs, ∀ n ∈ t.walk, n.WellSized := by
  have along : r.Along (fun _ n => n.WellSized) root ds := by
    refine along_of_convert (p := fun _ n => n.WellSized) ⟨fun _ _ _ hn => hn, ?_⟩
      (fun w _ _ _ hn => w.wellSized_of_yields hn) (fun r w _ hn => r.wellSized_style w hn) ?_
      (fun _ _ _ _ _ _ hp hn => BuiltComponent.wellSized_of_instanceProperties hp hn) h
    · exact fun _ _ _ hn => ⟨hn.horizontal, hn.vertical, hn.primary, hn.corners⟩
    · exact fun _ _ _ _ _ hn => ⟨hn.horizontal, hn.vertical, hn.primary, hn.corners⟩
  intro t ht n hn
  obtain ⟨-, sized⟩ := along.exists_widget t ht n hn
  exact sized

theorem wellSized_of_convert_card :
    let save : Widget := { id := "save", kind := .button,
                           layout := some { kind := .row, width := some 96 } }
    let card : Widget := { id := "card", kind := .card,
                           layout := some { kind := .column, width := some 320,
                                            height := some 200 },
                           styling := {
                             givenBorders := some (some { radius := some ⟨8, 8, 0, 0⟩ }) },
                           children := [save] }
    let button : Definition := { widget := save, name := "Button", usageIds := ["save"] }
    let c : Converter := ⟨{}, .ofNat 4, .text "Library", .text "1"⟩
    ∃ r, c.convert card none [button] = .ok r ∧
      ∀ t ∈ r.root :: r.components.flatMap Component.nodeSpecs, ∀ n ∈ t.walk, n.WellSized := by
  intro save card button c
  obtain ⟨r, h⟩ := isOk_iff.1 (by decide +kernel : (c.convert card none [button]).isOk)
  exact ⟨r, h, wellSized_of_convert c card none [button] [] r h⟩

end Converter

end DesignTree
