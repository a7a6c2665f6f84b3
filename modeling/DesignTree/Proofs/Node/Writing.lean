import DesignTree.Proofs.Data.Encodable
import DesignTree.Proofs.Node.Paint
import DesignTree.Proofs.Number.Basic
import DesignTree.Proofs.Tree.Basic
import Mathlib.Data.List.Basic

/-! # Reading node trees back

A node is written with doubles for all its lengths, and the overrides of an instance are written
with names and numbers that a document can hold. What is read back has just these in place of the
former (`Node.written`), is itself written in the same way (`Node.toValue_written`), and can always
be written (`Node.fits_written`).
-/

namespace DesignTree

open Fields

/-! ## Lengths -/

theorem ReadsBack.length : ReadsBack Number.toLength Decoded.float Number.asLength :=
  ⟨fun _ => rfl, fun _ => rfl⟩

@[simp]
theorem Number.toLength_asLength (n : Number) : n.asLength.toLength = n.toLength := rfl

@[simp]
theorem optionalField_toLength (name : Text) (o : Option Number) :
    optionalField name Number.toLength (o.map Number.asLength) =
      optionalField name Number.toLength o := by
  cases o <;> rfl

/-- Lengths that were read back can be written. -/
theorem fits_asLength (os : List (Option Number)) :
    ((os.map (Option.map Number.asLength)).filterMap id).all Number.fitsDouble = true := by
  rw [List.all_eq_true]
  intro n hn
  obtain ⟨o, ho, hid⟩ := List.mem_filterMap.1 hn
  obtain ⟨o', -, rfl⟩ := List.mem_map.1 ho
  obtain ⟨m, -, rfl⟩ := Option.map_eq_some_iff.1 hid
  rfl

/-! ## Properties -/

namespace NodeGeometry

def keys : List Key :=
  [.word "x", .word "y", .word "width", .word "height", ⟨"minWidth", "min_width"⟩,
    ⟨"maxWidth", "max_width"⟩, ⟨"minHeight", "min_height"⟩, ⟨"maxHeight", "max_height"⟩,
    ⟨"zIndex", "z_index"⟩, .word "constraints", .word "visible", .word "locked"]

def slots (g : NodeGeometry) : List FieldSlot :=
  keys.zip [g.x.map Number.toLength, g.y.map Number.toLength, g.width.map Number.toLength,
    g.height.map Number.toLength, g.minWidth.map Number.toLength, g.maxWidth.map Number.toLength,
    g.minHeight.map Number.toLength, g.maxHeight.map Number.toLength,
    g.zIndex.map fun n => .number (.int n), g.constraints.map Constraints.toValue,
    g.visible.map .bool, g.locked.map .bool]

/-- The geometry as it is read back. -/
def written (g : NodeGeometry) : NodeGeometry :=
  { g with
    x := g.x.map Number.asLength
    y := g.y.map Number.asLength
    width := g.width.map Number.asLength
    height := g.height.map Number.asLength
    minWidth := g.minWidth.map Number.asLength
    maxWidth := g.maxWidth.map Number.asLength
    minHeight := g.minHeight.map Number.asLength
    maxHeight := g.maxHeight.map Number.asLength }

theorem fields_eq (g : NodeGeometry) : g.fields = ofSlots g.slots := by
  simp [fields, slots, keys, ofSlots]

theorem fields_written (g : NodeGeometry) : g.written.fields = g.fields := by
  simp [fields, written]

theorem decode_of_shows {g : NodeGeometry} {fs : Fields} (h : fs.Shows g.slots) :
    decode fs = .ok g.written := by
  simp only [slots, keys, List.zip_cons_cons, shows_cons] at h
  obtain ⟨x, y, width, height, minWidth, maxWidth, minHeight, maxHeight, zIndex, constraints,
    visible, locked, -⟩ := h
  rw [decode, optional_of_shown .length x, optional_of_shown .length y,
    optional_of_shown .length width, optional_of_shown .length height,
    optional_of_shown .length minWidth, optional_of_shown .length maxWidth,
    optional_of_shown .length minHeight, optional_of_shown .length maxHeight,
    optional_of_shown .int zIndex, optional_of_shown Constraints.readsBack constraints,
    optional_of_shown .bool visible, optional_of_shown .bool locked]
  simp [written]

theorem fits_written (g : NodeGeometry) : g.written.lengths.all Number.fitsDouble = true :=
  fits_asLength [g.x, g.y, g.width, g.height, g.minWidth, g.maxWidth, g.minHeight, g.maxHeight]

end NodeGeometry

namespace NodePaints

def keys : List Key :=
  [.word "fills", .word "strokes", ⟨"strokeWeight", "stroke_weight"⟩,
    ⟨"cornerRadius", "corner_radius"⟩, ⟨"topLeftRadius", "top_left_radius"⟩,
    ⟨"topRightRadius", "top_right_radius"⟩, ⟨"bottomLeftRadius", "bottom_left_radius"⟩,
    ⟨"bottomRightRadius", "bottom_right_radius"⟩, .word "effects"]

def slots (p : NodePaints) : List FieldSlot :=
  keys.zip [p.fills.map fun ps => .list (ps.map Paint.toValue),
    p.strokes.map fun ps => .list (ps.map Paint.toValue), p.strokeWeight.map Number.toLength,
    p.cornerRadius.map Number.toLength, p.topLeftRadius.map Number.toLength,
    p.topRightRadius.map Number.toLength, p.bottomLeftRadius.map Number.toLength,
    p.bottomRightRadius.map Number.toLength,
    p.effects.map fun es => .list (es.map Effect.toValue)]

/-- The paints as they are read back. -/
def written (p : NodePaints) : NodePaints :=
  { p with
    strokeWeight := p.strokeWeight.map Number.asLength
    cornerRadius := p.cornerRadius.map Number.asLength
    topLeftRadius := p.topLeftRadius.map Number.asLength
    topRightRadius := p.topRightRadius.map Number.asLength
    bottomLeftRadius := p.bottomLeftRadius.map Number.asLength
    bottomRightRadius := p.bottomRightRadius.map Number.asLength }

theorem fields_eq (p : NodePaints) : p.fields = ofSlots p.slots := by
  simp [fields, slots, keys, ofSlots]

theorem fields_written (p : NodePaints) : p.written.fields = p.fields := by
  simp [fields, written]

theorem decode_of_shows {p : NodePaints} {fs : Fields} (h : fs.Shows p.slots) :
    decode fs = .ok p.written := by
  simp only [slots, keys, List.zip_cons_cons, shows_cons] at h
  obtain ⟨fills, strokes, weight, radius, topLeft, topRight, bottomLeft, bottomRight, effects, -⟩ :=
    h
  rw [decode, optional_of_shown Paint.readsBack.list fills,
    optional_of_shown Paint.readsBack.list strokes, optional_of_shown .length weight,
    optional_of_shown .length radius, optional_of_shown .length topLeft,
    optional_of_shown .length topRight, optional_of_shown .length bottomLeft,
    optional_of_shown .length bottomRight, optional_of_shown Effect.readsBack.list effects]
  simp [written]

theorem fits_written (p : NodePaints) : p.written.lengths.all Number.fitsDouble = true :=
  fits_asLength [p.strokeWeight, p.cornerRadius, p.topLeftRadius, p.topRightRadius,
    p.bottomLeftRadius, p.bottomRightRadius]

end NodePaints

theorem LayoutMode.readsBack : ReadsBack .ofSpelled (Decoded.spelled (α := LayoutMode)) id :=
  .spelled fun a => by cases a <;> rfl

namespace NodeFlow

def keys : List Key :=
  [⟨"clipsContent", "clips_content"⟩, ⟨"layoutMode", "layout_mode"⟩,
    ⟨"layoutWrap", "layout_wrap"⟩, ⟨"itemSpacing", "item_spacing"⟩,
    ⟨"counterAxisSpacing", "counter_axis_spacing"⟩, ⟨"layoutGrow", "layout_grow"⟩,
    ⟨"layoutSizingHorizontal", "layout_sizing_horizontal"⟩,
    ⟨"layoutSizingVertical", "layout_sizing_vertical"⟩]

def slots (f : NodeFlow) : List FieldSlot :=
  keys.zip [f.clipsContent.map .bool, f.layoutMode.map .ofSpelled, f.layoutWrap.map .text,
    f.itemSpacing.map Number.toLength, f.counterAxisSpacing.map Number.toLength,
    f.layoutGrow.map Number.toLength, f.layoutSizingHorizontal.map .text,
    f.layoutSizingVertical.map .text]

/-- The flow as it is read back. -/
def written (f : NodeFlow) : NodeFlow :=
  { f with
    itemSpacing := f.itemSpacing.map Number.asLength
    counterAxisSpacing := f.counterAxisSpacing.map Number.asLength
    layoutGrow := f.layoutGrow.map Number.asLength }

theorem fields_eq (f : NodeFlow) : f.fields = ofSlots f.slots := by
  simp [fields, slots, keys, ofSlots]

theorem fields_written (f : NodeFlow) : f.written.fields = f.fields := by
  simp [fields, written]

theorem decode_of_shows {f : NodeFlow} {fs : Fields} (h : fs.Shows f.slots) :
    decode fs = .ok f.written := by
  simp only [slots, keys, List.zip_cons_cons, shows_cons] at h
  obtain ⟨clips, mode, wrap, spacing, between, grow, horizontal, vertical, -⟩ := h
  rw [decode, optional_of_shown .bool clips, optional_of_shown LayoutMode.readsBack mode,
    optional_of_shown .text wrap, optional_of_shown .length spacing,
    optional_of_shown .length between, optional_of_shown .length grow,
    optional_of_shown .text horizontal, optional_of_shown .text vertical]
  simp [written]

theorem fits_written (f : NodeFlow) : f.written.lengths.all Number.fitsDouble = true :=
  fits_asLength [f.itemSpacing, f.counterAxisSpacing, f.layoutGrow]

end NodeFlow

namespace NodeText

def keys : List Key :=
  [.word "characters", ⟨"fontSize", "font_size"⟩, ⟨"fontName", "font_name"⟩,
    ⟨"textAlignHorizontal", "text_align_horizontal"⟩, ⟨"lineHeight", "line_height"⟩,
    ⟨"letterSpacing", "letter_spacing"⟩]

def slots (t : NodeText) : List FieldSlot :=
  keys.zip [t.characters.map .text, t.fontSize.map Number.toLength,
    t.fontName.map FontName.toValue, t.textAlignHorizontal.map .text,
    t.lineHeight.map Measure.toValue, t.letterSpacing.map Measure.toValue]

/-- The text as it is read back. -/
def written (t : NodeText) : NodeText := { t with fontSize := t.fontSize.map Number.asLength }

theorem fields_eq (t : NodeText) : t.fields = ofSlots t.slots := by
  simp [fields, slots, keys, ofSlots]

theorem fields_written (t : NodeText) : t.written.fields = t.fields := by
  simp [fields, written]

theorem decode_of_shows {t : NodeText} {fs : Fields} (h : fs.Shows t.slots) :
    decode fs = .ok t.written := by
  simp only [slots, keys, List.zip_cons_cons, shows_cons] at h
  obtain ⟨characters, size, font, align, lineHeight, letterSpacing, -⟩ := h
  rw [decode, optional_of_shown .text characters, optional_of_shown .length size,
    optional_of_shown FontName.readsBack font, optional_of_shown .text align,
    optional_of_shown Measure.readsBack_lineHeight lineHeight,
    optional_of_shown Measure.readsBack_letterSpacing letterSpacing]
  simp [written]

theorem fits_written (t : NodeText) : t.written.lengths.all Number.fitsDouble = true := by
  unfold lengths written
  cases t.fontSize <;> rfl

end NodeText

namespace NodeLink

def keys : List Key :=
  [.word "description", ⟨"componentId", "component_id"⟩, .word "overrides"]

def slots (l : NodeLink) : List FieldSlot :=
  keys.zip [l.description.map .text, l.componentId.map .text, l.overrides.map Fields.toEncodable]

/-- The link as it is read back. -/
def written (l : NodeLink) : NodeLink :=
  { l with overrides := l.overrides.map fun fs => (Fields.toEncodable fs).fields }

theorem readsBack_overrides :
    ReadsBack Fields.toEncodable (Decoded.mapOf .any) fun fs => (Fields.toEncodable fs).fields := by
  have entries (fs : Fields) : Decoded.entries Decoded.any fs = .ok fs := by
    induction fs with
    | nil => rfl
    | cons e rest ih => rw [Decoded.entries, ih]; rfl
  exact ⟨fun fs => entries _, fun _ => rfl⟩

theorem fields_eq (l : NodeLink) : l.fields = ofSlots l.slots := by
  simp [fields, slots, keys, ofSlots]

theorem fields_written (l : NodeLink) : l.written.fields = l.fields := by
  have again (fs : Fields) :
      Fields.toEncodable (Fields.toEncodable fs).fields = Fields.toEncodable fs :=
    Value.toEncodable_toEncodable (.record fs)
  obtain ⟨description, componentId, overrides⟩ := l
  cases overrides with
  | none => rfl
  | some fs => simp [fields, written, again]

theorem decode_of_shows {l : NodeLink} {fs : Fields} (h : fs.Shows l.slots) :
    decode fs = .ok l.written := by
  simp only [slots, keys, List.zip_cons_cons, shows_cons] at h
  obtain ⟨description, componentId, overrides, -⟩ := h
  rw [decode, optional_of_shown .text description, optional_of_shown .text componentId,
    optional_of_shown readsBack_overrides overrides]
  simp [written]

end NodeLink

namespace NodeProperties

def keys : List Key :=
  NodeGeometry.keys ++ NodePaints.keys ++ NodeFlow.keys ++ NodeText.keys ++ NodeLink.keys

def slots (p : NodeProperties) : List FieldSlot :=
  p.toNodeGeometry.slots ++ p.toNodePaints.slots ++ p.toNodeFlow.slots ++ p.toNodeText.slots ++
    p.toNodeLink.slots

/-- The properties as they are read back. -/
def written (p : NodeProperties) : NodeProperties :=
  ⟨p.toNodeGeometry.written, p.toNodePaints.written, p.toNodeFlow.written, p.toNodeText.written,
    p.toNodeLink.written⟩

theorem separate : Key.Separate keys := by
  simp [Key.Separate, keys, NodeGeometry.keys, NodePaints.keys, NodeFlow.keys, NodeText.keys,
    NodeLink.keys, Text.ofString_inj]

theorem toValue_eq (p : NodeProperties) : p.toValue = .record (ofSlots p.slots) := by
  simp only [toValue, slots, ofSlots_append, NodeGeometry.fields_eq, NodePaints.fields_eq,
    NodeFlow.fields_eq, NodeText.fields_eq, NodeLink.fields_eq]

theorem toValue_written (p : NodeProperties) : p.written.toValue = p.toValue := by
  simp only [toValue, written, NodeGeometry.fields_written, NodePaints.fields_written,
    NodeFlow.fields_written, NodeText.fields_written, NodeLink.fields_written]

theorem readsBack : ReadsBack toValue decode written := by
  refine .record keys slots separate (fun _ => rfl) toValue_eq ?_
  intro p fs shown
  simp only [slots, shows_append] at shown
  obtain ⟨⟨⟨⟨geometry, paints⟩, flow⟩, text⟩, link⟩ := shown
  rw [NodeGeometry.decode_of_shows geometry, NodePaints.decode_of_shows paints,
    NodeFlow.decode_of_shows flow, NodeText.decode_of_shows text, NodeLink.decode_of_shows link]
  rfl

theorem fits_written (p : NodeProperties) : p.written.lengths.all Number.fitsDouble = true := by
  simp only [lengths, List.all_append, Bool.and_eq_true]
  exact ⟨⟨⟨p.toNodeGeometry.fits_written, p.toNodePaints.fits_written⟩,
    p.toNodeFlow.fits_written⟩, p.toNodeText.fits_written⟩

end NodeProperties

/-! ## Layouts and bindings -/

theorem AxisSizing.readsBack : ReadsBack .ofSpelled (Decoded.spelled (α := AxisSizing)) id :=
  .spelled fun a => by cases a <;> rfl

theorem AxisAlign.readsBack : ReadsBack .ofSpelled (Decoded.spelled (α := AxisAlign)) id :=
  .spelled fun a => by cases a <;> rfl

namespace AutoLayout

def keys : List Key :=
  [⟨"layoutMode", "layout_mode"⟩, ⟨"primaryAxisSizingMode", "primary_axis_sizing_mode"⟩,
    ⟨"counterAxisSizingMode", "counter_axis_sizing_mode"⟩,
    ⟨"primaryAxisAlignItems", "primary_axis_align_items"⟩,
    ⟨"counterAxisAlignItems", "counter_axis_align_items"⟩, ⟨"paddingLeft", "padding_left"⟩,
    ⟨"paddingRight", "padding_right"⟩, ⟨"paddingTop", "padding_top"⟩,
    ⟨"paddingBottom", "padding_bottom"⟩, ⟨"itemSpacing", "item_spacing"⟩]

def slots (a : AutoLayout) : List FieldSlot :=
  keys.zip [some (.ofSpelled a.layoutMode), some (.ofSpelled a.primaryAxisSizingMode),
    some (.ofSpelled a.counterAxisSizingMode), some (.ofSpelled a.primaryAxisAlignItems),
    some (.ofSpelled a.counterAxisAlignItems), some a.paddingLeft.toLength,
    some a.paddingRight.toLength, some a.paddingTop.toLength, some a.paddingBottom.toLength,
    some a.itemSpacing.toLength]

/-- The layout as it is read back. -/
def written (a : AutoLayout) : AutoLayout :=
  { a with
    paddingLeft := a.paddingLeft.asLength
    paddingRight := a.paddingRight.asLength
    paddingTop := a.paddingTop.asLength
    paddingBottom := a.paddingBottom.asLength
    itemSpacing := a.itemSpacing.asLength }

theorem toValue_written (a : AutoLayout) : a.written.toValue = a.toValue := rfl

theorem fits_written (a : AutoLayout) : a.written.lengths.all Number.fitsDouble = true := rfl

theorem readsBack : ReadsBack toValue decode written := by
  refine .record keys slots (by simp [Key.Separate, keys, Text.ofString_inj]) (fun _ => rfl)
    (fun _ => rfl) ?_
  intro a fs shown
  simp only [slots, keys, List.zip_cons_cons, shows_cons] at shown
  obtain ⟨mode, primarySizing, counterSizing, primaryAlign, counterAlign, left, right, top, bottom,
    spacing, -⟩ := shown
  rw [orElse_of_shown LayoutMode.readsBack _ mode,
    orElse_of_shown AxisSizing.readsBack _ primarySizing,
    orElse_of_shown AxisSizing.readsBack _ counterSizing,
    orElse_of_shown AxisAlign.readsBack _ primaryAlign,
    orElse_of_shown AxisAlign.readsBack _ counterAlign, orElse_of_shown .length _ left,
    orElse_of_shown .length _ right, orElse_of_shown .length _ top,
    orElse_of_shown .length _ bottom, orElse_of_shown .length _ spacing]
  rfl

end AutoLayout

namespace Binding

def keys : List Key :=
  [⟨"targetProperty", "target_property"⟩, ⟨"variableId", "variable_id"⟩,
    ⟨"variableAlias", "variable_alias"⟩]

def slots (b : Binding) : List FieldSlot :=
  keys.zip [some (.text b.targetProperty), some (.text b.variableId), b.variableAlias.map .text]

theorem toValue_eq (b : Binding) : b.toValue = .record (ofSlots b.slots) := by
  simp [toValue, slots, keys, ofSlots, field]

theorem readsBack : ReadsBack toValue decode id := by
  refine .record keys slots (by simp [Key.Separate, keys, Text.ofString_inj]) (fun _ => rfl)
    toValue_eq ?_
  intro b fs shown
  simp only [slots, keys, List.zip_cons_cons, shows_cons] at shown
  obtain ⟨target, id, reference, -⟩ := shown
  rw [required_of_shown .text target, required_of_shown .text id,
    optional_of_shown .text reference]
  simp

end Binding

/-! ## Nodes -/

theorem NodeKind.readsBack : ReadsBack .ofSpelled (Decoded.spelled (α := NodeKind)) id :=
  .spelled fun a => by cases a <;> rfl

namespace Node

def keys : List Key :=
  [.word "id", .word "type", .word "name", .word "properties", ⟨"autoLayout", "auto_layout"⟩,
    .word "variables", .word "children", ⟨"widgetId", "widget_id"⟩]

def slots (n : Node) : List FieldSlot :=
  keys.zip [n.id.map .text, some (.ofSpelled n.kind), some (.text n.name),
    some n.properties.toValue, n.autoLayout.map AutoLayout.toValue,
    some (.list (n.bindings.map Binding.toValue)), some (.list (n.children.map toValue)),
    n.widgetId.map .text]

mutual

/-- The tree as it is read back. -/
def written : Node → Node
  | ⟨id, kind, name, properties, autoLayout, bindings, children, widgetId⟩ =>
    ⟨id, kind, name, properties.written, autoLayout.map AutoLayout.written, bindings,
      writtenAll children, widgetId⟩

def writtenAll : List Node → List Node
  | [] => []
  | n :: rest => n.written :: writtenAll rest

end

theorem writtenAll_eq_map (ns : List Node) : writtenAll ns = ns.map written := by
  induction ns with
  | nil => rfl
  | cons n rest ih => rw [writtenAll, ih, List.map_cons]

theorem written_eq (n : Node) :
    n.written = { n with
      properties := n.properties.written
      autoLayout := n.autoLayout.map AutoLayout.written
      children := n.children.map written } := by
  cases n
  rw [written, writtenAll_eq_map]

theorem childValues_eq_map (ns : List Node) : childValues ns = ns.map toValue := by
  induction ns with
  | nil => rfl
  | cons n rest ih => rw [childValues, ih, List.map_cons]

theorem toValue_eq (n : Node) : n.toValue = .record (ofSlots n.slots) := by
  cases n
  simp [toValue, slots, keys, ofSlots, field, childValues_eq_map]

/-- Children are looked for under their name. -/
theorem decodeChildren_of_get? {fs : Fields} {v : Value} (h : fs.get? "children" = some v) :
    decodeChildren fs = (decodeChildList v).under "children" := by
  induction fs with
  | nil => cases h
  | cons e rest ih =>
    obtain ⟨name, w⟩ := e
    rw [Entries.get?] at h
    rw [decodeChildren]
    by_cases hn : name = "children"
    · rw [if_pos hn] at h ⊢
      cases h
      rfl
    · rw [if_neg hn] at h ⊢
      exact ih h

/-- A tree is read back with doubles for its lengths, and with overrides as documents hold them. -/
theorem decode_toValue (n : Node) : decode n.toValue = .ok n.written := by
  induction n using Node.forest_induct
    (q := fun ns => ∀ i, decodeItems i (ns.map toValue) = .ok (ns.map written)) with
  | step n items =>
    have separate : Key.Separate (n.slots.map (·.1)) := by
      show Key.Separate keys
      simp [Key.Separate, keys, Text.ofString_inj]
    have shown := shows_ofSlots separate
    rw [toValue_eq, decode, ofFields]
    generalize ofSlots n.slots = fs at shown ⊢
    simp only [slots, keys, List.zip_cons_cons, shows_cons] at shown
    obtain ⟨id, kind, name, properties, autoLayout, bindings, children, widgetId, -⟩ := shown
    have inner : decodeChildren fs = .ok (n.children.map written) := by
      have found : fs.get? "children" = some (.list (n.children.map toValue)) :=
        get?_of_shown children
      rw [decodeChildren_of_get? found, decodeChildList, items]
      rfl
    rw [optional_of_shown .text id, required_of_shown NodeKind.readsBack kind,
      required_of_shown .text name, orElse_of_shown NodeProperties.readsBack _ properties,
      optional_of_shown AutoLayout.readsBack autoLayout,
      orElse_of_shown Binding.readsBack.list _ bindings, inner, optional_of_shown .text widgetId,
      written_eq]
    simp
  | nil i => rfl
  | cons c rest first others i =>
    rw [List.map_cons, decodeItems, first, others]
    rfl

theorem readsBack : ReadsBack toValue decode written :=
  ⟨decode_toValue, fun n => by cases n; rfl⟩

/-- What is read back is written in the same way. -/
theorem toValue_written (n : Node) : n.written.toValue = n.toValue := by
  induction n using Node.induct with
  | step n ih =>
    have children : (n.children.map written).map toValue = n.children.map toValue := by
      rw [List.map_map]
      exact List.map_congr_left ih
    have autoLayout : (n.autoLayout.map AutoLayout.written).map AutoLayout.toValue =
        n.autoLayout.map AutoLayout.toValue := by
      rw [Option.map_map]
      rfl
    rw [toValue_eq, toValue_eq, written_eq]
    simp only [slots, NodeProperties.toValue_written, autoLayout, children]

/-- The tree that is read back has the nodes of the tree in their order. -/
theorem walk_written (n : Node) : n.written.walk = n.walk.map written := by
  induction n using Node.induct with
  | step n ih =>
    rw [written_eq, walk_eq, walk_eq, walkAll_eq_flatMap, walkAll_eq_flatMap, List.map_cons,
      List.map_flatMap, List.flatMap_map, written_eq]
    congr 1
    exact List.flatMap_congr ih

theorem write_of_fits {n : Node} (h : n.fits = true) : n.write = .ok n.toValue := if_pos h

/-- What is read back can be written. -/
theorem fits_written (n : Node) : n.written.fits = true := by
  rw [fits, walk_written, List.all_map, List.all_eq_true]
  intro m _
  show (m.written).lengthsFit = true
  rw [written_eq, lengthsFit, List.all_append, NodeProperties.fits_written, Bool.true_and]
  cases m.autoLayout with
  | none => rfl
  | some a => exact a.fits_written

end Node

end DesignTree
