import DesignTree.Proofs.Decode.Spelling
import DesignTree.Widget.Basic

/-! # Widgets in either spelling

The records that a widget tree is read from, with the keys of their fields and what each field
holds. A tree is spelled anew (`Respelled`) where some of these keys, at any depth, stand in their
second spelling in place of the first one. All that a widget has besides its children and its source
type is read in the same way from both (`RespelledIf.kept`).
-/

namespace DesignTree

/-! ## Models and their fields -/

/-- The kinds of records that a widget tree is read from. -/
inductive InputModel
  | point
  | edgeInsets
  | borderRadius
  | alignment
  | layout
  | position
  | border
  | shadow
  | colorEntry
  | typography
  | spacing
  | styling
  | gradient
  | decoration
  | properties
  | widget
  deriving DecidableEq

/-- What a field holds: a record, a list of records, or a value without keys of its own. -/
inductive InputForm
  | plain
  | model (m : InputModel)
  | models (m : InputModel)

/-- A reading of values, for any kind of result. -/
structure Reading where
  {α : Type}
  read : Value → Decoded α

namespace InputModel

def contentFields : List (Key × InputForm) := [
  (.word "data", .plain), (.word "text", .plain), (.word "key", .plain), (.word "icon", .plain),
  (⟨"iconData", "icon_data"⟩, .plain)]

def boxFields : List (Key × InputForm) := [
  (.word "width", .plain), (.word "height", .plain), (.word "padding", .model edgeInsets),
  (.word "margin", .model edgeInsets), (.word "decoration", .model decoration),
  (⟨"clipBehavior", "clip_behavior"⟩, .plain), (.word "alignment", .plain)]

def placementFields : List (Key × InputForm) := [
  (.word "flex", .plain), (⟨"isExpanded", "is_expanded"⟩, .plain),
  (⟨"isPositioned", "is_positioned"⟩, .plain), (.word "positioned", .model position),
  (.word "left", .plain), (.word "right", .plain), (.word "top", .plain), (.word "bottom", .plain)]

def semanticsFields : List (Key × InputForm) := [
  (⟨"textAlign", "text_align"⟩, .plain), (.word "style", .plain), (.word "size", .plain),
  (.word "elevation", .plain), (.word "outlined", .plain), (.word "disabled", .plain)]

/-- The fields of a record, each with its key. -/
def fields : InputModel → List (Key × InputForm)
  | point => [(.word "x", .plain), (.word "y", .plain)]
  | edgeInsets => [(.word "top", .plain), (.word "right", .plain), (.word "bottom", .plain),
      (.word "left", .plain)]
  | borderRadius => [(⟨"topLeft", "top_left"⟩, .plain), (⟨"topRight", "top_right"⟩, .plain),
      (⟨"bottomLeft", "bottom_left"⟩, .plain), (⟨"bottomRight", "bottom_right"⟩, .plain)]
  | alignment => [(⟨"mainAxis", "main_axis"⟩, .plain), (⟨"crossAxis", "cross_axis"⟩, .plain)]
  | layout => [(.word "type", .plain), (.word "direction", .plain),
      (.word "alignment", .model alignment), (.word "spacing", .plain),
      (.word "padding", .model edgeInsets), (.word "width", .plain), (.word "height", .plain),
      (⟨"minWidth", "min_width"⟩, .plain), (⟨"maxWidth", "max_width"⟩, .plain),
      (⟨"minHeight", "min_height"⟩, .plain), (⟨"maxHeight", "max_height"⟩, .plain)]
  | position => [(.word "top", .plain), (.word "right", .plain), (.word "bottom", .plain),
      (.word "left", .plain), (.word "width", .plain), (.word "height", .plain)]
  | border => [(.word "width", .plain), (.word "color", .plain),
      (.word "radius", .model borderRadius), (.word "style", .plain)]
  | shadow => [(.word "color", .plain), (.word "offset", .model point), (.word "blur", .plain),
      (.word "spread", .plain)]
  | colorEntry => [(.word "property", .plain), (.word "value", .plain),
      (⟨"isThemeReference", "is_theme_reference"⟩, .plain), (⟨"themePath", "theme_path"⟩, .plain)]
  | typography => [(⟨"fontSize", "font_size"⟩, .plain), (⟨"fontWeight", "font_weight"⟩, .plain),
      (⟨"fontFamily", "font_family"⟩, .plain), (⟨"letterSpacing", "letter_spacing"⟩, .plain),
      (⟨"lineHeight", "line_height"⟩, .plain), (.word "color", .plain),
      (⟨"isThemeReference", "is_theme_reference"⟩, .plain), (⟨"themePath", "theme_path"⟩, .plain)]
  | spacing => [(.word "padding", .model edgeInsets), (.word "margin", .model edgeInsets)]
  | styling => [(.word "colors", .models colorEntry), (.word "typography", .model typography),
      (.word "spacing", .model spacing), (.word "borders", .model border),
      (.word "shadows", .models shadow)]
  | gradient => [(.word "type", .plain), (.word "colors", .plain), (.word "stops", .plain),
      (.word "begin", .model point), (.word "end", .model point)]
  | decoration => [(.word "color", .plain), (.word "border", .model border),
      (⟨"borderRadius", "border_radius"⟩, .model borderRadius),
      (⟨"boxShadow", "box_shadow"⟩, .models shadow), (.word "gradient", .model gradient)]
  | properties => contentFields ++ boxFields ++ placementFields ++ semanticsFields
  | widget => [(.word "id", .plain), (.word "type", .plain),
      (⟨"sourceType", "source_type"⟩, .plain), (.word "properties", .model properties),
      (.word "children", .models widget), (.word "styling", .model styling),
      (.word "layout", .model layout), (.word "position", .model position)]

def keys (m : InputModel) : List Key := m.fields.map (·.1)

def reading : InputModel → Reading
  | point => ⟨Point.decode⟩
  | edgeInsets => ⟨EdgeInsets.decode⟩
  | borderRadius => ⟨BorderRadius.decode⟩
  | alignment => ⟨Alignment.decode⟩
  | layout => ⟨Layout.decode⟩
  | position => ⟨Position.decode⟩
  | border => ⟨Border.decode⟩
  | shadow => ⟨Shadow.decode⟩
  | colorEntry => ⟨ColorEntry.decode⟩
  | typography => ⟨Typography.decode⟩
  | spacing => ⟨Spacing.decode⟩
  | styling => ⟨Styling.decode⟩
  | gradient => ⟨Gradient.decode⟩
  | decoration => ⟨Decoration.decode⟩
  | properties => ⟨WidgetProperties.decode⟩
  | widget => ⟨Widget.decode⟩

theorem apart (m : InputModel) : Key.Apart m.keys := by
  cases m <;> simp [Key.Apart, keys, fields, contentFields, boxFields, placementFields,
    semanticsFields, Key.spellings, Key.word, Text.ofString_inj]

end InputModel

namespace InputForm

def reading : InputForm → Reading
  | plain => ⟨Decoded.any⟩
  | model m => m.reading
  | models m => ⟨Decoded.list m.reading.read⟩

/-- Whatever is read from the first value is read from the second one too, and both are absent or
neither of them is. -/
structure Kept (f : InputForm) (v w : Value) : Prop where
  null : v = .null ↔ w = .null
  read : (f.reading.read v).Keeps (f.reading.read w)

/-- A value without keys of its own is kept if it is the same. -/
theorem Kept.eq {v w : Value} (h : plain.Kept v w) : v = w := by
  have same : Decoded.ok w = .ok v := h.read v rfl
  cases same
  rfl

theorem Kept.refl (f : InputForm) (v : Value) : f.Kept v v := ⟨.rfl, .rfl⟩

end InputForm

namespace Decoded.Respects

open InputForm

variable {α β : Type}

theorem plain (read : Value → Decoded α) : Respects InputForm.plain.Kept read := by
  intro v w h
  rw [h.eq]
  exact .rfl

theorem model (m : InputModel) : Respects (InputForm.model m).Kept m.reading.read :=
  fun _ _ h => h.read

theorem models (m : InputModel) :
    Respects (InputForm.models m).Kept (Decoded.list m.reading.read) :=
  fun _ _ h => h.read

theorem nullable {f : InputForm} {read : Value → Decoded α} (h : Respects f.Kept read) :
    Respects f.Kept (Decoded.nullable read) :=
  fun v w kept => .nullable kept.null (h v w kept)

theorem map {f : InputForm} {read : Value → Decoded α} (g : α → β) (h : Respects f.Kept read) :
    Respects f.Kept fun v => g <$> read v :=
  fun v w kept => (h v w kept).map g

end Decoded.Respects

/-! ## Records by their fields -/

theorem Key.Relates.optional {α : Type} {k : Key} {f : InputForm} {fs gs : Fields}
    {read : Value → Decoded α} (h : k.Relates f.Kept fs gs)
    (hr : Decoded.Respects f.Kept read) : (fs.optional k read).Keeps (gs.optional k read) :=
  h.orElse none hr.nullable

/-- All fields of a record are kept. -/
def InputModel.Kept (m : InputModel) (fs gs : Fields) : Prop :=
  m.fields.Forall fun e => e.1.Relates e.2.Kept fs gs

section Records

variable {fs gs : Fields}

theorem Point.keeps (h : InputModel.point.Kept fs gs) :
    (Point.decode (.record fs)).Keeps (Point.decode (.record gs)) := by
  obtain ⟨x, y⟩ := h
  exact (x.orElse _ (.plain _)).map _
    |>.seq (y.orElse _ (.plain _))

theorem EdgeInsets.keeps (h : InputModel.edgeInsets.Kept fs gs) :
    (EdgeInsets.decode (.record fs)).Keeps (EdgeInsets.decode (.record gs)) := by
  obtain ⟨top, right, bottom, left⟩ := h
  exact (top.orElse _ (.plain _)).map _
    |>.seq (right.orElse _ (.plain _))
    |>.seq (bottom.orElse _ (.plain _))
    |>.seq (left.orElse _ (.plain _))

theorem BorderRadius.keeps (h : InputModel.borderRadius.Kept fs gs) :
    (BorderRadius.decode (.record fs)).Keeps (BorderRadius.decode (.record gs)) := by
  obtain ⟨topLeft, topRight, bottomLeft, bottomRight⟩ := h
  exact (topLeft.orElse _ (.plain _)).map _
    |>.seq (topRight.orElse _ (.plain _))
    |>.seq (bottomLeft.orElse _ (.plain _))
    |>.seq (bottomRight.orElse _ (.plain _))

theorem Alignment.keeps (h : InputModel.alignment.Kept fs gs) :
    (Alignment.decode (.record fs)).Keeps (Alignment.decode (.record gs)) := by
  obtain ⟨main, cross⟩ := h
  exact (main.optional (.plain _)).map _
    |>.seq (cross.optional (.plain _))

theorem Position.keeps (h : InputModel.position.Kept fs gs) :
    (Position.decode (.record fs)).Keeps (Position.decode (.record gs)) := by
  obtain ⟨top, right, bottom, left, width, height⟩ := h
  exact (top.optional (.plain _)).map _
    |>.seq (right.optional (.plain _))
    |>.seq (bottom.optional (.plain _))
    |>.seq (left.optional (.plain _))
    |>.seq (width.optional (.plain _))
    |>.seq (height.optional (.plain _))

theorem Layout.keeps (h : InputModel.layout.Kept fs gs) :
    (Layout.decode (.record fs)).Keeps (Layout.decode (.record gs)) := by
  obtain ⟨kind, direction, alignment, spacing, padding, width, height, minWidth, maxWidth,
    minHeight, maxHeight⟩ := h
  exact (kind.required (.plain _)).map _
    |>.seq (direction.optional (.plain _))
    |>.seq (alignment.optional (.model .alignment))
    |>.seq (spacing.optional (.plain _))
    |>.seq (padding.optional (.model .edgeInsets))
    |>.seq (width.optional (.plain _))
    |>.seq (height.optional (.plain _))
    |>.seq (minWidth.optional (.plain _))
    |>.seq (maxWidth.optional (.plain _))
    |>.seq (minHeight.optional (.plain _))
    |>.seq (maxHeight.optional (.plain _))

theorem Border.keeps (h : InputModel.border.Kept fs gs) :
    (Border.decode (.record fs)).Keeps (Border.decode (.record gs)) := by
  obtain ⟨width, color, radius, style⟩ := h
  exact (width.optional (.plain _)).map _
    |>.seq (color.optional (.plain _))
    |>.seq (radius.optional (.model .borderRadius))
    |>.seq (style.optional (.plain _))

theorem Shadow.keeps (h : InputModel.shadow.Kept fs gs) :
    (Shadow.decode (.record fs)).Keeps (Shadow.decode (.record gs)) := by
  obtain ⟨color, offset, blur, spread⟩ := h
  exact (color.required (.plain _)).map _
    |>.seq (offset.orElse _ (.model .point))
    |>.seq (blur.orElse _ (.plain _))
    |>.seq (spread.optional (.plain _))

theorem ColorEntry.keeps (h : InputModel.colorEntry.Kept fs gs) :
    (ColorEntry.decode (.record fs)).Keeps (ColorEntry.decode (.record gs)) := by
  obtain ⟨property, value, reference, path⟩ := h
  exact (property.orElse _ (.plain _)).map _
    |>.seq (value.required (.plain _))
    |>.seq (reference.orElse _ (.plain _))
    |>.seq (path.optional (.plain _))

theorem Typography.keeps (h : InputModel.typography.Kept fs gs) :
    (Typography.decode (.record fs)).Keeps (Typography.decode (.record gs)) := by
  obtain ⟨size, weight, family, letter, line, color, reference, path⟩ := h
  exact (size.optional (.plain _)).map _
    |>.seq (weight.orElse _ (.plain _))
    |>.seq (family.optional (.plain _))
    |>.seq (letter.optional (.plain _))
    |>.seq (line.optional (.plain _))
    |>.seq (color.optional (.plain _))
    |>.seq (reference.orElse _ (.plain _))
    |>.seq (path.optional (.plain _))

theorem Spacing.keeps (h : InputModel.spacing.Kept fs gs) :
    (Spacing.decode (.record fs)).Keeps (Spacing.decode (.record gs)) := by
  obtain ⟨padding, margin⟩ := h
  exact (padding.optional (.model .edgeInsets)).map _
    |>.seq (margin.optional (.model .edgeInsets))

theorem Styling.keeps (h : InputModel.styling.Kept fs gs) :
    (Styling.decode (.record fs)).Keeps (Styling.decode (.record gs)) := by
  obtain ⟨colors, typography, spacing, borders, shadows⟩ := h
  exact (colors.orElse _ (.map some (.models .colorEntry))).map _
    |>.seq (typography.orElse _ (.map some (.nullable (.model .typography))))
    |>.seq (spacing.orElse _ (.map some (.nullable (.model .spacing))))
    |>.seq (borders.orElse _ (.map some (.nullable (.model .border))))
    |>.seq (shadows.orElse _ (.map some (.models .shadow)))

theorem Gradient.keeps (h : InputModel.gradient.Kept fs gs) :
    (Gradient.decode (.record fs)).Keeps (Gradient.decode (.record gs)) := by
  obtain ⟨kind, colors, stops, start, finish⟩ := h
  exact (kind.orElse _ (.plain _)).map _
    |>.seq (colors.orElse _ (.plain _))
    |>.seq (stops.optional (.plain _))
    |>.seq (start.optional (.model .point))
    |>.seq (finish.optional (.model .point))

theorem Decoration.keeps (h : InputModel.decoration.Kept fs gs) :
    (Decoration.decode (.record fs)).Keeps (Decoration.decode (.record gs)) := by
  obtain ⟨color, border, radius, shadows, gradient⟩ := h
  exact (color.optional (.plain _)).map _
    |>.seq (border.optional (.model .border))
    |>.seq (radius.optional (.model .borderRadius))
    |>.seq (shadows.orElse _ (.models .shadow))
    |>.seq (gradient.optional (.model .gradient))

theorem WidgetContent.keeps
    (h : InputModel.contentFields.Forall fun e => e.1.Relates e.2.Kept fs gs) :
    (WidgetContent.decode fs).Keeps (WidgetContent.decode gs) := by
  obtain ⟨data, text, key, icon, iconData⟩ := h
  exact (data.optional (.plain _)).map _
    |>.seq (text.optional (.plain _))
    |>.seq (key.optional (.plain _))
    |>.seq (icon.optional (.plain _))
    |>.seq (iconData.optional (.plain _))

theorem WidgetBox.keeps
    (h : InputModel.boxFields.Forall fun e => e.1.Relates e.2.Kept fs gs) :
    (WidgetBox.decode fs).Keeps (WidgetBox.decode gs) := by
  obtain ⟨width, height, padding, margin, decoration, clipBehavior, alignment⟩ := h
  exact (width.optional (.plain _)).map _
    |>.seq (height.optional (.plain _))
    |>.seq (padding.optional (.model .edgeInsets))
    |>.seq (margin.optional (.model .edgeInsets))
    |>.seq (decoration.optional (.model .decoration))
    |>.seq (clipBehavior.optional (.plain _))
    |>.seq (alignment.optional (.plain _))

theorem WidgetPlacement.keeps
    (h : InputModel.placementFields.Forall fun e => e.1.Relates e.2.Kept fs gs) :
    (WidgetPlacement.decode fs).Keeps (WidgetPlacement.decode gs) := by
  obtain ⟨flex, isExpanded, isPositioned, positioned, left, right, top, bottom⟩ := h
  exact (flex.optional (.plain _)).map _
    |>.seq (isExpanded.optional (.plain _))
    |>.seq (isPositioned.optional (.plain _))
    |>.seq (positioned.optional (.model .position))
    |>.seq (left.optional (.plain _))
    |>.seq (right.optional (.plain _))
    |>.seq (top.optional (.plain _))
    |>.seq (bottom.optional (.plain _))

theorem WidgetSemantics.keeps
    (h : InputModel.semanticsFields.Forall fun e => e.1.Relates e.2.Kept fs gs) :
    (WidgetSemantics.decode fs).Keeps (WidgetSemantics.decode gs) := by
  obtain ⟨textAlign, style, size, elevation, outlined, disabled⟩ := h
  exact (textAlign.optional (.plain _)).map _
    |>.seq (style.optional (.plain _))
    |>.seq (size.optional (.plain _))
    |>.seq (elevation.optional (.plain _))
    |>.seq (outlined.optional (.plain _))
    |>.seq (disabled.optional (.plain _))

end Records

/-! ## Properties without a type -/

theorem CodePoint.isSurrogate_ofChar (c : Char) : (ofChar c).isSurrogate = false := by
  have valid : c.toNat < 0xD800 ∨ 0xDFFF < c.toNat ∧ c.toNat < 0x110000 := c.valid
  rw [isSurrogate, toNat_ofChar, Bool.and_eq_false_iff, decide_eq_false_iff_not,
    decide_eq_false_iff_not]
  omega

theorem Text.hasSurrogate_ofString (s : String) : (ofString s).hasSurrogate = false := by
  rw [hasSurrogate, List.any_eq_false]
  intro p hp
  obtain ⟨c, -, rfl⟩ := List.mem_map.1 hp
  rw [CodePoint.isSurrogate_ofChar]
  exact Bool.false_ne_true

namespace WidgetProperties

variable {fs gs : Fields}

theorem typedKeys_eq : typedKeys = InputModel.properties.keys := rfl

/-- The fields that are left are the ones that no key names. -/
theorem untaken_eq (nodup : fs.keys.Nodup) (once : ∀ k ∈ typedKeys, k.SpelledOnce fs) :
    untaken fs = fs.filter fun e => ∀ k ∈ typedKeys, ¬ k.Names e.1 := by
  refine List.filter_congr fun e he => ?_
  have taken : e.1 ∈ typedKeys.filterMap (fun k => (k.find? fs).map (·.1)) ↔
      ∃ k ∈ typedKeys, k.Names e.1 := by
    rw [List.mem_filterMap]
    refine exists_congr fun k => and_congr_right fun hk => ?_
    constructor
    · intro h
      obtain ⟨f, found, name⟩ := Option.map_eq_some_iff.1 h
      exact name ▸ (Key.names_of_find? found).1
    · intro hn
      rw [(once k hk).find?_eq_some nodup he hn]
      rfl
  rw [List.contains_eq_mem, ← decide_not, decide_eq_decide, taken]
  simp only [not_exists, not_and]

/-- The names of a record stay whole when fields are spelled anew. -/
theorem any_hasSurrogate (names : fs.Renames typedKeys gs)
    (h : fs.any (·.1.hasSurrogate) = false) : gs.any (·.1.hasSurrogate) = false := by
  have whole : ∀ k ∈ typedKeys, k.snake.hasSurrogate = false := by
    simp [typedKeys_eq, InputModel.keys, InputModel.fields, InputModel.contentFields,
      InputModel.boxFields, InputModel.placementFields, InputModel.semanticsFields, Key.word,
      Text.hasSurrogate_ofString]
  rw [List.any_eq_false] at h ⊢
  intro e he
  obtain ⟨p, hp, rfl⟩ := names.exists_pair_right he
  rcases names.name p hp with same | ⟨k, hk, -, snake⟩
  · rw [same]
    exact h p.1 (List.of_mem_zip hp).1
  · rw [snake, whole k hk]
    exact Bool.false_ne_true

theorem keeps (names : fs.Renames typedKeys gs) (h : InputModel.properties.Kept fs gs) :
    (decode (.record fs)).Keeps (decode (.record gs)) := by
  have apart : Key.Apart typedKeys := InputModel.properties.apart
  have rest : untaken gs = untaken fs := by
    rw [untaken_eq names.nodup names.once,
      untaken_eq (names.nodup_left apart) fun k hk => names.spelledOnce apart hk,
      names.filter_unnamed apart]
  unfold InputModel.Kept InputModel.fields at h
  rw [List.forall_append, List.forall_append, List.forall_append] at h
  obtain ⟨⟨⟨content, box⟩, placement⟩, semantics⟩ := h
  intro p hp
  simp only [decode, Decoded.record] at hp ⊢
  cases whole : fs.any (·.1.hasSurrogate) with
  | true =>
    rw [whole] at hp
    cases hp
  | false =>
    rw [whole] at hp
    rw [any_hasSurrogate names whole, rest]
    have parts := (WidgetContent.keeps content).map (fun content box placement semantics =>
        WidgetProperties.mk content box placement semantics (untaken fs))
      |>.seq (WidgetBox.keeps box)
      |>.seq (WidgetPlacement.keeps placement)
      |>.seq (WidgetSemantics.keeps semantics)
    exact parts p hp

end WidgetProperties

/-! ## Values spelled anew -/

/-- The second value is the first one with some keys of its fields, at any depth, in their second
spelling. No record that is spelled anew has a field twice, and where it is a widget, its fields
before and after meet a condition. -/
inductive RespelledIf (condition : Fields → Fields → Prop) : InputForm → Value → Value → Prop
  | same (f : InputForm) (v : Value) : RespelledIf condition f v v
  | list {m : InputModel} {vs ws : List Value} (length : vs.length = ws.length)
      (items : ∀ p ∈ vs.zip ws, RespelledIf condition (.model m) p.1 p.2) :
      RespelledIf condition (.models m) (.list vs) (.list ws)
  | record {m : InputModel} {fs gs : Fields} (names : fs.Renames m.keys gs)
      (values : ∀ p ∈ fs.zip gs, ∀ e ∈ m.fields, e.1.Names p.1.1 →
        RespelledIf condition e.2 p.1.2 p.2.2)
      (widget : m = .widget → condition fs gs) :
      RespelledIf condition (.model m) (.record fs) (.record gs)

/-- A value with some keys in their second spelling. -/
abbrev Respelled : InputForm → Value → Value → Prop := RespelledIf fun _ _ => True

/-- Whether no widgets are in values of this form. -/
def InputForm.isPart : InputForm → Bool
  | plain => true
  | model m | models m => m ≠ .widget

theorem InputModel.isPart_of_mem {m : InputModel} (h : m ≠ .widget) :
    ∀ e ∈ m.fields, e.2.isPart = true := by
  cases m <;> first | exact absurd rfl h | simp [fields, InputForm.isPart, contentFields, boxFields,
    placementFields, semanticsFields]

/-- A record other than a widget is kept if its fields are. -/
theorem InputModel.kept_of_renames {m : InputModel} (hm : m ≠ .widget) {fs gs : Fields}
    (names : fs.Renames m.keys gs) (h : m.Kept fs gs) :
    (InputForm.model m).Kept (.record fs) (.record gs) := by
  refine ⟨by simp, ?_⟩
  cases m with
  | point => exact Point.keeps h
  | edgeInsets => exact EdgeInsets.keeps h
  | borderRadius => exact BorderRadius.keeps h
  | alignment => exact Alignment.keeps h
  | layout => exact Layout.keeps h
  | position => exact Position.keeps h
  | border => exact Border.keeps h
  | shadow => exact Shadow.keeps h
  | colorEntry => exact ColorEntry.keeps h
  | typography => exact Typography.keeps h
  | spacing => exact Spacing.keeps h
  | styling => exact Styling.keeps h
  | gradient => exact Gradient.keeps h
  | decoration => exact Decoration.keeps h
  | properties => exact WidgetProperties.keeps names h
  | widget => exact absurd rfl hm

namespace RespelledIf

variable {condition other : Fields → Fields → Prop} {f : InputForm} {v w : Value}

/-- Values without widgets are read in the same way in either spelling. -/
theorem kept (h : RespelledIf condition f v w) (part : f.isPart = true) : f.Kept v w := by
  induction h with
  | same f v => exact .refl f v
  | @list m vs ws length items ih =>
    refine ⟨by simp, .list (List.forall₂_iff_zip.2 ⟨length, fun hp => ?_⟩)⟩
    exact (ih _ hp part).read
  | @record m fs gs names values _ ih =>
    have hm : m ≠ .widget := of_decide_eq_true part
    refine InputModel.kept_of_renames hm names (List.forall_iff_forall_mem.2 fun e he => ?_)
    refine names.relates m.apart (List.mem_map_of_mem he) fun p hp hn => ?_
    exact ih p hp e he hn (InputModel.isPart_of_mem hm e he)

/-- The condition is about widgets. -/
theorem of_isPart (h : RespelledIf condition f v w) (part : f.isPart = true) :
    RespelledIf other f v w := by
  induction h with
  | same f v => exact .same f v
  | @list m vs ws length items ih => exact .list length fun p hp => ih p hp part
  | @record m fs gs names values _ ih =>
    have hm : m ≠ .widget := of_decide_eq_true part
    refine .record names (fun p hp e he hn => ?_) fun hw => absurd hw hm
    exact ih p hp e he hn (InputModel.isPart_of_mem hm e he)

end RespelledIf

end DesignTree
