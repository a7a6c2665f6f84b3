import DesignTree.Proofs.Run.Return
import DesignTree.Proofs.Widget.Writing

/-! # Typed properties one by one

Each property of a widget that has a type is read from what a record holds under its key, whatever
else is there (`WidgetProperties.finds_of_decode`), and a record is read as properties if each of
these values can be read on its own (`WidgetProperties.isOk_decode_iff`). The forms list the keys,
each with the kind of value that stands under it.
-/

namespace DesignTree

/-! ## Forms -/

/-- A kind of values, with their reading and their writing. -/
structure PropertyForm where
  {α : Type}
  read : Value → Decoded α
  write : α → Value
  back : ReadsBack write read id

namespace PropertyForm

def text : PropertyForm := ⟨Decoded.text, .text, .text⟩

def bool : PropertyForm := ⟨Decoded.bool, .bool, .bool⟩

def number : PropertyForm := ⟨Decoded.number, .number, .number⟩

def insets : PropertyForm := ⟨EdgeInsets.decode, EdgeInsets.toValue, EdgeInsets.readsBack⟩

def decoration : PropertyForm := ⟨Decoration.decode, Decoration.toValue, Decoration.readsBack⟩

def position : PropertyForm := ⟨Position.decode, Position.toValue, Position.readsBack⟩

/-- Whether a value is absent or can be read. -/
def accepts (f : PropertyForm) (v : Value) : Bool := (Decoded.nullable f.read v).isOk

/-- What is kept of a value: nothing of the absent one, and else what was read of it. -/
def Keeps (f : PropertyForm) (v : Value) (o : Option Value) : Prop :=
  ∃ a, Decoded.nullable f.read v = .ok a ∧ o = a.map f.write

variable {f : PropertyForm} {v : Value} {o : Option Value}

theorem Keeps.accepts (h : f.Keeps v o) : f.accepts v = true := by
  obtain ⟨a, ha, -⟩ := h
  rw [PropertyForm.accepts, ha]
  rfl

/-- What is kept of a value is one thing. -/
theorem Keeps.unique {o' : Option Value} (h : f.Keeps v o) (h' : f.Keeps v o') : o = o' := by
  obtain ⟨a, ha, rfl⟩ := h
  obtain ⟨b, hb, rfl⟩ := h'
  rw [ha] at hb
  cases hb
  rfl

theorem keeps_null (f : PropertyForm) : f.Keeps .null none := ⟨none, rfl, rfl⟩

theorem write_ne_null (f : PropertyForm) (a : f.α) : f.write a ≠ .null := by
  intro hn
  have present := f.back.present a
  rw [hn] at present
  cases present

/-- Nothing is kept as the absent value. -/
theorem Keeps.ne_null {w : Value} (h : f.Keeps v (some w)) : w ≠ .null := by
  obtain ⟨a, -, written⟩ := h
  obtain ⟨b, -, rfl⟩ := Option.map_eq_some_iff.1 written.symm
  exact f.write_ne_null b

/-- What was kept is kept again as it is. -/
theorem Keeps.again (h : f.Keeps v o) : f.Keeps (o.getD .null) o := by
  obtain ⟨a, ha, rfl⟩ := h
  cases a with
  | none => exact f.keeps_null
  | some a =>
    refine ⟨some a, ?_, rfl⟩
    rw [Option.map_some, Option.getD_some, Decoded.nullable_of_ne (f.write_ne_null a),
      f.back.read]
    rfl

/-- Something is kept of each value but the absent one. -/
theorem Keeps.eq_none_iff (h : f.Keeps v o) : o.getD .null = .null ↔ v = .null := by
  obtain ⟨a, ha, rfl⟩ := h
  constructor
  · intro hn
    by_contra present
    rw [Decoded.nullable_of_ne present] at ha
    obtain ⟨b, -, rfl⟩ := Decoded.map_eq_ok_iff.1 ha
    exact f.write_ne_null b hn
  · rintro rfl
    cases ha
    rfl

end PropertyForm

/-! ## Records -/

/-- The value that a record has under a key, in either spelling. -/
def Key.value (k : Key) (fs : Fields) : Value := ((k.find? fs).map (·.2)).getD .null

theorem Fields.optional_eq_ok_iff {α : Type} {fs : Fields} {k : Key} {read : Value → Decoded α}
    {a : Option α} : fs.optional k read = .ok a ↔ Decoded.nullable read (k.value fs) = .ok a := by
  unfold optional orElse Key.value
  cases k.find? fs with
  | none => rfl
  | some e => exact Decoded.under_eq_ok_iff

theorem Fields.isOk_optional {α : Type} (fs : Fields) (k : Key) (read : Value → Decoded α) :
    (fs.optional k read).isOk = (Decoded.nullable read (k.value fs)).isOk := by
  unfold optional orElse Key.value
  cases k.find? fs with
  | none => rfl
  | some e => exact Decoded.isOk_under _ _

theorem Fields.keeps_of_optional (f : PropertyForm) {fs : Fields} {k : Key} {a : Option f.α}
    (h : fs.optional k f.read = .ok a) : f.Keeps (k.value fs) (a.map f.write) :=
  ⟨a, optional_eq_ok_iff.1 h, rfl⟩

/-- What a record has under a key is kept in a slot of this key. -/
def PropertyForm.Fills (fs : Fields) (kf : Key × PropertyForm) (slot : FieldSlot) : Prop :=
  slot.1 = kf.1 ∧ kf.2.Keeps (kf.1.value fs) slot.2

/-- A record can be read under all keys of a list of forms. -/
def PropertyForm.allAccept (fs : Fields) (forms : List (Key × PropertyForm)) : Bool :=
  forms.all fun kf => kf.2.accepts (kf.1.value fs)

section Parts

variable {fs : Fields}

open PropertyForm Fields

namespace WidgetContent

def forms : List (Key × PropertyForm) := [
  (.word "data", .text), (.word "text", .text), (.word "key", .text), (.word "icon", .text),
  (⟨"iconData", "icon_data"⟩, .text)]

theorem fills_of_decode {c : WidgetContent} (h : decode fs = .ok c) :
    List.Forall₂ (Fills fs) forms c.typed := by
  simp only [decode, Decoded.seq_eq_ok_iff, Decoded.map_eq_ok_iff] at h
  obtain ⟨_, _, ⟨_, _, ⟨_, _, ⟨_, _, ⟨_, data, rfl⟩, text, rfl⟩, key, rfl⟩, icon, rfl⟩, iconData,
    rfl⟩ := h
  exact .cons ⟨rfl, keeps_of_optional .text data⟩ <| .cons ⟨rfl, keeps_of_optional .text text⟩ <|
    .cons ⟨rfl, keeps_of_optional .text key⟩ <| .cons ⟨rfl, keeps_of_optional .text icon⟩ <|
    .cons ⟨rfl, keeps_of_optional .text iconData⟩ .nil

theorem isOk_decode (fs : Fields) : (decode fs).isOk = allAccept fs forms := by
  simp [decode, Decoded.isOk_seq, isOk_optional, allAccept, forms, accepts, PropertyForm.text,
    Bool.and_assoc]

end WidgetContent

namespace WidgetBox

def forms : List (Key × PropertyForm) := [
  (.word "width", .number), (.word "height", .number), (.word "padding", .insets),
  (.word "margin", .insets), (.word "decoration", .decoration),
  (⟨"clipBehavior", "clip_behavior"⟩, .text), (.word "alignment", .text)]

theorem fills_of_decode {b : WidgetBox} (h : decode fs = .ok b) :
    List.Forall₂ (Fills fs) forms b.typed := by
  simp only [decode, Decoded.seq_eq_ok_iff, Decoded.map_eq_ok_iff] at h
  obtain ⟨_, _, ⟨_, _, ⟨_, _, ⟨_, _, ⟨_, _, ⟨_, _, ⟨_, width, rfl⟩, height, rfl⟩, padding, rfl⟩,
    margin, rfl⟩, decoration, rfl⟩, clip, rfl⟩, alignment, rfl⟩ := h
  exact .cons ⟨rfl, keeps_of_optional .number width⟩ <|
    .cons ⟨rfl, keeps_of_optional .number height⟩ <|
    .cons ⟨rfl, keeps_of_optional .insets padding⟩ <|
    .cons ⟨rfl, keeps_of_optional .insets margin⟩ <|
    .cons ⟨rfl, keeps_of_optional .decoration decoration⟩ <|
    .cons ⟨rfl, keeps_of_optional .text clip⟩ <|
    .cons ⟨rfl, keeps_of_optional .text alignment⟩ .nil

theorem isOk_decode (fs : Fields) : (decode fs).isOk = allAccept fs forms := by
  simp [decode, Decoded.isOk_seq, isOk_optional, allAccept, forms, accepts, PropertyForm.text,
    PropertyForm.number, insets, PropertyForm.decoration, Bool.and_assoc]

end WidgetBox

namespace WidgetPlacement

def forms : List (Key × PropertyForm) := [
  (.word "flex", .number), (⟨"isExpanded", "is_expanded"⟩, .bool),
  (⟨"isPositioned", "is_positioned"⟩, .bool), (.word "positioned", .position),
  (.word "left", .number), (.word "right", .number), (.word "top", .number),
  (.word "bottom", .number)]

theorem fills_of_decode {p : WidgetPlacement} (h : decode fs = .ok p) :
    List.Forall₂ (Fills fs) forms p.typed := by
  simp only [decode, Decoded.seq_eq_ok_iff, Decoded.map_eq_ok_iff] at h
  obtain ⟨_, _, ⟨_, _, ⟨_, _, ⟨_, _, ⟨_, _, ⟨_, _, ⟨_, _, ⟨_, flex, rfl⟩, expanded, rfl⟩, positioned,
    rfl⟩, place, rfl⟩, left, rfl⟩, right, rfl⟩, top, rfl⟩, bottom, rfl⟩ := h
  exact .cons ⟨rfl, keeps_of_optional .number flex⟩ <|
    .cons ⟨rfl, keeps_of_optional .bool expanded⟩ <|
    .cons ⟨rfl, keeps_of_optional .bool positioned⟩ <|
    .cons ⟨rfl, keeps_of_optional .position place⟩ <|
    .cons ⟨rfl, keeps_of_optional .number left⟩ <|
    .cons ⟨rfl, keeps_of_optional .number right⟩ <|
    .cons ⟨rfl, keeps_of_optional .number top⟩ <|
    .cons ⟨rfl, keeps_of_optional .number bottom⟩ .nil

theorem isOk_decode (fs : Fields) : (decode fs).isOk = allAccept fs forms := by
  simp [decode, Decoded.isOk_seq, isOk_optional, allAccept, forms, accepts, PropertyForm.bool,
    PropertyForm.number, PropertyForm.position, Bool.and_assoc]

end WidgetPlacement

namespace WidgetSemantics

def forms : List (Key × PropertyForm) := [
  (⟨"textAlign", "text_align"⟩, .text), (.word "style", .text), (.word "size", .text),
  (.word "elevation", .number), (.word "outlined", .bool), (.word "disabled", .bool)]

theorem fills_of_decode {s : WidgetSemantics} (h : decode fs = .ok s) :
    List.Forall₂ (Fills fs) forms s.typed := by
  simp only [decode, Decoded.seq_eq_ok_iff, Decoded.map_eq_ok_iff] at h
  obtain ⟨_, _, ⟨_, _, ⟨_, _, ⟨_, _, ⟨_, _, ⟨_, align, rfl⟩, style, rfl⟩, size, rfl⟩, elevation, rfl⟩,
    outlined, rfl⟩, disabled, rfl⟩ := h
  exact .cons ⟨rfl, keeps_of_optional .text align⟩ <|
    .cons ⟨rfl, keeps_of_optional .text style⟩ <|
    .cons ⟨rfl, keeps_of_optional .text size⟩ <|
    .cons ⟨rfl, keeps_of_optional .number elevation⟩ <|
    .cons ⟨rfl, keeps_of_optional .bool outlined⟩ <|
    .cons ⟨rfl, keeps_of_optional .bool disabled⟩ .nil

theorem isOk_decode (fs : Fields) : (decode fs).isOk = allAccept fs forms := by
  simp [decode, Decoded.isOk_seq, isOk_optional, allAccept, forms, accepts, PropertyForm.bool,
    PropertyForm.number, PropertyForm.text, Bool.and_assoc]

end WidgetSemantics

end Parts

/-! ## Properties -/

namespace WidgetProperties

open PropertyForm

variable {fs : Fields} {p : WidgetProperties}

/-- The typed properties, each with the kind of its values. -/
def forms : List (Key × PropertyForm) :=
  WidgetContent.forms ++ WidgetBox.forms ++ WidgetPlacement.forms ++ WidgetSemantics.forms

theorem keys_forms : forms.map (·.1) = typedKeys := rfl

theorem keys_typed (p : WidgetProperties) : p.typed.map (·.1) = typedKeys := rfl

theorem apart_typedKeys : Key.Apart typedKeys := InputModel.properties.apart

/-- Properties that are read are filled from what the record has under their keys, and what no key
has taken is left over. -/
theorem fills_of_decode (h : decode (.record fs) = .ok p) :
    fs.any (·.1.hasSurrogate) = false ∧ List.Forall₂ (Fills fs) forms p.typed ∧
      p.extras = untaken fs := by
  simp only [decode, Decoded.record] at h
  split at h
  · cases h
  · next whole =>
    simp only [Decoded.seq_eq_ok_iff, Decoded.map_eq_ok_iff] at h
    obtain ⟨_, _, ⟨_, _, ⟨_, _, ⟨_, content, rfl⟩, box, rfl⟩, placement, rfl⟩, semantics, rfl⟩ := h
    refine ⟨Bool.eq_false_iff.2 whole, ?_, rfl⟩
    exact List.rel_append (List.rel_append (List.rel_append
      (WidgetContent.fills_of_decode content) (WidgetBox.fills_of_decode box))
      (WidgetPlacement.fills_of_decode placement)) (WidgetSemantics.fills_of_decode semantics)

theorem isOk_decode_iff : (decode (.record fs)).isOk = true ↔
    fs.any (·.1.hasSurrogate) = false ∧ ∀ kf ∈ forms, kf.2.accepts (kf.1.value fs) = true := by
  have parts : allAccept fs forms = true ↔
      ∀ kf ∈ forms, kf.2.accepts (kf.1.value fs) = true := List.all_eq_true
  rw [← parts]
  simp only [decode, Decoded.record]
  split
  · next broken => simp [broken, Decoded.fail, Decoded.isOk]
  · next whole =>
    have whole : fs.any (·.1.hasSurrogate) = false := Bool.eq_false_iff.2 whole
    simp [whole, Decoded.isOk_seq, WidgetContent.isOk_decode, WidgetBox.isOk_decode,
      WidgetPlacement.isOk_decode, WidgetSemantics.isOk_decode, allAccept, forms, Bool.and_assoc]

end WidgetProperties

end DesignTree
