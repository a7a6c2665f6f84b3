import DesignTree.Node.Paint
import DesignTree.Proofs.Decode.Slot

/-! # Reading paints, effects and type back

The parts that the look of a node is made of are read back as they were written.
-/

namespace DesignTree

open Fields

namespace Rgb

def keys : List Key := [.word "r", .word "g", .word "b"]

def slots (c : Rgb) : List FieldSlot :=
  keys.zip [some (.ofDouble c.r), some (.ofDouble c.g), some (.ofDouble c.b)]

theorem readsBack : ReadsBack toValue decode id := by
  refine .record keys slots (by simp [Key.Separate, keys, Text.ofString_inj]) (fun _ => rfl)
    (fun _ => rfl) ?_
  intro c fs shown
  simp only [slots, keys, List.zip_cons_cons, shows_cons] at shown
  obtain ⟨r, g, b, -⟩ := shown
  rw [required_of_shown .double r, required_of_shown .double g, required_of_shown .double b]
  rfl

end Rgb

namespace GradientStop

def keys : List Key := [.word "position", .word "color"]

def slots (s : GradientStop) : List FieldSlot :=
  keys.zip [some (.ofDouble s.position), some s.color.toValue]

theorem readsBack : ReadsBack toValue decode id := by
  refine .record keys slots (by simp [Key.Separate, keys, Text.ofString_inj]) (fun _ => rfl)
    (fun _ => rfl) ?_
  intro s fs shown
  simp only [slots, keys, List.zip_cons_cons, shows_cons] at shown
  obtain ⟨position, color, -⟩ := shown
  rw [required_of_shown .double position, required_of_shown Rgb.readsBack color]
  rfl

end GradientStop

namespace Paint

def keys : List Key :=
  [.word "type", .word "color", .word "opacity", ⟨"gradientStops", "gradient_stops"⟩]

def slots (p : Paint) : List FieldSlot :=
  keys.zip [some (.text p.kind), p.color.map Rgb.toValue, some (.ofDouble p.opacity),
    p.gradientStops.map fun ss => .list (ss.map GradientStop.toValue)]

theorem toValue_eq (p : Paint) : p.toValue = .record (ofSlots p.slots) := by
  simp [toValue, slots, keys, ofSlots, field]

theorem readsBack : ReadsBack toValue decode id := by
  refine .record keys slots (by simp [Key.Separate, keys, Text.ofString_inj]) (fun _ => rfl)
    toValue_eq ?_
  intro p fs shown
  simp only [slots, keys, List.zip_cons_cons, shows_cons] at shown
  obtain ⟨kind, color, opacity, stops, -⟩ := shown
  rw [orElse_of_shown .text _ kind, optional_of_shown Rgb.readsBack color,
    orElse_of_shown .double _ opacity, optional_of_shown GradientStop.readsBack.list stops]
  simp

end Paint

namespace Offset

def keys : List Key := [.word "x", .word "y"]

def slots (o : Offset) : List FieldSlot := keys.zip [some (.ofDouble o.x), some (.ofDouble o.y)]

theorem readsBack : ReadsBack toValue decode id := by
  refine .record keys slots (by simp [Key.Separate, keys, Text.ofString_inj]) (fun _ => rfl)
    (fun _ => rfl) ?_
  intro o fs shown
  simp only [slots, keys, List.zip_cons_cons, shows_cons] at shown
  obtain ⟨x, y, -⟩ := shown
  rw [orElse_of_shown .double _ x, orElse_of_shown .double _ y]
  rfl

end Offset

namespace Effect

def keys : List Key :=
  [.word "type", .word "color", .word "offset", .word "radius", .word "spread", .word "visible",
    ⟨"blendMode", "blend_mode"⟩]

def slots (e : Effect) : List FieldSlot :=
  keys.zip [some (.text e.kind), some e.color.toValue, some e.offset.toValue,
    some (.ofDouble e.radius), some (.ofDouble e.spread), some (.bool e.visible),
    some (.text e.blendMode)]

theorem readsBack : ReadsBack toValue decode id := by
  refine .record keys slots (by simp [Key.Separate, keys, Text.ofString_inj]) (fun _ => rfl)
    (fun _ => rfl) ?_
  intro e fs shown
  simp only [slots, keys, List.zip_cons_cons, shows_cons] at shown
  obtain ⟨kind, color, offset, radius, spread, visible, blendMode, -⟩ := shown
  rw [orElse_of_shown .text _ kind, required_of_shown Rgb.readsBack color,
    orElse_of_shown Offset.readsBack _ offset, orElse_of_shown .double _ radius,
    orElse_of_shown .double _ spread, orElse_of_shown .bool _ visible,
    orElse_of_shown .text _ blendMode]
  rfl

end Effect

namespace FontName

def keys : List Key := [.word "family", .word "style"]

def slots (f : FontName) : List FieldSlot := keys.zip [some (.text f.family), some (.text f.style)]

theorem readsBack : ReadsBack toValue decode id := by
  refine .record keys slots (by simp [Key.Separate, keys, Text.ofString_inj]) (fun _ => rfl)
    (fun _ => rfl) ?_
  intro f fs shown
  simp only [slots, keys, List.zip_cons_cons, shows_cons] at shown
  obtain ⟨family, style, -⟩ := shown
  rw [orElse_of_shown .text _ family, orElse_of_shown .text _ style]
  rfl

end FontName

namespace Measure

def keys : List Key := [.word "unit", .word "value"]

def slots (m : Measure) : List FieldSlot := keys.zip [some (.text m.unit), some (.ofDouble m.value)]

theorem readsBack (model unit : Text) : ReadsBack toValue (decode model unit) id := by
  refine .record keys slots (by simp [Key.Separate, keys, Text.ofString_inj]) (fun _ => rfl)
    (fun _ => rfl) ?_
  intro m fs shown
  simp only [slots, keys, List.zip_cons_cons, shows_cons] at shown
  obtain ⟨unit, value, -⟩ := shown
  rw [orElse_of_shown .text _ unit, required_of_shown .double value]
  rfl

theorem readsBack_lineHeight : ReadsBack toValue decodeLineHeight id := readsBack _ _

theorem readsBack_letterSpacing : ReadsBack toValue decodeLetterSpacing id := readsBack _ _

end Measure

theorem Pin.readsBack : ReadsBack .ofSpelled (Decoded.spelled (α := Pin)) id :=
  .spelled fun a => by cases a <;> rfl

namespace Constraints

def keys : List Key := [.word "horizontal", .word "vertical"]

def slots (c : Constraints) : List FieldSlot :=
  keys.zip [c.horizontal.map .ofSpelled, c.vertical.map .ofSpelled]

theorem toValue_eq (c : Constraints) : c.toValue = .record (ofSlots c.slots) := by
  simp [toValue, slots, keys, ofSlots]

theorem readsBack : ReadsBack toValue decode id := by
  refine .record keys slots (by simp [Key.Separate, keys, Text.ofString_inj]) (fun _ => rfl)
    toValue_eq ?_
  intro c fs shown
  simp only [slots, keys, List.zip_cons_cons, shows_cons] at shown
  obtain ⟨horizontal, vertical, -⟩ := shown
  rw [optional_of_shown Pin.readsBack horizontal, optional_of_shown Pin.readsBack vertical]
  simp

end Constraints

end DesignTree
