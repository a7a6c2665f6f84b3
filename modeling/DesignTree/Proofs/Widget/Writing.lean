import DesignTree.Proofs.Decode.Slot
import DesignTree.Proofs.Widget.Spelling

/-! # Reading the parts of widget properties back

The records that widget properties hold (insets, a decoration with all that is in it, a position)
are read back as they are written, without any change.
-/

namespace DesignTree

open Fields

/-- Keys without a common spelling are not spelled like one another. -/
theorem Key.Apart.separate {ks : List Key} (apart : Apart ks) : Separate ks := by
  constructor
  · obtain ⟨-, disjoint⟩ := List.nodup_flatMap.1 apart
    refine List.pairwise_map.2 (disjoint.imp fun hd same => ?_)
    exact hd (mem_spellings.2 (.inl rfl)) (mem_spellings.2 (.inl same))
  · intro k hk
    by_cases one : k.snake = k.camel
    · exact .inl one
    · refine .inr fun hm => one ?_
      obtain ⟨other, hother, same⟩ := List.mem_map.1 hm
      rw [← same, apart.eq_of_names hother hk (.inl rfl) (.inr same)]

theorem ReadsBack.number : ReadsBack .number Decoded.number id := ⟨fun _ => rfl, fun _ => rfl⟩

theorem StrokeStyle.readsBack : ReadsBack .ofSpelled (Decoded.oneOf (α := StrokeStyle)) id :=
  ⟨fun a => by cases a <;> rfl, fun _ => rfl⟩

theorem GradientKind.readsBack : ReadsBack .ofSpelled (Decoded.oneOf (α := GradientKind)) id :=
  ⟨fun a => by cases a <;> rfl, fun _ => rfl⟩

/-- A record of input is read back if reading needs no more than its slots. -/
theorem InputModel.readsBack (m : InputModel) {α : Type} {model : Text} {toValue : α → Value}
    {read : Fields → Decoded α} (slots : α → List FieldSlot)
    (hs : ∀ a, (slots a).map (·.1) = m.keys)
    (write : ∀ a, toValue a = .record (ofSlots (slots a)))
    (h : ∀ a fs, fs.Shows (slots a) → read fs = .ok a) :
    ReadsBack toValue (Decoded.record model read) id :=
  .record m.keys slots m.apart.separate hs write h

namespace Point

def slots (p : Point) : List FieldSlot :=
  InputModel.point.keys.zip [some (.number p.x), some (.number p.y)]

theorem readsBack : ReadsBack toValue decode id := by
  refine InputModel.point.readsBack slots (fun _ => rfl) (fun _ => rfl) ?_
  intro p fs shown
  simp only [slots, InputModel.keys, InputModel.fields, List.map_cons, List.zip_cons_cons,
    shows_cons] at shown
  obtain ⟨x, y, -⟩ := shown
  rw [orElse_of_shown .number _ x, orElse_of_shown .number _ y]
  rfl

end Point

namespace EdgeInsets

def slots (e : EdgeInsets) : List FieldSlot :=
  InputModel.edgeInsets.keys.zip
    [some (.number e.top), some (.number e.right), some (.number e.bottom), some (.number e.left)]

theorem readsBack : ReadsBack toValue decode id := by
  refine InputModel.edgeInsets.readsBack slots (fun _ => rfl) (fun _ => rfl) ?_
  intro e fs shown
  simp only [slots, InputModel.keys, InputModel.fields, List.map_cons, List.zip_cons_cons,
    shows_cons] at shown
  obtain ⟨top, right, bottom, left, -⟩ := shown
  rw [orElse_of_shown .number _ top, orElse_of_shown .number _ right,
    orElse_of_shown .number _ bottom, orElse_of_shown .number _ left]
  rfl

end EdgeInsets

namespace BorderRadius

def slots (r : BorderRadius) : List FieldSlot :=
  InputModel.borderRadius.keys.zip
    [some (.number r.topLeft), some (.number r.topRight), some (.number r.bottomLeft),
      some (.number r.bottomRight)]

theorem readsBack : ReadsBack toValue decode id := by
  refine InputModel.borderRadius.readsBack slots (fun _ => rfl) (fun _ => rfl) ?_
  intro r fs shown
  simp only [slots, InputModel.keys, InputModel.fields, List.map_cons, List.zip_cons_cons,
    shows_cons] at shown
  obtain ⟨topLeft, topRight, bottomLeft, bottomRight, -⟩ := shown
  rw [orElse_of_shown .number _ topLeft, orElse_of_shown .number _ topRight,
    orElse_of_shown .number _ bottomLeft, orElse_of_shown .number _ bottomRight]
  rfl

end BorderRadius

namespace Border

def slots (b : Border) : List FieldSlot :=
  InputModel.border.keys.zip
    [b.width.map .number, b.color.map .text, b.radius.map BorderRadius.toValue,
      b.style.map .ofSpelled]

theorem toValue_eq (b : Border) : b.toValue = .record (ofSlots b.slots) := by
  simp [toValue, slots, InputModel.keys, InputModel.fields, ofSlots]

theorem readsBack : ReadsBack toValue decode id := by
  refine InputModel.border.readsBack slots (fun _ => rfl) toValue_eq ?_
  intro b fs shown
  simp only [slots, InputModel.keys, InputModel.fields, List.map_cons, List.zip_cons_cons,
    shows_cons] at shown
  obtain ⟨width, color, radius, style, -⟩ := shown
  rw [optional_of_shown .number width, optional_of_shown .text color,
    optional_of_shown BorderRadius.readsBack radius, optional_of_shown StrokeStyle.readsBack style]
  simp

end Border

namespace Shadow

def slots (s : Shadow) : List FieldSlot :=
  InputModel.shadow.keys.zip
    [some (.text s.color), some s.offset.toValue, some (.number s.blur), s.spread.map .number]

theorem toValue_eq (s : Shadow) : s.toValue = .record (ofSlots s.slots) := by
  simp [toValue, slots, InputModel.keys, InputModel.fields, ofSlots, field]

theorem readsBack : ReadsBack toValue decode id := by
  refine InputModel.shadow.readsBack slots (fun _ => rfl) toValue_eq ?_
  intro s fs shown
  simp only [slots, InputModel.keys, InputModel.fields, List.map_cons, List.zip_cons_cons,
    shows_cons] at shown
  obtain ⟨color, offset, blur, spread, -⟩ := shown
  rw [required_of_shown .text color, orElse_of_shown Point.readsBack _ offset,
    orElse_of_shown .number _ blur, optional_of_shown .number spread]
  simp

end Shadow

namespace Gradient

def slots (g : Gradient) : List FieldSlot :=
  InputModel.gradient.keys.zip
    [some (.ofSpelled g.kind), some (.ofTexts g.colors),
      g.stops.map fun ns => .list (ns.map .number), g.start.map Point.toValue,
      g.finish.map Point.toValue]

theorem toValue_eq (g : Gradient) : g.toValue = .record (ofSlots g.slots) := by
  simp [toValue, slots, InputModel.keys, InputModel.fields, ofSlots, field]

theorem readsBack : ReadsBack toValue decode id := by
  refine InputModel.gradient.readsBack slots (fun _ => rfl) toValue_eq ?_
  intro g fs shown
  simp only [slots, InputModel.keys, InputModel.fields, List.map_cons, List.zip_cons_cons,
    shows_cons] at shown
  obtain ⟨kind, colors, stops, start, finish, -⟩ := shown
  rw [orElse_of_shown GradientKind.readsBack _ kind, orElse_of_shown ReadsBack.text.list _ colors,
    optional_of_shown ReadsBack.number.list stops, optional_of_shown Point.readsBack start,
    optional_of_shown Point.readsBack finish]
  simp

end Gradient

namespace Decoration

def slots (d : Decoration) : List FieldSlot :=
  InputModel.decoration.keys.zip
    [d.color.map .text, d.border.map Border.toValue, d.borderRadius.map BorderRadius.toValue,
      some (.list (d.boxShadow.map Shadow.toValue)), d.gradient.map Gradient.toValue]

theorem toValue_eq (d : Decoration) : d.toValue = .record (ofSlots d.slots) := by
  simp [toValue, slots, InputModel.keys, InputModel.fields, ofSlots, field]

theorem readsBack : ReadsBack toValue decode id := by
  refine InputModel.decoration.readsBack slots (fun _ => rfl) toValue_eq ?_
  intro d fs shown
  simp only [slots, InputModel.keys, InputModel.fields, List.map_cons, List.zip_cons_cons,
    shows_cons] at shown
  obtain ⟨color, border, radius, shadows, gradient, -⟩ := shown
  rw [optional_of_shown .text color, optional_of_shown Border.readsBack border,
    optional_of_shown BorderRadius.readsBack radius,
    orElse_of_shown Shadow.readsBack.list _ shadows, optional_of_shown Gradient.readsBack gradient]
  simp

end Decoration

namespace Position

def slots (p : Position) : List FieldSlot :=
  InputModel.position.keys.zip
    [p.top.map .number, p.right.map .number, p.bottom.map .number, p.left.map .number,
      p.width.map .number, p.height.map .number]

theorem toValue_eq (p : Position) : p.toValue = .record (ofSlots p.slots) := by
  simp [toValue, slots, InputModel.keys, InputModel.fields, ofSlots]

theorem readsBack : ReadsBack toValue decode id := by
  refine InputModel.position.readsBack slots (fun _ => rfl) toValue_eq ?_
  intro p fs shown
  simp only [slots, InputModel.keys, InputModel.fields, List.map_cons, List.zip_cons_cons,
    shows_cons] at shown
  obtain ⟨top, right, bottom, left, width, height, -⟩ := shown
  rw [optional_of_shown .number top, optional_of_shown .number right,
    optional_of_shown .number bottom, optional_of_shown .number left,
    optional_of_shown .number width, optional_of_shown .number height]
  simp

end Position

end DesignTree
