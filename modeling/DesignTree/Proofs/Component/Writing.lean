import DesignTree.Proofs.Component.Catalog
import DesignTree.Proofs.Node.Writing

/-! # Reading components back

A component is written with all its trees, and the properties of its variants keep their kinds: a
text, a truth value and a number are told apart when they are read. Only the default of a switch is
read as a text or as a truth value, which the switches of a component that was built have
(`isPlain_of_mem_switches`). The main statement is `read_back_of_write`: what is written of a node
tree, or of a component that was built, is read back as something that is written in the same way.
-/

namespace DesignTree

open Fields InRun

theorem PropertyKind.readsBack : ReadsBack .ofSpelled (Decoded.spelled (α := PropertyKind)) id :=
  .spelled fun a => by cases a <;> rfl

/-- Whether a scalar is a text or a truth value. -/
def Scalar.isPlain (s : Scalar) : Bool := s.isText || s.isBool

theorem Scalar.decode_toValue (s : Scalar) : decode s.toValue = .ok s := by
  cases s <;> rfl

/-- A text or a truth value is read back where only these are read. -/
theorem Scalar.decodeTextOrBool_toValue {s : Scalar} (h : s.isPlain = true) :
    decodeTextOrBool s.toValue = .ok s := by
  cases s with
  | text t => rfl
  | bool b => rfl
  | number n => cases h

namespace ComponentProperty

def keys : List Key :=
  [.word "name", .word "type", ⟨"defaultValue", "default_value"⟩,
    ⟨"variantOptions", "variant_options"⟩]

def slots (p : ComponentProperty) : List FieldSlot :=
  keys.zip [some (.text p.name), some (.ofSpelled p.kind), some p.defaultValue.toValue,
    p.variantOptions.map .ofTexts]

theorem toValue_eq (p : ComponentProperty) : p.toValue = .record (ofSlots p.slots) := by
  simp [toValue, slots, keys, ofSlots]

theorem decode_toValue {p : ComponentProperty} (h : p.defaultValue.isPlain = true) :
    decode p.toValue = .ok p := by
  have separate : Key.Separate (p.slots.map (·.1)) := by
    show Key.Separate keys
    simp [Key.Separate, keys, Text.ofString_inj]
  have shown := shows_ofSlots separate
  rw [toValue_eq, decode, Decoded.record]
  generalize ofSlots p.slots = fs at shown ⊢
  simp only [slots, keys, List.zip_cons_cons, shows_cons] at shown
  obtain ⟨name, kind, default, options, -⟩ := shown
  have texts : ReadsBack .ofTexts (Decoded.list Decoded.text) (List.map id) := ReadsBack.text.list
  rw [required_of_shown .text name, required_of_shown PropertyKind.readsBack kind,
    required_of_read (Scalar.decodeTextOrBool_toValue h) default, optional_of_shown texts options]
  simp

end ComponentProperty

namespace ComponentVariant

def keys : List Key := [.word "name", .word "properties", ⟨"nodeSpec", "node_spec"⟩]

/-- Scalars by their names in a document. -/
def scalarValues (es : Entries Scalar) : Value :=
  .record (es.toEncodable.mapValues Scalar.toValue)

def slots (v : ComponentVariant) : List FieldSlot :=
  keys.zip [some (.text v.name), some (scalarValues v.properties), some v.nodeSpec.toValue]

/-- The variant as it is read back. -/
def written (v : ComponentVariant) : ComponentVariant :=
  { v with properties := v.properties.toEncodable, nodeSpec := v.nodeSpec.written }

theorem readsBack_scalarValues :
    ReadsBack scalarValues (Decoded.mapOf Scalar.decode) Entries.toEncodable := by
  have entries (es : Entries Scalar) :
      Decoded.entries Scalar.decode (es.mapValues Scalar.toValue) = .ok es := by
    induction es with
    | nil => rfl
    | cons e rest ih =>
      rw [Entries.mapValues] at ih ⊢
      rw [List.map_cons, Decoded.entries, Scalar.decode_toValue, ih]
      rfl
  exact ⟨fun es => entries es.toEncodable, fun _ => rfl⟩

theorem readsBack : ReadsBack toValue decode written := by
  refine .record keys slots (by simp [Key.Separate, keys, Text.ofString_inj]) (fun _ => rfl)
    (fun _ => rfl) ?_
  intro v fs shown
  simp only [slots, keys, List.zip_cons_cons, shows_cons] at shown
  obtain ⟨name, properties, nodeSpec, -⟩ := shown
  rw [required_of_shown .text name, orElse_of_shown readsBack_scalarValues _ properties,
    required_of_shown Node.readsBack nodeSpec]
  rfl

theorem toValue_written (v : ComponentVariant) : v.written.toValue = v.toValue := by
  simp only [toValue, written, Entries.toEncodable_toEncodable, Node.toValue_written]

end ComponentVariant

namespace Component

def keys : List Key :=
  [.word "id", .word "name", .word "description", .word "variants", .word "properties",
    ⟨"nodeSpec", "node_spec"⟩, ⟨"baseWidgetId", "base_widget_id"⟩, ⟨"sourceName", "source_name"⟩]

def slots (c : Component) : List FieldSlot :=
  keys.zip [some (.text c.id), some (.text c.name), some (.text c.description),
    some (.list (c.variants.map ComponentVariant.toValue)),
    some (.list (c.properties.map ComponentProperty.toValue)), c.nodeSpec.map Node.toValue,
    c.baseWidgetId.map .text, c.sourceName.map .text]

/-- The component as it is read back. -/
def written (c : Component) : Component :=
  { c with
    variants := c.variants.map ComponentVariant.written
    nodeSpec := c.nodeSpec.map Node.written }

theorem toValue_eq (c : Component) : c.toValue = .record (ofSlots c.slots) := by
  simp [toValue, slots, keys, ofSlots]

/-- A component with texts and truth values for the defaults of its switches is read back. -/
theorem decode_toValue {c : Component} (h : ∀ p ∈ c.properties, p.defaultValue.isPlain = true) :
    decode c.toValue = .ok c.written := by
  have switches : Decoded.list ComponentProperty.decode
      (.list (c.properties.map ComponentProperty.toValue)) =
        .ok (c.properties.map fun p => p) :=
    Decoded.list_of_forall fun p hp => ComponentProperty.decode_toValue (h p hp)
  have separate : Key.Separate (c.slots.map (·.1)) := by
    show Key.Separate keys
    simp [Key.Separate, keys, Text.ofString_inj]
  have shown := shows_ofSlots separate
  rw [toValue_eq, decode, Decoded.record]
  generalize ofSlots c.slots = fs at shown ⊢
  simp only [slots, keys, List.zip_cons_cons, shows_cons] at shown
  obtain ⟨id, name, description, variants, properties, nodeSpec, widgetId, sourceName, -⟩ := shown
  rw [required_of_shown .text id, required_of_shown .text name,
    orElse_of_shown .text _ description, orElse_of_shown ComponentVariant.readsBack.list _ variants,
    orElse_of_read _ switches properties, optional_of_shown Node.readsBack nodeSpec,
    optional_of_shown .text widgetId, optional_of_shown .text sourceName]
  simp [written]

theorem toValue_written (c : Component) : c.written.toValue = c.toValue := by
  have variants : (c.variants.map ComponentVariant.written).map ComponentVariant.toValue =
      c.variants.map ComponentVariant.toValue := by
    rw [List.map_map]
    exact List.map_congr_left fun v _ => v.toValue_written
  have nodeSpec : (c.nodeSpec.map Node.written).map Node.toValue = c.nodeSpec.map Node.toValue := by
    rw [Option.map_map]
    exact congrArg (fun f => c.nodeSpec.map f) (funext Node.toValue_written)
  rw [toValue_eq, toValue_eq]
  simp only [slots, written, variants, nodeSpec]

theorem nodeSpecs_written (c : Component) : c.written.nodeSpecs = c.nodeSpecs.map Node.written := by
  rw [nodeSpecs, nodeSpecs, written, List.map_append, List.map_map, List.map_map]
  cases c.nodeSpec <;> rfl

theorem write_of_fits {c : Component} (h : c.fits = true) : c.write = .ok c.toValue := if_pos h

theorem fits_written (c : Component) : c.written.fits = true := by
  rw [fits, nodeSpecs_written, List.all_map, List.all_eq_true]
  exact fun n _ => n.fits_written

end Component

/-! ## Components that were built -/

/-- The switches of a component have texts and truth values for their defaults. -/
theorem Definition.isPlain_of_mem_switches {d : Definition} {p : ComponentProperty}
    (hp : p ∈ d.switches) : p.defaultValue.isPlain = true := by
  rw [switches, List.mem_append, List.mem_append, List.mem_append] at hp
  rcases hp with ((hp | hp) | hp) | hp
  · obtain ⟨e, -, rfl⟩ := List.mem_map.1 hp
    unfold switchOf
    simp only
    split
    · rfl
    · split <;> rfl
  · have own := (List.mem_filter.1 hp).1
    unfold WidgetKind.switches at own
    split at own
    · simp only [List.mem_cons, List.not_mem_nil, or_false] at own
      rcases own with rfl | rfl <;> rfl
    · cases List.mem_singleton.1 own
      rfl
    · cases List.mem_singleton.1 own
      rfl
    · simp at own
  · unfold textSwitch at hp
    split at hp
    · cases List.mem_singleton.1 hp
      rfl
    · simp at hp
  · unfold iconSwitch at hp
    split at hp
    · cases List.mem_singleton.1 hp
      rfl
    · simp at hp

/-- **What is written is read back.** A node tree that can be written is read from what is written
of it, and so is a component that was built. What is read is written in the same way, with the same
nodes in its walks. -/
theorem read_back_of_write :
    (∀ (n : Node) v, n.write = .ok v →
      ∃ m, Node.decode v = .ok m ∧ m.write = .ok v ∧
        m.walk.map Node.toValue = n.walk.map Node.toValue ∧ m.count = n.count) ∧
    ∀ (s : Synthesizer) d run c after v, runFrom run (s.build d) = (.ok c, after) →
      c.write = .ok v →
      ∃ e, Component.decode v = .ok e ∧ e.write = .ok v ∧
        e.nodeSpecs.map (fun n => n.walk.map Node.toValue) =
          c.nodeSpecs.map (fun n => n.walk.map Node.toValue) ∧
        e.nodeSpecs.map Node.count = c.nodeSpecs.map Node.count := by
  have walk (n : Node) : n.written.walk.map Node.toValue = n.walk.map Node.toValue := by
    rw [Node.walk_written, List.map_map]
    exact List.map_congr_left fun m _ => m.toValue_written
  have count (n : Node) : n.written.count = n.count := by
    rw [Node.count, Node.count, Node.walk_written, List.length_map]
  constructor
  · intro n v h
    unfold Node.write at h
    split at h
    · cases h
      refine ⟨n.written, n.decode_toValue, ?_, walk n, count n⟩
      rw [Node.write_of_fits n.fits_written, n.toValue_written]
    · cases h
  · intro s d run c after v built h
    have plain : ∀ p ∈ c.properties, p.defaultValue.isPlain = true := by
      obtain ⟨vs, made, base, based, -, -, -, rfl⟩ := Synthesizer.yields_build.1 built
      exact fun p hp => Definition.isPlain_of_mem_switches hp
    unfold Component.write at h
    split at h
    · cases h
      refine ⟨c.written, Component.decode_toValue plain, ?_, ?_, ?_⟩
      · rw [Component.write_of_fits c.fits_written, c.toValue_written]
      · rw [Component.nodeSpecs_written, List.map_map]
        exact List.map_congr_left fun n _ => walk n
      · rw [Component.nodeSpecs_written, List.map_map]
        exact List.map_congr_left fun n _ => count n
    · cases h

theorem read_back_of_write_button :
    let row : Node := { kind := .frame, name := "Row",
                        properties := { width := some 120, layoutGrow := some (.float (.ofInt 1)),
                                        overrides := some [("flex", .number 2)] },
                        children := [{ kind := .text, name := "Text" }] }
    let save : Widget := { id := "save", kind := .button,
                           properties := { style := some "primary", width := some 88 } }
    let big : RecordedVariant := { name := "Big", properties := [("size", .number 3)] }
    let button : Definition := { widget := save, name := "Button", variants := [big] }
    let s : Synthesizer := {}
    (∃ v m, row.write = .ok v ∧ Node.decode v = .ok m ∧ m.write = .ok v ∧
      m.walk.map Node.toValue = row.walk.map Node.toValue ∧ m.count = row.count) ∧
    ∃ c after v e, runFrom {} (s.build button) = (.ok c, after) ∧ c.write = .ok v ∧
      Component.decode v = .ok e ∧ e.write = .ok v ∧
      e.nodeSpecs.map (fun n => n.walk.map Node.toValue) =
        c.nodeSpecs.map (fun n => n.walk.map Node.toValue) ∧
      e.nodeSpecs.map Node.count = c.nodeSpecs.map Node.count := by
  intro row save big button s
  have rowWritten := Node.write_of_fits (by decide +kernel : row.fits = true)
  obtain ⟨m, readRow⟩ := read_back_of_write.1 row _ rowWritten
  obtain ⟨c, after, built, fits⟩ := exists_yields_of_any (by decide +kernel :
    (runFrom {} (s.build button)).1.toOption.any Component.fits = true)
  have written := Component.write_of_fits fits
  obtain ⟨e, readBack⟩ := read_back_of_write.2 s button {} c after _ built written
  exact ⟨⟨_, m, rowWritten, readRow⟩, c, after, _, e, built, written, readBack⟩

end DesignTree
