import DesignTree.Proofs.Variant.Alike
import DesignTree.Proofs.Variant.Matrix

/-! # Recorded variations among the variants

A recorded variation may leave properties to the widget. Together with the widget's own values it
gives one configuration, and where all configurations are within the limit there is a variant of it.
That variant is made of the recorded variation, under its name and with its overrides, exactly if
the variation itself lists each property that varies (`variants_of_recorded`): a configuration is
looked up among the recorded variations by what they list alone, without the widget's own values.
-/

namespace DesignTree

/-- A recorded variation lists properties by itself, with values that can vary. -/
def RecordedVariant.Lists (v : RecordedVariant) (keys : List Text) : Prop :=
  ∀ key ∈ keys, (Entries.get? (Configuration.ofFields v.properties) key).isSome = true

instance (v : RecordedVariant) (keys : List Text) : Decidable (v.Lists keys) :=
  inferInstanceAs (Decidable (∀ key ∈ keys, _))

namespace Configuration

theorem agrees_selection_iff {own : Configuration} {selection : Fields} :
    own.agrees selection = true ↔
      ∀ e ∈ selection, Scalar.agree (Entries.get? own e.1) (Scalar.ofValue? e.2) = true := by
  simp only [agrees, List.all_eq_true]
  refine forall_congr' fun e => forall_congr' fun _ => ?_
  cases Entries.get? own e.1 <;> cases Scalar.ofValue? e.2 <;> simp [Scalar.agree]

theorem agrees_iff {own c : Configuration} :
    own.agrees c.toFields = true ↔ ∀ e ∈ c, Scalar.agree (Entries.get? own e.1) (some e.2) := by
  have scalar (s : Scalar) : Scalar.ofValue? s.toValue = some s := by cases s <;> rfl
  rw [agrees_selection_iff, toFields, Entries.mapValues, List.forall_mem_map]
  simp only [scalar]

end Configuration

namespace Definition

variable {d : Definition} {u v : RecordedVariant} {c : Configuration}

/-- Two recorded variations give the same value to each property that varies. -/
def GiveSame (d : Definition) (u v : RecordedVariant) : Prop :=
  ∀ key ∈ d.varying, Scalar.agree (d.valueWith u key) (d.valueWith v key) = true

instance (d : Definition) (u v : RecordedVariant) : Decidable (d.GiveSame u v) :=
  inferInstanceAs (Decidable (∀ key ∈ d.varying, _))

instance (d : Definition) (v : RecordedVariant) (c : Configuration) : Decidable (d.Shows v c) :=
  inferInstanceAs (Decidable (∀ e ∈ c, _))

theorem valueWith_of_listed {key : Text} {s : Scalar}
    (h : Entries.get? (Configuration.ofFields v.properties) key = some s) :
    d.valueWith v key = some s := by
  rw [valueWith, h]
  rfl

/-- What agrees with a configuration lists all that varies, and is shown by the configuration. -/
theorem lists_of_agrees (hk : c.keys = d.varying)
    (h : (Configuration.ofFields v.properties).agrees c.toFields = true) :
    v.Lists d.varying ∧ d.Shows v c := by
  rw [Configuration.agrees_iff] at h
  constructor
  · intro key hkey
    rw [← hk] at hkey
    obtain ⟨e, he, rfl⟩ := List.mem_map.1 hkey
    obtain ⟨s, t, hs, -, -⟩ := Scalar.agree_iff.1 (h e he)
    rw [hs]
    rfl
  · intro e he
    have same := h e he
    obtain ⟨s, t, hs, -, -⟩ := Scalar.agree_iff.1 same
    rw [hs] at same
    rwa [valueWith_of_listed hs, Scalar.agree_comm]

/-- What lists all that varies agrees with the configuration that shows it. -/
theorem agrees_of_lists (hk : c.keys = d.varying) (shows : d.Shows v c)
    (h : v.Lists d.varying) : (Configuration.ofFields v.properties).agrees c.toFields = true := by
  refine Configuration.agrees_iff.2 fun e he => ?_
  have hkey : e.1 ∈ d.varying := by
    rw [← hk]
    exact List.mem_map.2 ⟨e, he, rfl⟩
  obtain ⟨s, hs⟩ := Option.isSome_iff_exists.1 (h e.1 hkey)
  have same := shows e he
  rwa [valueWith_of_listed hs, Scalar.agree_comm, ← hs] at same

/-- Two recorded variations that one configuration shows give the same values. -/
theorem giveSame_of_shows (hk : c.keys = d.varying) (hu : d.Shows u c) (hv : d.Shows v c) :
    d.GiveSame u v := by
  intro key hkey
  rw [← hk] at hkey
  obtain ⟨e, he, rfl⟩ := List.mem_map.1 hkey
  have first := hu e he
  rw [Scalar.agree_comm] at first
  exact Scalar.agree_trans first (hv e he)

/-- The first one of the recorded variations that give the same values is looked up by their
configuration exactly if it lists all that varies. -/
theorem recorded?_eq_some_iff {earlier later : List RecordedVariant}
    (hd : d.variants = earlier ++ v :: later) (first : ∀ u ∈ earlier, ¬d.GiveSame u v)
    (hk : c.keys = d.varying) (shows : d.Shows v c) :
    d.recorded? c = some v ↔ v.Lists d.varying := by
  constructor
  · intro h
    have agrees := List.find?_some
      (p := fun u : RecordedVariant => (Configuration.ofFields u.properties).agrees c.toFields) h
    exact (lists_of_agrees hk agrees).1
  · intro h
    rw [recorded?, hd, List.find?_eq_some_iff_append]
    refine ⟨agrees_of_lists hk shows h, earlier, later, rfl, fun u hu => ?_⟩
    rw [Bool.not_eq_eq_eq_not, Bool.not_true, ← Bool.not_eq_true]
    intro agrees
    exact first u hu (giveSame_of_shows hk (lists_of_agrees hk agrees).2 shows)

theorem widgetFor_of_recorded {w : Widget} (h : d.recorded? c = some v)
    (hw : d.variantWidget v = .ok w) : d.widgetFor c = w := by
  rw [widgetFor, configured, h]
  simp only [hw]

theorem configurationName_of_recorded (h : d.recorded? c = some v) (hn : v.name.isEmpty = false) :
    d.configurationName c = v.name := by
  rw [configurationName, h]
  simp [hn]

end Definition

namespace Synthesizer

open InRun

variable {s : Synthesizer} {d : Definition} {v : RecordedVariant} {run after : Run}
  {vs : List ComponentVariant}

/-- Within the limit each configuration has its variant, and there are no others. -/
theorem variants_within_limit {k : Nat} (hk : s.limit.toNat = .ok k)
    (hcount : (PropertyMatrix.ofDefinition d).combinationCount ≤ k) (hvary : d.varying ≠ [])
    (hy : (s.variants d).Yields run vs after) :
    ((PropertyMatrix.ofDefinition d).combinations.mapM (s.variant d)).Yields run vs after := by
  have hm : (PropertyMatrix.ofDefinition d).isEmpty = false := by
    rw [PropertyMatrix.isEmpty, List.isEmpty_eq_false_iff]
    intro he
    exact hvary (by rw [Definition.varying, PropertyMatrix.keys, he]; rfl)
  rw [yields_variants, hm] at hy
  obtain ⟨k', hk', hv⟩ := hy
  obtain rfl : k' = k := by simpa [hk'] using hk
  rwa [Definition.configurations, PropertyMatrix.leading_of_count_le hcount] at hv

/-- **Which recorded variations are represented.** Let all configurations of a reusable widget be
within the limit, and let a recorded variation, with the widget's own values for what it leaves out,
give a value to each property that varies, as no earlier one does. Then there is a variant of these
values. It is made of the recorded variation exactly if that one lists each property that varies by
itself; then it has the recorded name, unless that is empty, and its tree is the one that the
recorded variation's widget is lowered to, but for the identifiers. -/
theorem variants_of_recorded {earlier later : List RecordedVariant} {k : Nat}
    (hd : d.variants = earlier ++ v :: later) (hk : s.limit.toNat = .ok k)
    (hcount : (PropertyMatrix.ofDefinition d).combinationCount ≤ k) (hvary : d.varying ≠ [])
    (given : d.GiveSame v v) (first : ∀ u ∈ earlier, ¬d.GiveSame u v)
    (hy : (s.variants d).Yields run vs after) :
    (∃ x ∈ vs, d.Shows v x.properties) ∧
      ∀ x ∈ vs, d.Shows v x.properties →
        x.properties.keys = d.varying ∧
        (d.recorded? x.properties = some v ↔ v.Lists d.varying) ∧
        (v.Lists d.varying → (v.name.isEmpty = false → x.name = v.name) ∧
          ∀ w, d.variantWidget v = .ok w →
            ∃ m behind, (s.lower w).Yields {} m behind ∧ x.nodeSpec.Alike m) := by
  have hv := variants_within_limit hk hcount hvary hy
  have hmem : v ∈ d.variants := by
    rw [hd]
    exact List.mem_append_right _ List.mem_cons_self
  constructor
  · obtain ⟨c, hc, shows⟩ := Definition.exists_shows hmem hvary given
    obtain ⟨x, hx, before, behind, made⟩ := exists_result_of_mem hv hc
    obtain ⟨m, -, rfl⟩ := yields_variant.1 made
    exact ⟨_, hx, shows⟩
  · intro x hx shows
    obtain ⟨c, hc, before, behind, made⟩ := exists_of_mem_mapM hv hx
    obtain ⟨m, hm, rfl⟩ := yields_variant.1 made
    have keys := Definition.keys_of_mem_combinations hc
    have lookup := Definition.recorded?_eq_some_iff hd first keys shows
    refine ⟨keys, lookup, fun lists => ⟨?_, fun w hw => ?_⟩⟩
    · exact Definition.configurationName_of_recorded (lookup.2 lists)
    · rw [Definition.widgetFor_of_recorded (lookup.2 lists) hw] at hm
      obtain ⟨n, finish, hn⟩ := (returns_lower_congr s w _ {}).1 ⟨m, behind, hm⟩
      exact ⟨n, finish, hn, alike_of_lower hm hn⟩

theorem variants_of_recorded_button :
    let save : Widget := { id := "save", kind := .button,
                           properties := { style := some "primary", size := some "medium" } }
    let big : RecordedVariant := { name := "Big", properties := [("size", .text "large")] }
    let button : Definition := { widget := save, name := "Button", variants := [big] }
    let s : Synthesizer := {}
    ∃ vs after, (s.variants button).Yields {} vs after ∧
      ∃ x ∈ vs, button.Shows big x.properties ∧ x.name = "Big" ∧
        ∀ w, button.variantWidget big = .ok w →
          ∃ m behind, (s.lower w).Yields {} m behind ∧ x.nodeSpec.Alike m := by
  intro save big button s
  obtain ⟨vs, after, hy⟩ := returns_iff.2 (by decide +kernel :
    (runFrom {} (s.variants button)).1.isOk = true)
  have alone : button.variants = [] ++ big :: [] := rfl
  have limit : s.limit.toNat = .ok 16 := rfl
  obtain ⟨⟨x, hx, shows⟩, all⟩ := variants_of_recorded alone limit (by decide +kernel)
    (by decide +kernel) (by decide +kernel) (fun u hu => absurd hu List.not_mem_nil) hy
  have lists : big.Lists button.varying := by decide +kernel
  obtain ⟨-, -, made⟩ := all x hx shows
  obtain ⟨name, node⟩ := made lists
  exact ⟨vs, after, hy, x, hx, shows, name (by decide), node⟩

/-- A recorded variation that leaves a property to the widget is not represented: there is a variant
of its values, but under a name of its own. -/
theorem variants_of_partial_recording :
    let save : Widget := { id := "save", kind := .button,
                           properties := { style := some "primary", size := some "medium" } }
    let big : RecordedVariant := { name := "Big", properties := [("size", .text "large")] }
    let quiet : RecordedVariant := { name := "Quiet", properties := [("style", .text "secondary")] }
    let button : Definition := { widget := save, name := "Button", variants := [big, quiet] }
    let s : Synthesizer := {}
    button.GiveSame big big ∧ (PropertyMatrix.ofDefinition button).combinationCount = 4 ∧
      ∃ vs after, (s.variants button).Yields {} vs after ∧
        ∃ x ∈ vs, button.Shows big x.properties ∧ x.name = "Large Primary" := by
  intro save big quiet button s
  let large : Configuration := [("style", .text "primary"), ("size", .text "large")]
  obtain ⟨vs, after, hy⟩ := returns_iff.2 (by decide +kernel :
    (runFrom {} (s.variants button)).1.isOk = true)
  have limit : s.limit.toNat = .ok 16 := rfl
  have all := variants_within_limit limit (by decide +kernel) (by decide +kernel) hy
  obtain ⟨x, hx, before, behind, made⟩ := exists_result_of_mem all
    (by decide +kernel : large ∈ (PropertyMatrix.ofDefinition button).combinations)
  obtain ⟨m, -, rfl⟩ := yields_variant.1 made
  have unrecorded : button.recorded? large = none :=
    Option.isNone_iff_eq_none.1 (by decide +kernel)
  have named : button.configurationName large = Variant.name large.toFields := by
    rw [Definition.configurationName, unrecorded]
  let size : Text × Value := ("size", .text "large")
  let style : Text × Value := ("style", .text "primary")
  have sorted : Variant.significant large.toFields = [size, style] := by
    have kept : large.toFields.filter (fun e => e.1 != Variant.placeholderKey && !e.2.isNull) =
        [style, size] := rfl
    have ascending : ¬style.1 ≤ size.1 := by decide +kernel
    simp [Variant.significant, kept, List.mergeSort, ascending]
  refine ⟨by decide +kernel, by decide +kernel, vs, after, hy, _, hx, ?_, named.trans ?_⟩
  · exact (by decide +kernel : button.Shows big large)
  · rw [Variant.name, sorted]
    decide +kernel

end Synthesizer

end DesignTree
