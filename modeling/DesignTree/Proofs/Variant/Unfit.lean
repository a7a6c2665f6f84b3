import DesignTree.Proofs.Lowering.Alike
import DesignTree.Proofs.Lowering.Stray
import DesignTree.Proofs.Variant.Enumeration

/-! # Configurations that a widget cannot take

The values of a configuration are overrides of the widget's properties, and are read again with
them. What cannot be read costs a warning: the variant keeps its name and its configuration, and is
made of the widget itself (`Definition.Accounts`). The names and the configurations of variants do
not hang on the widget at all, but on its matrix and its recorded variations.
-/

namespace DesignTree

/-- A widget is lowered to a tree, up to identifiers, and records are made of it. -/
def Widget.LowersTo (w : Widget) (n : Node) (ds : Diagnostics) : Prop :=
  ∃ m after, w.lower.Yields {} m after ∧ n.Alike m ∧ after.diagnostics = ds

theorem Widget.lowersTo_of_yields {w : Widget} {run after : Run} {n : Node}
    (h : w.lower.Yields run n after) : w.LowersTo n w.noted := by
  obtain ⟨m, behind, hm⟩ :=
    (w.returns_lower_iff {}).2 ((w.returns_lower_iff run).1 ⟨n, after, h⟩)
  refine ⟨m, behind, hm, w.alike_of_yields h hm, ?_⟩
  rw [(w.mirrors_of_yields hm).after]
  exact List.nil_append _

namespace Definition

/-- What a configuration overrides: what the recorded variation does that agrees with it, or else
its own values. -/
def overridesFor (d : Definition) (c : Configuration) : Fields :=
  match d.recorded? c with
  | some v => v.properties
  | none => c.toFields

/-- What a variant is made of, and what is recorded while it is made. If the widget can take the
overrides of its configuration, these are what the widget with them is lowered to and what that
records. If it cannot, they are what the widget itself is lowered to, and a warning before what that
records. -/
structure Accounts (d : Definition) (v : ComponentVariant) (notes : Diagnostics) : Prop where
  fit : ∀ w, d.configured v.properties = .ok w → w.LowersTo v.nodeSpec notes
  unfit : ∀ r, d.widget.properties.merged (d.overridesFor v.properties) = .error r →
    ∃ lowered, d.widget.LowersTo v.nodeSpec lowered ∧
      notes = .warning .conversion ("Variant " ++ v.name ++ " of " ++ d.name ++
        " uses values the widget cannot take (" ++ r.issues.length.repr ++
        " invalid); lowered from the base widget") d.widget.id :: lowered

variable {d : Definition} {c : Configuration}

theorem exists_configured_eq (d : Definition) (c : Configuration) :
    ∃ styling, d.configured c = d.widget.withOverrides (d.overridesFor c) styling := by
  unfold configured overridesFor
  cases d.recorded? c with
  | some v => exact ⟨v.styling, rfl⟩
  | none => exact ⟨none, rfl⟩

theorem configured_of_unfit {r : Rejection}
    (h : d.widget.properties.merged (d.overridesFor c) = .error r) : d.configured c = .error r := by
  obtain ⟨styling, same⟩ := d.exists_configured_eq c
  rw [same, Widget.withOverrides, h]
  rfl

theorem configurationName_congr {d' : Definition} (h : d'.variants = d.variants)
    (c : Configuration) : d'.configurationName c = d.configurationName c := by
  unfold configurationName recorded?
  rw [h]

end Definition

namespace Synthesizer

open InRun Definition

variable {s : Synthesizer} {d : Definition} {run after : Run} {vs : List ComponentVariant}

theorem lower_of_plain (hr : s.resolver = none) (w : Widget) : s.lower w = w.lower := by
  rw [lower, hr]
  exact bind_pure w.lower

theorem diagnostics_of_lower (hr : s.resolver = none) {w : Widget} {n : Node}
    (h : (s.lower w).Yields run n after) :
    w.LowersTo n w.noted ∧ after.diagnostics = run.diagnostics ++ w.noted := by
  rw [lower_of_plain hr] at h
  refine ⟨Widget.lowersTo_of_yields h, ?_⟩
  rw [(w.mirrors_of_yields h).after]
  rfl

/-- Making a variant records what the variant accounts for, and no error. -/
theorem accounts_of_variant (hr : s.resolver = none) {c : Configuration} {v : ComponentVariant}
    (h : (s.variant d c).Yields run v after) :
    ∃ notes, (d.Accounts v notes ∧ ∀ x ∈ notes, x.isError = false) ∧
      after.diagnostics = run.diagnostics ++ notes := by
  obtain ⟨m, hm, rfl⟩ := yields_variant.1 h
  obtain ⟨made, recorded⟩ := diagnostics_of_lower hr hm
  rw [Run.diagnostics_noting, List.append_assoc] at recorded
  refine ⟨_, ⟨⟨fun w hw => ?_, fun r unfit => ?_⟩, fun x hx => ?_⟩, recorded⟩
  · rw [unfitNotes, hw, List.nil_append, widgetFor, hw]
    rw [widgetFor, hw] at made
    exact made
  · have failed := configured_of_unfit unfit
    rw [widgetFor, failed] at made
    refine ⟨d.widget.noted, made, ?_⟩
    rw [unfitNotes, widgetFor, failed]
    rfl
  · rcases List.mem_append.1 hx with hx | hx
    · unfold unfitNotes at hx
      split at hx
      · exact absurd hx List.not_mem_nil
      · rw [List.mem_singleton.1 hx]
        rfl
    · exact Widget.isError_of_mem_noted _ x hx

/-- The names and the configurations of variants, by the limit. -/
theorem named_of_variants (h : (s.variants d).Yields run vs after) :
    (d.varyingKeys = [] ∧ vs.map (fun v => (v.name, v.properties)) =
      [(Variant.defaultName, [(Variant.placeholderKey, .text "default")])]) ∨
    (d.varyingKeys ≠ [] ∧ ∃ n, s.limit.toNat = .ok n ∧
      vs.map (fun v => (v.name, v.properties)) =
        (d.configurations n).map fun c => (d.configurationName c, c)) := by
  rcases variants_cases h with ⟨none, m, -, rfl⟩ | ⟨vary, n, hn, hv⟩
  · exact .inl ⟨none, rfl⟩
  · exact .inr ⟨vary, n, hn, named_of_mapM hv⟩

/-- Two reusable widgets of one matrix and the same recorded variations have variants of the same
names and configurations under one limit, whatever each of them can take. -/
theorem named_congr {s' : Synthesizer} {d' : Definition} {run' after' : Run}
    {vs' : List ComponentVariant}
    (matrix : PropertyMatrix.ofDefinition d' = PropertyMatrix.ofDefinition d)
    (recorded : d'.variants = d.variants) (limit : s'.limit = s.limit)
    (h : (s.variants d).Yields run vs after) (h' : (s'.variants d').Yields run' vs' after') :
    vs'.map (fun v => (v.name, v.properties)) = vs.map fun v => (v.name, v.properties) := by
  have empty : d'.varyingKeys.isEmpty = d.varyingKeys.isEmpty := by
    rw [← isEmpty_ofDefinition, ← isEmpty_ofDefinition, matrix]
  rw [Bool.eq_iff_iff, List.isEmpty_iff, List.isEmpty_iff] at empty
  rcases named_of_variants h with ⟨none, names⟩ | ⟨some, n, hn, names⟩
  · rcases named_of_variants h' with ⟨-, names'⟩ | ⟨some', -⟩
    · rw [names, names']
    · exact absurd (empty.2 none) some'
  · rcases named_of_variants h' with ⟨none', -⟩ | ⟨-, n', hn', names'⟩
    · exact absurd (empty.1 none') some
    · rw [limit, hn, Except.ok.injEq] at hn'
      subst hn'
      rw [names, names', configurations, configurations, matrix]
      exact List.map_congr_left fun c _ => by rw [configurationName_congr recorded]

theorem errors_append {ds es : Diagnostics} (h : ∀ x ∈ es, x.isError = false) :
    Diagnostics.errors (ds ++ es) = ds.errors := by
  have none : es.filter (·.isError) = [] := List.filter_eq_nil_iff.2 fun x hx => by simp [h x hx]
  rw [Diagnostics.errors, List.filter_append, none, List.append_nil]
  rfl

/-- What the making of variants records is what each of them accounts for, one after the other, and
has no error in it. -/
theorem notes_of_variants (hr : s.resolver = none) (h : (s.variants d).Yields run vs after) :
    ∃ notes : List Diagnostics, after.diagnostics = run.diagnostics ++ notes.flatten ∧
      (d.varyingKeys ≠ [] → List.Forall₂ d.Accounts vs notes) ∧
      ∀ ds ∈ notes, ∀ x ∈ ds, x.isError = false := by
  rcases variants_cases h with ⟨none, m, hm, -⟩ | ⟨-, n, -, hv⟩
  · refine ⟨[d.widget.noted], ?_, fun some => absurd none some, fun ds hds => ?_⟩
    · rw [(diagnostics_of_lower hr hm).2, List.flatten_singleton]
    · rw [List.mem_singleton.1 hds]
      exact Widget.isError_of_mem_noted _
  · obtain ⟨notes, made, recorded⟩ :=
      exists_notes_of_mapM (fun _ _ _ _ h => accounts_of_variant hr h) hv
    refine ⟨notes, recorded, fun _ => made.imp fun _ _ h => h.1, fun ds hds => ?_⟩
    obtain ⟨v, -, hv⟩ := exists_of_mem_forall₂ made hds
    exact hv.2

/-- **A configuration that the widget cannot take costs one warning and nothing else.** Let variants
be made without styles. If some property varies, they are those of the first configurations, and
what is recorded is what each of them accounts for, one after the other: a configuration of which
the overrides cannot be read as properties of the widget has a variant all the same, which is what
the widget itself is lowered to, and records one warning about the conversion of this widget before
what that lowering records. The number and the order of the variants, their names and their
configurations depend on the matrix, the limit and the recorded variations alone, and no error is
recorded. -/
theorem unfit_costs_one_warning (hr : s.resolver = none)
    (hy : (s.variants d).Yields run vs after) :
    (d.varyingKeys ≠ [] → ∃ n, s.limit.toNat = .ok n ∧
      vs.map (·.properties) = (PropertyMatrix.ofDefinition d).combinations.take n ∧
      ∃ notes, List.Forall₂ d.Accounts vs notes ∧
        after.diagnostics = run.diagnostics ++ notes.flatten) ∧
    (∀ (s' : Synthesizer) (d' : Definition) (run' after' : Run) (vs' : List ComponentVariant),
      PropertyMatrix.ofDefinition d' = PropertyMatrix.ofDefinition d → d'.variants = d.variants →
      s'.limit = s.limit → (s'.variants d').Yields run' vs' after' →
      vs'.map (fun v => (v.name, v.properties)) = vs.map fun v => (v.name, v.properties)) ∧
    after.diagnostics.errors = run.diagnostics.errors := by
  obtain ⟨notes, recorded, made, harmless⟩ := notes_of_variants hr hy
  refine ⟨fun vary => ?_, fun _ _ _ _ _ matrix same limit h' =>
    named_congr matrix same limit hy h', ?_⟩
  · obtain ⟨-, n, hn, names⟩ := (named_of_variants hy).resolve_left fun none => vary none.1
    have properties := congrArg (List.map Prod.snd) names
    rw [List.map_map, List.map_map, configurations, PropertyMatrix.leading_eq] at properties
    exact ⟨n, hn, properties.trans (List.map_id _), notes, made vary, recorded⟩
  · rw [recorded]
    refine errors_append fun x hx => ?_
    obtain ⟨ds, hds, hxds⟩ := List.mem_flatten.1 hx
    exact harmless ds hds x hxds

theorem unfit_costs_one_warning_button :
    let save : Widget := { id := "save", kind := .button, properties := { width := some (.int 10) } }
    let wide : RecordedVariant := { properties := [("width", .text "wide")] }
    let button : Definition := { widget := save, name := "Button", variants := [wide] }
    let s : Synthesizer := {}
    let second : Configuration := [("width", .text "wide")]
    s.resolver = none ∧
      ∃ vs after, (s.variants button).Yields {} vs after ∧
        (∃ v ∈ vs, v.properties = second ∧ ∃ lowered, save.LowersTo v.nodeSpec lowered) ∧
        after.diagnostics.errors = [] := by
  intro save wide button s second
  obtain ⟨vs, after, hy⟩ := returns_iff.2 (by decide +kernel :
    (runFrom {} (s.variants button)).1.isOk = true)
  have plain : s.resolver = none := rfl
  obtain ⟨shown, -, clean⟩ := unfit_costs_one_warning plain hy
  obtain ⟨n, hn, properties, notes, made, -⟩ := shown (by decide +kernel)
  have cap : n = 16 := (Except.ok.inj hn).symm
  have emitted : second ∈ vs.map (·.properties) := by
    rw [properties, cap]
    decide +kernel
  obtain ⟨v, hv, found⟩ := List.mem_map.1 emitted
  obtain ⟨ds, -, accounts⟩ := exists_of_mem_forall₂ made.flip hv
  refine ⟨plain, vs, after, hy, ⟨v, hv, found, ?_⟩, clean⟩
  have refused : (save.properties.merged (button.overridesFor second)).isOk = false := by
    decide +kernel
  rw [← found] at refused
  cases unfit : save.properties.merged (button.overridesFor v.properties) with
  | ok p =>
    rw [unfit] at refused
    cases refused
  | error r =>
    obtain ⟨lowered, lowers, -⟩ := accounts.unfit r unfit
    exact ⟨lowered, lowers⟩

end Synthesizer

end DesignTree
