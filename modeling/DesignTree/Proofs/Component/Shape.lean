import DesignTree.Proofs.Component.Catalog

/-! # The shape of a component

A variant takes another value for some properties and another styling, and keeps all else of the
reusable widget (`Definition.exists_widgetFor`). Lowering reads the places of a tree off the
identifiers, the kinds and the children of widgets, so that the trees of a component, which are made
of different widgets, have one shape and the same widgets at their places (`widgetIds_of_build`).
-/

namespace DesignTree

namespace Widget

variable {w u : Widget}

/-- Only properties and styling change where they are overridden. -/
theorem exists_of_withOverrides {properties : Fields} {styling : Option Styling}
    (h : w.withOverrides properties styling = .ok u) :
    ∃ p st, u = { w with properties := p, styling := st } := by
  unfold withOverrides at h
  cases hp : w.properties.merged properties with
  | error r =>
    rw [hp] at h
    cases h
  | ok p =>
    rw [hp] at h
    cases h
    exact ⟨p, w.styling.merged styling, rfl⟩

/-- Properties and styling play no part in where the widgets of a tree are. -/
theorem origins_override (w : Widget) (p : WidgetProperties) (st : Styling) :
    ({ w with properties := p, styling := st } : Widget).pruned.labels origin =
      w.pruned.labels origin := by
  rw [pruned_eq, pruned_eq w, labels_eq, labels_eq]
  rfl

end Widget

namespace Definition

/-- The widget of a variant is the reusable widget with other properties and another styling,
whether it can take them or not. -/
theorem exists_widgetFor (d : Definition) (c : Configuration) :
    ∃ p st, d.widgetFor c = { d.widget with properties := p, styling := st } := by
  unfold widgetFor
  split
  · next w h =>
    unfold configured at h
    split at h
    · exact Widget.exists_of_withOverrides h
    · exact Widget.exists_of_withOverrides h
  · cases d.widget
    exact ⟨_, _, rfl⟩

end Definition

namespace Node

/-- The base of a component has the widgets at its places that it was made of. -/
theorem widgetIds_asComponent (n : Node) (name description : Text) :
    (n.asComponent name description).labels widgetId = n.labels widgetId := by
  rw [labels_eq, labels_eq]
  rfl

end Node

namespace Synthesizer

open InRun

variable {s : Synthesizer} {d : Definition} {run after : Run}

/-- A tree that is made has at its places the widgets that it is made of, but for the children of
texts and images. -/
theorem widgetIds_lower {w : Widget} {m : Node} (h : (s.lower w).Yields run m after) :
    m.labels Node.widgetId = (w.pruned.labels Widget.origin).map Prod.fst := by
  rw [← labels_lower_pruned h, Node.map_labels]
  rfl

theorem widgetIds_variants {vs : List ComponentVariant} (h : (s.variants d).Yields run vs after) :
    ∀ v ∈ vs, v.nodeSpec.labels Node.widgetId =
      (d.widget.pruned.labels Widget.origin).map Prod.fst := by
  intro v hv
  obtain ⟨w, hw, before, behind, made⟩ := exists_lower_of_variants h hv
  rw [widgetIds_lower made]
  rcases hw with rfl | ⟨c, rfl⟩
  · rfl
  · obtain ⟨p, st, configured⟩ := d.exists_widgetFor c
    rw [configured, Widget.origins_override]

/-- All trees of a component have at their places the widgets of the reusable widget. -/
theorem widgetIds_of_build {c : Component} (h : (s.build d).Yields run c after) :
    ∃ base, c.nodeSpec = some base ∧
      base.labels Node.widgetId = (d.widget.pruned.labels Widget.origin).map Prod.fst ∧
      ∀ v ∈ c.variants, v.nodeSpec.labels Node.widgetId = base.labels Node.widgetId := by
  obtain ⟨vs, made, base, based, hv, hb, -, rfl⟩ := yields_build.1 h
  refine ⟨_, rfl, ?_, fun v hm => ?_⟩
  · rw [Node.widgetIds_asComponent, widgetIds_lower hb]
  · rw [Node.widgetIds_asComponent, widgetIds_lower hb]
    exact widgetIds_variants hv v hm

/-- **All configurations of a component are alike in structure.** The base of a component that is
built and the trees of its variants have one shape, and at each place the same widget, whatever the
variants override and whether the widget can take it. -/
theorem variants_shaped_as_base (s : Synthesizer) (d : Definition) (run after : Run) (c : Component)
    (h : (s.build d).Yields run c after) :
    ∃ base, c.nodeSpec = some base ∧
      ∀ v ∈ c.variants, v.nodeSpec.shape = base.shape ∧
        v.nodeSpec.labels Node.widgetId = base.labels Node.widgetId := by
  obtain ⟨base, hb, -, same⟩ := widgetIds_of_build h
  refine ⟨base, hb, fun v hv => ?_⟩
  have places := same v hv
  exact ⟨Node.shape_of_labels places, places⟩

/-- A row with a recorded variation that it can take and one that it cannot. -/
theorem variants_shaped_as_base_row :
    let label : Widget := { id := "label", kind := .text, properties := { text := some "Save" } }
    let row : Widget := { id := "row", kind := .row, children := [label],
                          properties := { size := some "small" } }
    let large : RecordedVariant := { name := "Large", properties := [("size", .text "large")] }
    let huge : RecordedVariant := { name := "Huge",
                                    properties := [("size", .text "huge"), ("style", .list [])] }
    let bar : Definition := { widget := row, name := "Bar", variants := [large, huge] }
    let s : Synthesizer := {}
    ∃ c after, (s.build bar).Yields {} c after ∧ c.variants ≠ [] ∧
      ∃ base, c.nodeSpec = some base ∧
        ∀ v ∈ c.variants, v.nodeSpec.shape = base.shape ∧
          v.nodeSpec.labels Node.widgetId = base.labels Node.widgetId := by
  intro label row large huge bar s
  obtain ⟨c, after, h, several⟩ := exists_yields_of_any (by decide +kernel :
    (runFrom {} (s.build bar)).1.toOption.any (fun c => 1 < c.variants.length) = true)
  refine ⟨c, after, h, ?_, variants_shaped_as_base s bar {} after c h⟩
  intro none
  rw [none] at several
  cases several

end Synthesizer

end DesignTree
