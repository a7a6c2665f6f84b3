import DesignTree.Proofs.Lowering.Arrangement
import DesignTree.Proofs.Lowering.Growth

/-! # Shares of a parent's space

A child grows along the axis of its parent and fills it; across that axis it is sized by its own
layout alone, as is a child that does not grow (`shares_of_lower`).
-/

namespace DesignTree

open Layout (fixedSizing)
open NodeProperties (growth fillSizing)

/-- The axis across another one. -/
def Axis.other : Axis → Axis
  | .horizontal => .vertical
  | .vertical => .horizontal

/-- The size of a layout along an axis. -/
def Layout.sizeAlong (l : Layout) : Axis → Option Number
  | .horizontal => l.width
  | .vertical => l.height

theorem Stretch.sizing_grown {s : Stretch} {child : Widget} {share : Number}
    (h : growth child = some share) (axis : Axis) :
    (s.grown child (some axis)).share = some share ∧
      (s.grown child (some axis)).sizing axis = some fillSizing ∧
      (s.grown child (some axis)).sizing axis.other = s.sizing axis.other := by
  unfold grown
  rw [h]
  cases axis <;> exact ⟨rfl, rfl, rfl⟩

namespace Widget

open InRun

/-- A widget asks for a share of the space: it has a share of its own that is not zero, or it is
expanded. -/
def AsksShare (w : Widget) : Prop :=
  (∃ flex, w.properties.flex = some flex ∧ flex.isZero = false) ∨
    w.properties.isExpanded = some true

/-- A widget's own share unless it is zero, and one otherwise. -/
def share (w : Widget) : Number := (w.properties.flex.filter (!·.isZero)).getD 1

theorem growth_of_asks {w : Widget} (h : w.AsksShare) : growth w = some w.share := by
  unfold growth share
  rcases h with ⟨flex, hf, hz⟩ | he
  · simp [hf, hz, Option.filter]
  · cases hf : w.properties.flex with
    | none => simp [he, Option.filter]
    | some flex => cases hz : flex.isZero <;> simp [he, hz, Option.filter]

theorem growth_of_not_asks {w : Widget} (h : ¬ w.AsksShare) : growth w = none := by
  obtain ⟨flex, expanded⟩ := not_or.1 h
  unfold growth
  rw [if_neg expanded]
  cases hf : w.properties.flex with
  | none => rfl
  | some n =>
    cases hz : n.isZero with
    | true => simp [hz]
    | false => exact absurd ⟨n, hf, hz⟩ flex

/-- A frame is sized along an axis by its layout, if this fixes the size. -/
theorem sizing_layoutStretch (w : Widget) (axis : Axis) :
    w.layoutStretch.sizing axis =
      if !w.isLeaf && (w.layout.bind (·.sizeAlong axis)).isSome then some fixedSizing
      else none := by
  unfold layoutStretch
  cases w.isLeaf with
  | true => cases axis <;> rfl
  | false => cases w.layout <;> cases axis <;> rfl

/-- The share that a child's node has of its parent's space, and how it is sized: along the axis of
the parent, which the parent's automatic layout follows, it fills the space. -/
structure Shares (parent : Widget) (layout : Option AutoLayout) (child : Widget) (k : Node) : Prop
    where
  grows : k.properties.layoutGrow.isSome = true ↔
    parent.isStack = false ∧ parent.mainAxis.isSome = true ∧ child.AsksShare
  along : ∀ n, k.properties.layoutGrow = some n → ∃ axis, parent.mainAxis = some axis ∧
    n = child.share ∧ k.properties.stretch.sizing axis = some fillSizing ∧
    k.properties.stretch.sizing axis.other =
      (if !child.isLeaf && (child.layout.bind (·.sizeAlong axis.other)).isSome then some fixedSizing
      else none) ∧
    ∀ auto, layout = some auto → auto.layoutMode = axis.mode
  rests : k.properties.layoutGrow = none → ∀ axis,
    k.properties.stretch.sizing axis ≠ some fillSizing

theorem sizing_layoutStretch_ne (w : Widget) (axis : Axis) :
    w.layoutStretch.sizing axis ≠ some fillSizing := by
  rw [sizing_layoutStretch]
  split
  · decide
  · exact nofun

theorem share_layoutStretch (w : Widget) : w.layoutStretch.share = none := by
  unfold layoutStretch
  split
  · rfl
  · cases w.layout <;> rfl

/-- A child grows only outside of stacks, along an axis, and if it asks for it. -/
theorem loweredStretch_of_not_grows {parent child : Widget}
    (h : ¬ (parent.isStack = false ∧ parent.mainAxis.isSome = true ∧ child.AsksShare)) :
    loweredStretch (some parent) child = child.layoutStretch := by
  rw [loweredStretch]
  by_cases hs : parent.isStack
  · rw [if_pos hs]
  · rw [if_neg hs]
    unfold Stretch.grown
    cases ha : parent.mainAxis with
    | none => cases growth child <;> rfl
    | some axis =>
      rw [Bool.not_eq_true] at hs
      have quiet : ¬ child.AsksShare := fun asks => h ⟨hs, by rw [ha]; rfl, asks⟩
      rw [growth_of_not_asks quiet]

/-- A child's node that is stretched as it is lowered has its share of the space. -/
theorem shares_of_stretch {parent child : Widget} {layout : Option AutoLayout} {k : Node}
    (mode : ∀ auto, layout = some auto → parent.mainAxis.map Axis.mode = some auto.layoutMode)
    (h : k.properties.stretch = loweredStretch (some parent) child) :
    Shares parent layout child k := by
  have grow : k.properties.layoutGrow = (loweredStretch (some parent) child).share := by
    rw [← h]
    rfl
  by_cases grows : parent.isStack = false ∧ parent.mainAxis.isSome = true ∧ child.AsksShare
  · obtain ⟨axis, ha⟩ := Option.isSome_iff_exists.1 grows.2.1
    have stretch : loweredStretch (some parent) child = child.layoutStretch.grown child axis := by
      rw [loweredStretch, grows.1, if_neg Bool.false_ne_true, ha]
    obtain ⟨share, fills, other⟩ :=
      child.layoutStretch.sizing_grown (growth_of_asks grows.2.2) axis
    rw [stretch] at h grow
    rw [share] at grow
    refine ⟨iff_of_true (by rw [grow]; rfl) grows, fun n hn => ⟨axis, ha, ?_, ?_, ?_, ?_⟩,
      fun hn => ?_⟩
    · exact Option.some.inj (hn.symm.trans grow)
    · rw [h]
      exact fills
    · rw [h, other]
      exact child.sizing_layoutStretch axis.other
    · intro auto hl
      have along := mode auto hl
      rw [ha, Option.map_some, Option.some.injEq] at along
      exact along.symm
    · cases grow.symm.trans hn
  · rw [loweredStretch_of_not_grows grows] at h grow
    rw [share_layoutStretch] at grow
    refine ⟨iff_of_false (by rw [grow]; exact Bool.false_ne_true) grows, fun n hn => ?_,
      fun _ axis => ?_⟩
    · cases grow.symm.trans hn
    · rw [h]
      exact child.sizing_layoutStretch_ne axis

/-- **Growth follows the parent's axis.** A widget tree is lowered, if its numbers allow it, to a
node for each widget that is not below a text or an image. The node of a child has a share of the
space exactly if its parent is no stack and has an axis and the child asks for it: then the node
fills the space along that axis, which is the one of the parent's automatic layout. -/
theorem shares_of_lower (w : Widget) (run : Run) :
    (w.lower.Returns run ↔ w.lowerable = true) ∧
    ∀ n after, runFrom run w.lower = (.ok n, after) →
      Along (fun v m => m.widgetId = some v.id ∧
        List.Forall₂ (Shares v m.autoLayout) v.children m.children) w.pruned n := by
  refine ⟨w.returns_lower_iff run, fun n after h => ?_⟩
  refine (along_of_yields
    (r := fun v m => m.widgetId = some v.id ∧ v.LaidOut m ∧ m.properties.stretch = v.layoutStretch)
    ?_ ?_ ?_ w h).2
  · intro v p id ms m hp hm
    exact ⟨(isNodeOf_of_assemble hm).widgetId, laidOut_of_assemble hp hm,
      stretch_of_assemble (stretch_of_ownProperties hp) hm⟩
  · rintro v m ⟨hid, laidOut, -⟩ placed
    refine ⟨hid, ?_⟩
    rw [← List.zipIdx_map_fst 0 v.children, List.forall₂_map_left_iff]
    refine placed.imp ?_
    rintro c k ⟨node, p, ⟨-, -, stretch⟩, hp, rfl⟩
    refine shares_of_stretch (fun auto ha => (laidOut.axis auto ha).2) ?_
    rw [stretch_of_placedProperties hp, stretch, loweredStretch]
  · rintro parent index v m p hp ⟨hid, shares⟩
    exact ⟨hid, shares⟩

theorem shares_of_lower_bar :
    let title : Widget := { id := "title", kind := .text,
                            properties := { isExpanded := some true } }
    let search : Widget := { id := "search", kind := .container, properties := { flex := some 2 },
                             layout := some { kind := .row, height := some 40 },
                             children := [title] }
    let bar : Widget := { id := "bar", kind := .container, layout := some { kind := .row },
                          children := [{ id := "icon", kind := .image }, search] }
    ∃ n after, runFrom {} bar.lower = (.ok n, after) ∧
      Along (fun v m => m.widgetId = some v.id ∧
        List.Forall₂ (Shares v m.autoLayout) v.children m.children) bar.pruned n := by
  intro title search bar
  obtain ⟨n, after, h⟩ := (shares_of_lower bar {}).1.2 (by decide +kernel)
  exact ⟨n, after, h, (shares_of_lower bar {}).2 n after h⟩

end Widget

end DesignTree
