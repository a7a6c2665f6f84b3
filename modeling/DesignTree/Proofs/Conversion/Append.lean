import DesignTree.Proofs.Conversion.Usage
import DesignTree.Proofs.Run.Append

/-! # What is recorded makes no difference to a conversion

Lowering and styling a tree, building the components and putting instances in place only add to what
is recorded. -/

namespace DesignTree

open InRun

namespace Widget

theorem composed_placeChild (parent : Widget) (index : Nat) (child : Widget) (n : Node) :
    (placeChild parent index child n).Composed := by
  rw [placeChild_eq]
  have noted (p : NodeProperties) : (do
      record (strayNotes parent child)
      return { n with properties := p } : InRun Node).Composed :=
    (plain_record _).composed.bind fun _ => composed_pure _
  exact (plain_lift _).composed.bind noted

theorem composed_lower (w : Widget) : w.lower.Composed := by
  induction w using Widget.forest_induct
    (q := fun cs => ∀ parent index, (lowerChildren parent index cs).Composed) with
  | step w children =>
    have inner : w.lowerInner.Composed := by
      unfold lowerInner
      split
      · exact composed_pure _
      · exact children w 0
    rw [lower_eq_assemble]
    exact w.plain_ownProperties.composed.bind fun _ =>
      (Composed.nextId _).bind fun _ => inner.bind fun _ => (plain_lift _).composed
  | nil parent index => exact composed_pure _
  | cons child rest first others parent index =>
    rw [lowerChildren]
    exact first.bind fun n => (composed_placeChild parent index child n).bind fun _ =>
      (others parent (index + 1)).bind fun _ => composed_pure _

end Widget

theorem Resolver.composed_applyTree (r : Resolver) (w : Widget) (n : Node) :
    (r.applyTree w n).Composed := by
  rw [applyTree_eq]
  rcases r.styleTree w n with ⟨m, styled, _ | _⟩
  · exact (plain_record _).composed.bind fun _ => composed_throw _
  · exact (plain_record _).composed.bind fun _ => composed_pure _

namespace Synthesizer

theorem composed_lower (s : Synthesizer) (w : Widget) : (s.lower w).Composed := by
  unfold lower
  refine w.composed_lower.bind fun n => ?_
  cases s.resolver with
  | none => exact composed_pure _
  | some r => exact (r.composed_applyTree w n).bind fun _ => composed_pure _

theorem composed_variantWidget (d : Definition) (c : Configuration) :
    (variantWidget d c).Composed := by
  unfold variantWidget
  split
  · exact composed_pure _
  · exact (plain_record _).composed.bind fun _ => composed_pure _

theorem composed_variant (s : Synthesizer) (d : Definition) (c : Configuration) :
    (s.variant d c).Composed :=
  (composed_variantWidget d c).bind fun w => (s.composed_lower w).bind fun _ => composed_pure _

theorem composed_variants (s : Synthesizer) (d : Definition) : (s.variants d).Composed := by
  unfold variants onlyVariant
  simp only
  split
  · exact ((s.composed_lower d.widget).bind fun _ => composed_pure _).bind fun _ => composed_pure _
  · exact (plain_lift _).composed.bind fun _ => composed_mapM (s.composed_variant d) _

theorem composed_build (s : Synthesizer) (d : Definition) : (s.build d).Composed :=
  (s.composed_variants d).bind fun _ => (s.composed_lower d.widget).bind fun _ =>
    (Composed.nextId _).bind fun _ => composed_pure _

theorem composed_buildAll (s : Synthesizer) (ds : List Definition) : (s.buildAll ds).Composed := by
  induction ds with
  | nil => exact composed_pure _
  | cons d rest ih => exact (s.composed_build d).bind fun _ => ih.bind fun _ => composed_pure _

end Synthesizer

namespace Catalog

theorem composed_replace (c : Catalog) (componentId : Text) (w : Widget) (n : Node) :
    (c.replace componentId w n).Composed := by
  have instanced : (c.instantiate w componentId).Composed :=
    (plain_lift _).composed.bind fun _ => (plain_lift _).composed.bind fun _ =>
      (Composed.nextId _).bind fun _ => composed_pure _
  exact instanced.bind fun _ => composed_pure _

theorem composed_placeInstances (c : Catalog) (us : Usages) (w : Widget) (n : Node) :
    (c.placeInstances us w n).Composed := by
  induction w using Widget.forest_induct
    (q := fun ws => ∀ ns, (c.placeInstancesAll us ws ns).Composed) generalizing n with
  | step w children =>
    rw [placeInstances_eq]
    split
    · exact c.composed_replace _ _ _
    · exact (children n.children).bind fun _ => composed_pure _
  | nil ns => cases ns <;> first | exact composed_pure _ | exact composed_throw _
  | cons v rest first others ns =>
    cases ns with
    | nil => exact composed_throw _
    | cons m ms =>
      rw [placeInstancesAll]
      exact (first m).bind fun _ => (others ms).bind fun _ => composed_pure _

end Catalog

end DesignTree
