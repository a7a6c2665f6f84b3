import DesignTree.Proofs.Lowering.Size
import DesignTree.Proofs.Widget.Check

/-! # Expanded children

An expanded child is to take the space along the axis of its parent. A check asks for a parent that
is a row or a column, by its kind or by its layout; lowering gives the space along the axis of the
parent's layout, or else of its kind, and gives none in a stack. In a tree without issues the two
differ on stacks alone (`expanded_grows_iff`): a stack with the layout of a row is a row for the
check, and a row with the layout of a stack is one too.
-/

namespace DesignTree

/-- How a node takes space: its share, and its sizing along both axes. -/
structure Stretch where
  share : Option Number := none
  horizontal : Option Text := none
  vertical : Option Text := none
  deriving DecidableEq

namespace Stretch

def sizing (s : Stretch) : Axis → Option Text
  | .horizontal => s.horizontal
  | .vertical => s.vertical

/-- A node has a share of the space along an axis, if there is one, and fills it. -/
def Grows (s : Stretch) (axis : Option Axis) : Prop :=
  s.share.isSome ∧ ∃ a, axis = some a ∧ s.sizing a = some NodeProperties.fillSizing

/-- The stretch of a child that grows along its parent's axis. -/
def grown (s : Stretch) (child : Widget) (axis : Option Axis) : Stretch :=
  match NodeProperties.growth child, axis with
  | some share, some .horizontal =>
    { s with share := some share, horizontal := some NodeProperties.fillSizing }
  | some share, some .vertical =>
    { s with share := some share, vertical := some NodeProperties.fillSizing }
  | _, _ => s

end Stretch

/-- How a layout sizes its frame. -/
def Layout.stretch (l : Layout) : Stretch :=
  { horizontal := if l.width.isSome then some fixedSizing else none
    vertical := if l.height.isSome then some fixedSizing else none }

def NodeProperties.stretch (p : NodeProperties) : Stretch :=
  ⟨p.layoutGrow, p.layoutSizingHorizontal, p.layoutSizingVertical⟩

theorem NodeProperties.stretch_grow (p : NodeProperties) (child : Widget) (axis : Option Axis) :
    (p.grow child axis).stretch = p.stretch.grown child axis := by
  unfold grow Stretch.grown
  cases growth child with
  | none => rfl
  | some share => rcases axis with _ | _ | _ <;> rfl

namespace Widget

open InRun

/-- How a widget's layout sizes its frame. -/
def layoutStretch (w : Widget) : Stretch :=
  if w.isLeaf then {} else (w.layout.map Layout.stretch).getD {}

/-- The stretch of a widget's node. -/
def loweredStretch : Option Widget → Widget → Stretch
  | none, w => w.layoutStretch
  | some parent, w =>
    if parent.isStack then w.layoutStretch else w.layoutStretch.grown w parent.mainAxis

theorem stretch_of_ownProperties {w : Widget} {p : NodeProperties}
    (h : w.ownProperties.outcome = .ok p) : p.stretch = {} := by
  unfold NodeProperties.stretch
  rw [(sized_of_ownProperties h).2.1]

theorem stretch_of_assemble {w : Widget} {id : Text} {p : NodeProperties} {children : List Node}
    {n : Node} (hp : p.stretch = {}) (h : w.assemble id p children = .ok n) :
    n.properties.stretch = w.layoutStretch := by
  obtain ⟨-, mode, wrap, spacing, between, flow⟩ := bounded_of_assemble h
  have same : n.properties.stretch = (w.bounded p).stretch := by
    unfold NodeProperties.stretch
    rw [flow]
  obtain ⟨share, horizontal, vertical⟩ := Stretch.mk.injEq .. ▸ hp
  rw [same, bounded, layoutStretch]
  split
  · exact hp
  · cases w.layout with
    | none => exact hp
    | some l => simp [NodeProperties.stretch, Layout.applyBounds, Layout.stretch, share, horizontal,
        vertical]

theorem stretch_of_placedProperties {parent child : Widget} {index : Nat} {p q : NodeProperties}
    (h : placedProperties parent index child p = .ok q) :
    q.stretch = if parent.isStack then p.stretch else p.stretch.grown child parent.mainAxis := by
  have flow := flow_of_placedProperties h
  have same : q.stretch =
      (if parent.isStack then p else p.grow child parent.mainAxis).stretch := by
    unfold NodeProperties.stretch
    rw [flow]
  rw [same]
  split
  · rfl
  · exact p.stretch_grow child parent.mainAxis

/-- In a lowered tree all nodes stretch as their widgets and the parents of these tell. -/
theorem stretched_of_yields {w : Widget} {run after : Run} {n : Node}
    (h : w.lower.Yields run n after) (hs : n.shape = w.shape) :
    List.Forall₂
      (fun e m => m.widgetId = some e.2.id ∧ m.properties.stretch = loweredStretch e.1 e.2)
      (walkWithParent none w) n.walk := by
  refine forall₂_of_yields ?_ ?_ h hs
  · intro w p id ms n hp hn
    exact stretch_of_assemble (stretch_of_ownProperties hp) hn
  · intro parent child index p q hp hq
    rw [stretch_of_placedProperties hq, hp]
    rfl

/-! ## Expanded children of checked trees -/

/-- A parent that is a row or a column for the check has an axis, unless it is a stack. -/
theorem isSome_mainAxis {parent : Widget} (hf : parent.isFlexParent = true)
    (hs : parent.isStack = false) : parent.mainAxis.isSome = true := by
  unfold mainAxis
  unfold isFlexParent at hf
  unfold isStack at hs
  cases hl : parent.layout with
  | none =>
    rw [hl] at hf
    cases hk : parent.kind <;> simp_all
  | some l =>
    rw [hl] at hs
    unfold layoutAxis
    cases hk : l.kind <;> simp_all

theorem isSome_growth {child : Widget} (h : child.properties.isExpanded = some true) :
    (NodeProperties.growth child).isSome = true := by
  unfold NodeProperties.growth
  rw [h]
  split
  · split <;> rfl
  · rfl

/-- An expanded child of a parent with an axis grows exactly if the parent is no stack. -/
theorem grows_loweredStretch_iff {parent child : Widget}
    (hp : parent.isStack = false → parent.mainAxis.isSome = true)
    (hc : child.properties.isExpanded = some true) :
    (loweredStretch (some parent) child).Grows parent.mainAxis ↔ parent.isStack = false := by
  have unshared : child.layoutStretch.share = none := by
    unfold layoutStretch
    split
    · rfl
    · cases child.layout <;> rfl
  rw [loweredStretch]
  constructor
  · intro h
    by_contra hs
    rw [if_pos (Bool.not_eq_false _ ▸ hs)] at h
    have share := h.1
    rw [unshared] at share
    exact absurd share (by decide)
  · intro hs
    obtain ⟨axis, ha⟩ := Option.isSome_iff_exists.1 (hp hs)
    obtain ⟨share, hg⟩ := Option.isSome_iff_exists.1 (isSome_growth hc)
    rw [hs, if_neg Bool.false_ne_true]
    unfold Stretch.grown
    rw [hg, ha]
    cases axis with
    | horizontal => exact ⟨rfl, .horizontal, rfl, rfl⟩
    | vertical => exact ⟨rfl, .vertical, rfl, rfl⟩

/-- **Expanded children grow outside of stacks.** A tree without issues is lowered, if its numbers
allow that it is lowered at all, to a node for each widget. The node of an expanded child has a
share of the space and fills the axis of the parent exactly if the parent is no stack. -/
theorem expanded_grows_iff (w : Widget) (run : Run) (hw : w.check = []) :
    (w.lower.Returns run ↔ w.lowerable = true) ∧
    ∀ n after, runFrom run w.lower = (.ok n, after) →
      List.Forall₂
        (fun e m => m.widgetId = some e.2.id ∧
          ∀ parent, e.1 = some parent → e.2.properties.isExpanded = some true →
            (m.properties.stretch.Grows parent.mainAxis ↔ parent.isStack = false))
        (walkWithParent none w) n.walk := by
  refine ⟨w.returns_lower_iff run, fun n after h => ?_⟩
  have leaves : ∀ v ∈ w.walk, v.isLeaf → v.children = [] := by
    intro v hv hl
    rw [← map_snd_walkWithParent none w] at hv
    obtain ⟨e, he, rfl⟩ := List.mem_map.1 hv
    have childless := brokenIf_leafWithChildren.eq_false w hw e he
    rw [isLeafWithChildren, show e.2.kind.isLeaf = true from hl, Bool.true_and,
      Bool.not_eq_false', List.isEmpty_iff] at childless
    exact childless
  have shape : n.shape = w.shape := by
    rw [(w.mirrors_of_yields h).shape_eq, w.shape_pruned_iff]
    exact leaves
  have flex := brokenIf_expandedOutsideFlex.eq_false w hw
  have pairs := (List.forall₂_and_left _ _).2 ⟨flex, stretched_of_yields h shape⟩
  refine pairs.imp fun e m ⟨he, hid, hm⟩ => ⟨hid, fun parent hparent hexp => ?_⟩
  rw [hm, hparent]
  refine grows_loweredStretch_iff (fun hs => isSome_mainAxis ?_ hs) hexp
  simpa [hparent, isStrayExpanded, hexp] using he

theorem expanded_grows_iff_page :
    let expanded : WidgetProperties := { isExpanded := some true }
    let bar : Widget := { id := "bar", kind := .row,
                          children := [{ id := "title", kind := .text,
                                         properties := { expanded with data := some "Mail" } }] }
    let list : Widget := { id := "list", kind := .container, layout := some { kind := .flex },
                           properties := expanded }
    let page : Widget := { id := "page", kind := .column, children := [bar, list] }
    page.check = [] ∧ (page.lower.Returns {} ↔ page.lowerable = true) ∧
    ∀ n after, runFrom {} page.lower = (.ok n, after) →
      List.Forall₂
        (fun e m => m.widgetId = some e.2.id ∧
          ∀ parent, e.1 = some parent → e.2.properties.isExpanded = some true →
            (m.properties.stretch.Grows parent.mainAxis ↔ parent.isStack = false))
        (walkWithParent none page) n.walk := by
  intro expanded bar list page
  have valid : page.check = [] := by decide +kernel
  exact ⟨valid, expanded_grows_iff page {} valid⟩

/-- An expanded child of a stack with the layout of a row passes the check, and the stack has an
axis. The child's node has no share of the space and does not fill it. -/
theorem expanded_child_of_stack :
    let child : Widget := { id := "c", kind := .container,
                            properties := { isExpanded := some true } }
    let stack : Widget := { id := "s", kind := .stack, layout := some { kind := .row },
                            children := [child] }
    stack.check = [] ∧ stack.mainAxis = some .horizontal ∧
      ∃ n after, runFrom {} stack.lower = (.ok n, after) ∧
        n.walk.map (fun m => (m.widgetId, m.properties.stretch)) =
          [(some stack.id, {}), (some child.id, {})] := by
  intro child stack
  obtain ⟨n, after, h⟩ := (stack.returns_lower_iff {}).2 (by decide +kernel)
  have walk : ((runFrom {} stack.lower).1.toOption.map fun n =>
      n.walk.map fun m => (m.widgetId, m.properties.stretch)) =
        some [(some stack.id, {}), (some child.id, {})] := by decide +kernel
  rw [h] at walk
  exact ⟨by decide +kernel, rfl, n, after, h, Option.some.inj walk⟩

end Widget

end DesignTree
