import DesignTree.Proofs.Tree.Topmost
import DesignTree.Widget.Check
import Mathlib.Data.List.Basic

/-! # Parents and children

`Widget.edges` lists the parents of a tree with their children, in the order in which the children
are walked. What a check says about children under their parents is said about the edges, and so is
what lowering does for a child: both go down the tree by `edges_eq`.
-/

namespace DesignTree.Widget

/-- The widgets of a tree but for its root, each after its parent, in the order of the walk. -/
def edges (w : Widget) : List (Widget × Widget) :=
  (walkWithParent none w).filterMap fun e => e.1.map fun parent => (parent, e.2)

theorem walkWithParent_eq (parent : Option Widget) (w : Widget) :
    walkWithParent parent w = (parent, w) :: walkAllWithParent w w.children := by
  cases w
  rfl

theorem walkAllWithParent_eq_flatMap (parent : Widget) (ws : List Widget) :
    walkAllWithParent parent ws = ws.flatMap (walkWithParent (some parent)) := by
  induction ws with
  | nil => rfl
  | cons w rest ih => rw [walkAllWithParent, ih, List.flatMap_cons]

/-- Without their parents these are the widgets of the walk. -/
theorem map_snd_walkWithParent (parent : Option Widget) (w : Widget) :
    (walkWithParent parent w).map (·.2) = w.walk := by
  induction w using Widget.induct generalizing parent with
  | step w ih =>
    rw [walkWithParent_eq, walkAllWithParent_eq_flatMap, List.map_cons, List.map_flatMap, walk_eq,
      walkAll_eq_flatMap]
    exact congrArg (w :: ·) (List.flatMap_congr fun c hc => ih c hc (some w))

/-- The edges from the root, each before those below its child. -/
theorem edges_eq (w : Widget) : w.edges = w.children.flatMap fun c => (w, c) :: c.edges := by
  have below (parent : Option Widget) (v : Widget) :
      (walkWithParent parent v).filterMap (fun e => e.1.map fun p => (p, e.2)) =
        (parent.map fun p => (p, v)).toList ++ v.edges := by
    rw [edges, walkWithParent_eq, walkWithParent_eq none]
    cases parent <;> rfl
  rw [edges, walkWithParent_eq, List.filterMap_cons_none rfl, walkAllWithParent_eq_flatMap,
    List.filterMap_flatMap]
  congr 1
  funext c
  exact below (some w) c

/-- The edges lead from the widgets of the tree to their children. -/
theorem mem_edges {w : Widget} {e : Widget × Widget} :
    e ∈ w.edges ↔ e.1 ∈ w.walk ∧ e.2 ∈ e.1.children := by
  induction w using Widget.induct with
  | step w ih =>
    rw [edges_eq, walk_eq, List.mem_flatMap, List.mem_cons, mem_walkAll, or_and_right]
    constructor
    · rintro ⟨c, hc, he⟩
      rcases List.mem_cons.1 he with rfl | he
      · exact .inl ⟨rfl, hc⟩
      · obtain ⟨parent, child⟩ := (ih c hc).1 he
        exact .inr ⟨⟨c, hc, parent⟩, child⟩
    · rintro (⟨parent, child⟩ | ⟨⟨c, hc, parent⟩, child⟩)
      · refine ⟨e.2, parent ▸ child, List.mem_cons.2 (.inl ?_)⟩
        rw [← parent]
      · exact ⟨c, hc, List.mem_cons_of_mem _ ((ih c hc).2 ⟨parent, child⟩)⟩

/-- What holds of all widgets, by the walk. -/
theorem forall_mem_walkWithParent {p : Widget → Prop} (w : Widget) :
    (∀ e ∈ walkWithParent none w, p e.2) ↔ ∀ v ∈ w.walk, p v := by
  rw [← map_snd_walkWithParent none w, List.forall_mem_map]

/-- What holds of all widgets below the root and their parents, by the children of each widget. -/
theorem forall_mem_walkWithParent_edge {p : Widget → Widget → Bool} (w : Widget) :
    (∀ e ∈ walkWithParent none w, (e.1.any fun q => p q e.2) = false) ↔
      ∀ v ∈ w.walk, ∀ c ∈ v.children, p v c = false := by
  have along : (∀ e ∈ walkWithParent none w, (e.1.any fun q => p q e.2) = false) ↔
      ∀ e ∈ w.edges, p e.1 e.2 = false := by
    rw [edges, List.forall_mem_filterMap]
    refine forall_congr' fun e => forall_congr' fun _ => ?_
    obtain ⟨_ | q, v⟩ := e <;> simp
  rw [along]
  constructor
  · exact fun h v hv c hc => h (v, c) (mem_edges.2 ⟨hv, hc⟩)
  · exact fun h e he => h e.1 (mem_edges.1 he).1 e.2 (mem_edges.1 he).2

/-- The widgets with their parents stand in the order of the walk. -/
theorem toList_withParents (parent : Option Widget) (w : Widget) :
    (w.withParents parent).toList = walkWithParent parent w := by
  induction w using Widget.forest_induct
    (q := fun cs => ∀ w, LabelTree.toListAll (withParentsAll w cs) = walkAllWithParent w cs)
    generalizing parent with
  | step w children => rw [withParents_eq, LabelTree.toList, walkWithParent_eq, children w]
  | nil => rfl
  | cons c rest first others w =>
    rw [withParentsAll, LabelTree.toListAll, walkAllWithParent, first, others]

/-- The children of the edges that `p` picks are the widgets that it picks under their parents. -/
theorem map_filter_edges (p : Widget → Widget → Bool) (w : Widget) :
    (w.edges.filter fun e => p e.1 e.2).map (·.2) =
      ((walkWithParent none w).filter fun e => e.1.any fun q => p q e.2).map (·.2) := by
  rw [edges]
  induction walkWithParent none w with
  | nil => rfl
  | cons e rest ih =>
    obtain ⟨_ | q, v⟩ := e
    · exact ih
    · simp only [List.filterMap_cons, Option.map_some, List.filter_cons, Option.any_some]
      split
      · rw [List.map_cons, List.map_cons, ih]
      · exact ih

end DesignTree.Widget
