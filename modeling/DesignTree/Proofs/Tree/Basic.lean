import DesignTree.Node.Basic
import DesignTree.Widget.Basic

/-! # Widget trees and node trees as labelled trees

Widgets and nodes are trees with much at each place. `labels f` keeps of a tree only what `f` takes
from each place, so that two trees of different kinds can be compared: they have the same shape if
they have the same labels under constant functions.

`Widget.forest_induct` and `Node.forest_induct` are the inductions over trees and lists of them
together, for what is defined on both in turn. `Widget.induct` and `Node.induct` have the induction
hypothesis for each child, for what is defined by the children one by one.
-/

namespace DesignTree

/-- A tree with a label at each place. -/
inductive LabelTree (α : Type)
  | node (label : α) (children : List (LabelTree α))

variable {α β : Type}

namespace LabelTree

mutual

/-- The labels of a tree, each one before those below it. -/
def toList : LabelTree α → List α
  | .node label children => label :: toListAll children

def toListAll : List (LabelTree α) → List α
  | [] => []
  | t :: rest => t.toList ++ toListAll rest

end

mutual

/-- A tree with other labels. -/
def map (g : α → β) : LabelTree α → LabelTree β
  | .node label children => .node (g label) (mapAll g children)

def mapAll (g : α → β) : List (LabelTree α) → List (LabelTree β)
  | [] => []
  | t :: rest => t.map g :: mapAll g rest

end

end LabelTree

/-! ## Widgets -/

namespace Widget

/-- What holds of a tree as soon as `q` holds of its children, where `q` holds of a list as soon as
it holds of the first tree and `q` of the rest. -/
theorem forest_induct {p : Widget → Prop} {q : List Widget → Prop}
    (step : ∀ w : Widget, q w.children → p w) (nil : q [])
    (cons : ∀ w ws, p w → q ws → q (w :: ws)) (w : Widget) : p w :=
  @Widget.rec p q
    (fun id kind sourceType properties children styling layout position =>
      step ⟨id, kind, sourceType, properties, children, styling, layout, position⟩)
    nil cons w

theorem induct {motive : Widget → Prop}
    (step : ∀ w : Widget, (∀ c ∈ w.children, motive c) → motive w) (w : Widget) : motive w := by
  induction w using forest_induct (q := fun ws => ∀ c ∈ ws, motive c) with
  | step w children => exact step w children
  | nil c hc => exact absurd hc List.not_mem_nil
  | cons w ws first others c hc => exact List.forall_mem_cons.2 ⟨first, others⟩ c hc

mutual

/-- The labels of a widget tree. -/
def labels (f : Widget → α) : Widget → LabelTree α
  | ⟨id, kind, sourceType, properties, children, styling, layout, position⟩ =>
    .node (f ⟨id, kind, sourceType, properties, children, styling, layout, position⟩)
      (labelsAll f children)

def labelsAll (f : Widget → α) : List Widget → List (LabelTree α)
  | [] => []
  | w :: rest => w.labels f :: labelsAll f rest

end

theorem labels_eq (f : Widget → α) (w : Widget) :
    w.labels f = .node (f w) (labelsAll f w.children) := by
  cases w
  rfl

theorem labelsAll_eq_map (f : Widget → α) (ws : List Widget) :
    labelsAll f ws = ws.map (labels f) := by
  induction ws with
  | nil => rfl
  | cons w rest ih => rw [labelsAll, ih, List.map_cons]

theorem toList_labels (f : Widget → α) (w : Widget) : (w.labels f).toList = w.walk.map f := by
  induction w using forest_induct
    (q := fun ws => LabelTree.toListAll (labelsAll f ws) = (walkAll ws).map f) with
  | step w children => rw [labels_eq, walk_eq, LabelTree.toList, List.map_cons, children]
  | nil => rfl
  | cons c rest first others =>
    rw [labelsAll, LabelTree.toListAll, walkAll_cons, List.map_append, first, others]

theorem map_labels (g : α → β) (f : Widget → α) (w : Widget) :
    (w.labels f).map g = w.labels (g ∘ f) := by
  induction w using forest_induct
    (q := fun ws => LabelTree.mapAll g (labelsAll f ws) = labelsAll (g ∘ f) ws) with
  | step w children =>
    rw [labels_eq, labels_eq, LabelTree.map, Function.comp_apply, children]
  | nil => rfl
  | cons c rest first others => rw [labelsAll, LabelTree.mapAll, labelsAll, first, others]

/-- The shape of a widget tree. -/
def shape (w : Widget) : LabelTree Unit := w.labels fun _ => ()

theorem shape_eq (w : Widget) : w.shape = .node () (w.children.map shape) := by
  rw [shape, labels_eq, labelsAll_eq_map]
  rfl

/-- Whether a widget is a text or an image. -/
def isLeaf (w : Widget) : Bool := w.kind.isLeaf

mutual

/-- A widget tree without the children of texts and images. -/
def pruned : Widget → Widget
  | ⟨id, kind, sourceType, properties, children, styling, layout, position⟩ =>
    ⟨id, kind, sourceType, properties,
      if kind.isLeaf then [] else prunedAll children, styling, layout, position⟩

def prunedAll : List Widget → List Widget
  | [] => []
  | w :: rest => w.pruned :: prunedAll rest

end

theorem prunedAll_eq_map (ws : List Widget) : prunedAll ws = ws.map pruned := by
  induction ws with
  | nil => rfl
  | cons w rest ih => rw [prunedAll, ih, List.map_cons]

theorem pruned_eq (w : Widget) :
    w.pruned = { w with children := if w.isLeaf then [] else w.children.map pruned } := by
  cases w
  rw [pruned, prunedAll_eq_map]
  rfl

@[simp]
theorem children_pruned (w : Widget) :
    w.pruned.children = if w.isLeaf then [] else w.children.map pruned := by rw [pruned_eq]

theorem mem_walk_self (w : Widget) : w ∈ w.walk := by
  rw [walk_eq]
  exact List.mem_cons_self

theorem mem_walkAll {v : Widget} {ws : List Widget} : v ∈ walkAll ws ↔ ∃ w ∈ ws, v ∈ w.walk := by
  rw [walkAll_eq_flatMap, List.mem_flatMap]

/-- What holds of all widgets of a tree, by its root and its children. -/
theorem forall_mem_walk {p : Widget → Prop} {w : Widget} :
    (∀ v ∈ w.walk, p v) ↔ p w ∧ ∀ c ∈ w.children, ∀ v ∈ c.walk, p v := by
  rw [walk_eq, List.forall_mem_cons]
  simp only [mem_walkAll]
  constructor
  · rintro ⟨hw, h⟩
    exact ⟨hw, fun c hc v hv => h v ⟨c, hc, hv⟩⟩
  · rintro ⟨hw, h⟩
    exact ⟨hw, fun v ⟨c, hc, hv⟩ => h c hc v hv⟩

theorem pruned_eq_self {w : Widget} (h : ∀ v ∈ w.walk, v.isLeaf → v.children = []) :
    w.pruned = w := by
  induction w using induct with
  | step w ih =>
    rw [forall_mem_walk] at h
    have children : (if w.isLeaf then [] else w.children.map pruned) = w.children := by
      split
      · next hl => exact (h.1 hl).symm
      · rw [List.map_congr_left fun c hc => ih c hc (h.2 c hc)]
        exact List.map_id' w.children
    rw [pruned_eq, children]
    cases w
    rfl

/-- A tree without the children of leaves has the shape of the whole tree exactly if no leaf has any
children. -/
theorem shape_pruned_iff (w : Widget) :
    w.pruned.shape = w.shape ↔ ∀ v ∈ w.walk, v.isLeaf → v.children = [] := by
  induction w using induct with
  | step w ih =>
    rw [forall_mem_walk, shape_eq, shape_eq, children_pruned, LabelTree.node.injEq]
    by_cases hl : w.isLeaf
    · simp only [hl, if_true, List.map_nil, true_and, forall_const]
      constructor
      · intro h
        have hc : w.children = [] := List.map_eq_nil_iff.1 h.symm
        exact ⟨hc, by simp [hc]⟩
      · rintro ⟨hc, -⟩
        rw [hc, List.map_nil]
    · simp only [hl, Bool.false_eq_true, if_false, List.map_map, true_and, false_implies]
      rw [List.map_inj_left]
      exact forall_congr' fun c => forall_congr' fun hc => ih c hc

end Widget

/-! ## Nodes -/

namespace Node

/-- What holds of a tree as soon as `q` holds of its children, where `q` holds of a list as soon as
it holds of the first tree and `q` of the rest. -/
theorem forest_induct {p : Node → Prop} {q : List Node → Prop}
    (step : ∀ n : Node, q n.children → p n) (nil : q [])
    (cons : ∀ n ns, p n → q ns → q (n :: ns)) (n : Node) : p n :=
  @Node.rec p q
    (fun id kind name properties autoLayout bindings children widgetId =>
      step ⟨id, kind, name, properties, autoLayout, bindings, children, widgetId⟩)
    nil cons n

theorem induct {motive : Node → Prop}
    (step : ∀ n : Node, (∀ c ∈ n.children, motive c) → motive n) (n : Node) : motive n := by
  induction n using forest_induct (q := fun ns => ∀ c ∈ ns, motive c) with
  | step n children => exact step n children
  | nil c hc => exact absurd hc List.not_mem_nil
  | cons n ns first others c hc => exact List.forall_mem_cons.2 ⟨first, others⟩ c hc

mutual

/-- The labels of a node tree. -/
def labels (f : Node → α) : Node → LabelTree α
  | ⟨id, kind, name, properties, autoLayout, bindings, children, widgetId⟩ =>
    .node (f ⟨id, kind, name, properties, autoLayout, bindings, children, widgetId⟩)
      (labelsAll f children)

def labelsAll (f : Node → α) : List Node → List (LabelTree α)
  | [] => []
  | n :: rest => n.labels f :: labelsAll f rest

end

theorem labels_eq (f : Node → α) (n : Node) :
    n.labels f = .node (f n) (labelsAll f n.children) := by
  cases n
  rfl

theorem labelsAll_eq_map (f : Node → α) (ns : List Node) : labelsAll f ns = ns.map (labels f) := by
  induction ns with
  | nil => rfl
  | cons n rest ih => rw [labelsAll, ih, List.map_cons]

theorem toList_labels (f : Node → α) (n : Node) : (n.labels f).toList = n.walk.map f := by
  induction n using forest_induct
    (q := fun ns => LabelTree.toListAll (labelsAll f ns) = (walkAll ns).map f) with
  | step n children => rw [labels_eq, walk_eq, LabelTree.toList, List.map_cons, children]
  | nil => rfl
  | cons c rest first others =>
    rw [labelsAll, LabelTree.toListAll, walkAll_cons, List.map_append, first, others]

theorem map_labels (g : α → β) (f : Node → α) (n : Node) :
    (n.labels f).map g = n.labels (g ∘ f) := by
  induction n using forest_induct
    (q := fun ns => LabelTree.mapAll g (labelsAll f ns) = labelsAll (g ∘ f) ns) with
  | step n children =>
    rw [labels_eq, labels_eq, LabelTree.map, Function.comp_apply, children]
  | nil => rfl
  | cons c rest first others => rw [labelsAll, LabelTree.mapAll, labelsAll, first, others]

/-- The shape of a node tree. -/
def shape (n : Node) : LabelTree Unit := n.labels fun _ => ()

theorem shape_eq (n : Node) : n.shape = .node () (n.children.map shape) := by
  rw [shape, labels_eq, labelsAll_eq_map]
  rfl

/-- Trees with the same labels have the same shape. -/
theorem shape_of_labels {f : Node → α} {n m : Node} (h : n.labels f = m.labels f) :
    n.shape = m.shape := by
  have mapped := congrArg (LabelTree.map fun _ => ()) h
  rwa [map_labels, map_labels] at mapped

theorem shape_of_widget_labels {f : Node → α} {g : Widget → α} {n : Node} {w : Widget}
    (h : n.labels f = w.labels g) : n.shape = w.shape := by
  have mapped := congrArg (LabelTree.map fun _ => ()) h
  rwa [map_labels, Widget.map_labels] at mapped

theorem count_eq (n : Node) : n.count = 1 + (walkAll n.children).length := by
  rw [count, walk_eq, List.length_cons, Nat.add_comm]

end Node

end DesignTree
