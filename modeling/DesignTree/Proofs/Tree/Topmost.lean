import DesignTree.Proofs.Tree.Basic

/-! # The topmost places of a tree

`LabelTree.topmost p` lists the labels that `p` picks and that have none such above them, from left
to right. Widgets are picked by their identifiers (`Widget.topmost`), also together with their
parents (`Widget.sites`), and nodes by the widgets that they were made from (`Node.topmost`). Two
trees with the same labels have the same topmost ones
(`topmost_map`), so that what holds at all places of two trees holds at those picked
(`map_topmost_of_labels`).
-/

namespace DesignTree

variable {α β : Type}

namespace LabelTree

mutual

/-- The topmost labels of a tree that `p` picks. -/
def topmost (p : α → Bool) : LabelTree α → List α
  | .node label children => if p label then [label] else topmostAll p children

def topmostAll (p : α → Bool) : List (LabelTree α) → List α
  | [] => []
  | t :: rest => t.topmost p ++ topmostAll p rest

end

theorem topmostAll_eq_flatMap (p : α → Bool) (ts : List (LabelTree α)) :
    topmostAll p ts = ts.flatMap (topmost p) := by
  induction ts with
  | nil => rfl
  | cons t rest ih => rw [topmostAll, ih, List.flatMap_cons]

mutual

theorem topmost_map (g : α → β) (p : β → Bool) (t : LabelTree α) :
    (t.map g).topmost p = (t.topmost (p ∘ g)).map g := by
  cases t with
  | node label children =>
    rw [map, topmost, topmost, Function.comp_apply]
    split
    · rfl
    · exact topmostAll_map g p children

theorem topmostAll_map (g : α → β) (p : β → Bool) (ts : List (LabelTree α)) :
    topmostAll p (mapAll g ts) = (topmostAll (p ∘ g) ts).map g := by
  cases ts with
  | nil => rfl
  | cons t rest =>
    rw [mapAll, topmostAll, topmostAll, List.map_append, topmost_map g p t,
      topmostAll_map g p rest]

end

end LabelTree

namespace Widget

/-- The topmost widgets of a tree whose identifiers `used` tells. -/
def topmost (used : Text → Bool) (w : Widget) : List Widget :=
  (w.labels fun v => v).topmost fun v => used v.id

theorem topmost_eq (used : Text → Bool) (w : Widget) :
    w.topmost used = if used w.id then [w] else w.children.flatMap (topmost used) := by
  rw [topmost, labels_eq, LabelTree.topmost, labelsAll_eq_map, LabelTree.topmostAll_eq_flatMap,
    List.flatMap_map]
  rfl

mutual

/-- The widgets of a tree, each with its parent. -/
def withParents (parent : Option Widget) : Widget → LabelTree (Option Widget × Widget)
  | ⟨id, kind, sourceType, properties, children, styling, layout, position⟩ =>
    let w : Widget := ⟨id, kind, sourceType, properties, children, styling, layout, position⟩
    .node (parent, w) (withParentsAll w children)

def withParentsAll (parent : Widget) : List Widget → List (LabelTree (Option Widget × Widget))
  | [] => []
  | w :: rest => w.withParents (some parent) :: withParentsAll parent rest

end

theorem withParents_eq (parent : Option Widget) (w : Widget) :
    w.withParents parent = .node (parent, w) (withParentsAll w w.children) := by
  cases w
  rfl

/-- The topmost widgets whose identifiers `used` tells, each with its parent. -/
def sites (used : Text → Bool) (parent : Option Widget) (w : Widget) :
    List (Option Widget × Widget) :=
  (w.withParents parent).topmost fun e => used e.2.id

theorem sites_eq (used : Text → Bool) (parent : Option Widget) (w : Widget) :
    w.sites used parent =
      if used w.id then [(parent, w)] else w.children.flatMap (sites used (some w)) := by
  have children (ws : List Widget) :
      LabelTree.topmostAll (fun e => used e.2.id) (withParentsAll w ws) =
        ws.flatMap (sites used (some w)) := by
    induction ws with
    | nil => rfl
    | cons v rest ih => rw [withParentsAll, LabelTree.topmostAll, ih, List.flatMap_cons, sites]
  rw [sites, withParents_eq, LabelTree.topmost, children]

end Widget

namespace Node

/-- The topmost nodes that were made from widgets whose identifiers `used` tells. -/
def topmost (used : Text → Bool) (n : Node) : List Node :=
  (n.labels fun m => m).topmost fun m => m.widgetId.any used

theorem topmost_eq (used : Text → Bool) (n : Node) :
    n.topmost used =
      if n.widgetId.any used then [n] else n.children.flatMap (topmost used) := by
  rw [topmost, labels_eq, LabelTree.topmost, labelsAll_eq_map, LabelTree.topmostAll_eq_flatMap,
    List.flatMap_map]
  rfl

/-- Where the nodes of a tree have the identifiers of the widgets and are as `g` tells, so are the
topmost ones. -/
theorem map_topmost_of_labels {f : Node → β} {g : Option Widget × Widget → β} {n : Node}
    {parent : Option Widget} {w : Widget}
    (h : n.labels (fun m => (m.widgetId, f m)) =
      (w.withParents parent).map fun e => (some e.2.id, g e)) (used : Text → Bool) :
    (n.topmost used).map f = (w.sites used parent).map g := by
  let picked : Option Text × β → Bool := fun label => label.1.any used
  have nodes := (n.labels fun m => m).topmost_map (fun m => (m.widgetId, f m)) picked
  have widgets := (w.withParents parent).topmost_map (fun e => (some e.2.id, g e)) picked
  rw [map_labels] at nodes
  have both := nodes.symm.trans ((congrArg (LabelTree.topmost picked) h).trans widgets)
  have second := congrArg (List.map Prod.snd) both
  rw [List.map_map, List.map_map] at second
  exact second

end Node

end DesignTree
