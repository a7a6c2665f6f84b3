import DesignTree.Proofs.Tree.Basic
import Mathlib.Data.List.Forall2

/-! # Trees of nodes along trees of widgets

`Along q w n` says that a tree of nodes has the shape of a tree of widgets, and that at each place
`q` holds of the widget and the node there. As `q` speaks of whole nodes, it may say something about
their children too. What is shown place by place is read off along the two walks by `Along.walks`.
-/

namespace DesignTree

/-- A tree of nodes along a tree of widgets, with `q` at each place. -/
inductive Along (q : Widget → Node → Prop) : Widget → Node → Prop
  | intro {w : Widget} {n : Node} :
    q w n → List.Forall₂ (Along q) w.children n.children → Along q w n

namespace Along

variable {q : Widget → Node → Prop} {w : Widget} {n : Node}

theorem root (h : Along q w n) : q w n := by
  obtain ⟨hq, -⟩ := h
  exact hq

theorem children (h : Along q w n) : List.Forall₂ (Along q) w.children n.children := by
  obtain ⟨-, hc⟩ := h
  exact hc

/-- The two walks go along with each other. -/
theorem walks (h : Along q w n) : List.Forall₂ q w.walk n.walk := by
  induction w using Widget.induct generalizing n with
  | step w ih =>
    have children := (List.forall₂_and_left _ _).2 ⟨ih, h.children⟩
    rw [w.walk_eq, n.walk_eq, Widget.walkAll_eq_flatMap, Node.walkAll_eq_flatMap]
    refine .cons h.root ?_
    exact List.rel_flatMap (children.imp fun c m ⟨hc, hm⟩ => hc hm) fun _ _ h => h

end Along

end DesignTree
