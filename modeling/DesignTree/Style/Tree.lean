import DesignTree.Node.Place
import DesignTree.Style.Resolver

/-! # Styling whole trees

A node tree is styled together with the widget tree that it was made from, each node by the styling
of its widget. The widgets that are still to be styled by wait on a stack, each with the place of
its node. The topmost one is taken off, the node at its place is styled and put back, and its
children go on top of the stack, the first one topmost.
-/

namespace DesignTree.Resolver

/-- What is recorded about a node: all errors of its result, then all warnings. -/
def recordsOf (nodeId : Option Text) (r : StyleResult) : Diagnostics :=
  r.errors.map (fun m => .error .style m nodeId) ++
    r.warnings.map fun m => .warning .style m nodeId

/-- A styled node with its result. -/
structure Styled where
  node : Node
  result : StyleResult

/-- A node styled on its own. -/
def style (r : Resolver) (w : Widget) (n : Node) : Styled :=
  let (node, result) := r.applyStyles n w.styling
  ⟨node, result⟩

/-- What is recorded about styled nodes, in their order. -/
def records (styled : List Styled) : Diagnostics :=
  styled.flatMap fun s => recordsOf s.node.id s.result

/-! ## The stack -/

/-- Sibling widgets with the places of their nodes, the first of which is the `index`-th child of
the node at a place. -/
def withPlaces (place : Place) (index : Nat) : List Widget → List (Widget × Place)
  | [] => []
  | w :: rest => (w, place ++ [index]) :: withPlaces place (index + 1) rest

/-- The number of widgets in the trees of a stack. -/
def stackSize : List (Widget × Place) → Nat
  | [] => 0
  | (w, _) :: rest => w.size + stackSize rest

theorem stackSize_withPlaces_append (place : Place) (index : Nat) (ws : List Widget)
    (rest : List (Widget × Place)) :
    stackSize (withPlaces place index ws ++ rest) =
      (Widget.walkAll ws).length + stackSize rest := by
  induction ws generalizing index with
  | nil => simp [withPlaces]
  | cons w ws ih =>
    simp only [withPlaces, List.cons_append, stackSize, ih, Widget.walkAll_cons, List.length_append,
      Widget.size, Nat.add_assoc]

/-- What a widget leaves on the stack is smaller than the widget. -/
theorem stackSize_push_lt (w : Widget) (place : Place) (rest : List (Widget × Place)) :
    stackSize (withPlaces place 0 w.children ++ rest) < stackSize ((w, place) :: rest) := by
  rw [stackSize_withPlaces_append, stackSize, Widget.size, w.walk_eq, List.length_cons]
  omega

/-- A tree whose nodes at the places of a stack are styled from the top: the tree, the results in
the order in which they came, and whether every widget had its node. Where children are missing the
walk ends, and what is still on the stack stays as it was. -/
@[semireducible]
def styleStack (r : Resolver) (tree : Node) : List (Widget × Place) → Node × List Styled × Bool
  | [] => (tree, [], true)
  | (w, place) :: rest =>
    match tree.at? place with
    | none => (tree, [], false)
    | some n =>
      let own := r.style w n
      let tree := tree.put place own.node
      if w.children.length = own.node.children.length then
        let (tree, others, complete) := styleStack r tree (withPlaces place 0 w.children ++ rest)
        (tree, own :: others, complete)
      else (tree, [own], false)
termination_by stack => stackSize stack
decreasing_by exact stackSize_push_lt w place rest

/-- Styles a tree and records what came of it. A tree that lacks nodes is a fault. -/
def applyTree (r : Resolver) (w : Widget) (n : Node) : InRun (Node × List StyleResult) := do
  let (node, styled, complete) := r.styleStack n [(w, [])]
  InRun.record (records styled)
  if complete then return (node, styled.map (·.result))
  else throw .childrenMissing

end DesignTree.Resolver
