import DesignTree.Proofs.Style.Frame
import Mathlib.Data.List.Forall2

/-! # What styling with a stack comes to

A run keeps the nodes that are still to be styled on a stack, by their places in the tree that it
changes as it goes. Taking off one pair comes to the recursion over the trees of that pair, whatever
lies below it on the stack (`stackedAlike`): the nodes that a step puts back are not those that
wait. So the walk with a stack does what the recursion does (`styleStack_eq`), and where the trees
have one shape each node is styled as it would be on its own (`applyTree_of_shape`).
-/

namespace DesignTree.Resolver

open InRun

/-- A walk that goes on from where a first one came to, unless that one ended early. -/
def andThen (first : Node × List Styled × Bool) (next : Node → Node × List Styled × Bool) :
    Node × List Styled × Bool :=
  if first.2.2 then
    let later := next first.1
    (later.1, first.2.1 ++ later.2.1, later.2.2)
  else first

theorem children_style (r : Resolver) (w : Widget) (n : Node) :
    (r.style w n).node.children = n.children := by
  obtain ⟨p, a, b, -, hs⟩ := r.restyled_style w n
  rw [hs]

/-- Wherever the node stands in a tree, a pair with it on top of a stack is done as the recursion
over the trees of that pair does it, before the rest of the stack. -/
def StackedAlike (r : Resolver) (n : Node) : Prop :=
  ∀ (w : Widget) (tree : Node) (place : Place), tree.at? place = some n →
    ∀ rest, r.styleStack tree ((w, place) :: rest) =
      andThen (tree.put place (r.styleTree w n).1, (r.styleTree w n).2) fun t => r.styleStack t rest

/-- The pairs of the children `ns` of a node, where those before them are done already. -/
theorem styleStack_withPlaces (r : Resolver) {place : Place} (rest : List (Widget × Place))
    (ws : List Widget) (before ns : List Node) (h : ∀ c ∈ ns, r.StackedAlike c)
    (hl : ws.length = ns.length) {tree m : Node} (hm : tree.at? place = some m)
    (hc : m.children = before ++ ns) :
    r.styleStack tree (withPlaces place before.length ws ++ rest) =
      andThen (tree.put place (m.withChildren (before ++ (r.styleAll ws ns).1)),
        (r.styleAll ws ns).2) fun t => r.styleStack t rest := by
  induction ns generalizing ws before tree m with
  | nil =>
    obtain rfl := List.eq_nil_of_length_eq_zero hl
    have same : tree.put place (m.withChildren (before ++ [])) = tree := by
      rw [← hc, Node.withChildren_self, Node.put_self hm]
    simp only [withPlaces, styleAll, same, List.nil_append, andThen, if_true]
  | cons c ns ih =>
    cases ws with
    | nil => simp at hl
    | cons v ws =>
      have hfirst : tree.at? (place ++ [before.length]) = some c := by
        rw [Node.at?_append, hm]
        exact Node.at?_cons_eq_some_iff.2 ⟨c, by simp [hc], rfl⟩
      have hput : tree.put (place ++ [before.length]) (r.styleTree v c).1 =
          tree.put place (m.withChildren (before ++ (r.styleTree v c).1 :: ns)) := by
        rw [Node.put_append hm, Node.put_cons (c := c) (by simp [hc])]
        simp [hc]
      have others := ih ws (before ++ [(r.styleTree v c).1])
        (fun k hk => h k (List.mem_cons_of_mem c hk)) (by simpa using hl)
        (Node.at?_put hm (m.withChildren (before ++ (r.styleTree v c).1 :: ns))) (by simp)
      rw [List.length_append, List.length_singleton, Node.put_put hm, List.append_assoc,
        List.singleton_append, Node.withChildren_withChildren] at others
      rw [withPlaces, List.cons_append, h c List.mem_cons_self v tree _ hfirst, hput, styleAll_cons]
      rcases hv : r.styleTree v c with ⟨c', results, _ | _⟩
      · rfl
      · rw [hv] at others
        simp only [andThen, if_true, others]
        split <;> simp [List.append_assoc]

theorem stackedAlike (r : Resolver) (n : Node) : r.StackedAlike n := by
  induction n using Node.induct with
  | step n ih =>
    intro w tree place h rest
    rw [styleStack, h, styleTree_eq]
    simp only [children_style]
    split
    · next hl =>
      have below := r.styleStack_withPlaces rest w.children [] n.children ih hl
        (Node.at?_put h (r.style w n).node) (r.children_style w n)
      rw [List.length_nil, List.nil_append, Node.put_put h] at below
      rw [below]
      rcases r.styleAll w.children n.children with ⟨nodes, results, _ | _⟩ <;> rfl
    · rfl

/-- A tree is styled with a stack as it is by the recursion. -/
theorem styleStack_eq (r : Resolver) (w : Widget) (n : Node) :
    r.styleStack n [(w, [])] = r.styleTree w n := by
  rw [r.stackedAlike n w n [] (Node.at?_nil n)]
  rcases r.styleTree w n with ⟨node, results, _ | _⟩ <;> simp [andThen, styleStack]

/-- Styling a tree in a run, by the recursion. -/
theorem applyTree_eq (r : Resolver) (w : Widget) (n : Node) :
    r.applyTree w n = (do
      let (node, styled, complete) := r.styleTree w n
      record (records styled)
      if complete then return (node, styled.map (·.result)) else throw .childrenMissing) := by
  rw [applyTree, styleStack_eq]

theorem yields_applyTree {r : Resolver} {w : Widget} {n m : Node} {results : List StyleResult}
    {run after : Run} :
    (r.applyTree w n).Yields run (m, results) after ↔
      n.shape = w.shape ∧ m = (styleTree r w n).1 ∧
        results = (styleTree r w n).2.1.map (·.result) ∧
        after = run.noting (records (styleTree r w n).2.1) := by
  rw [← complete_styleTree_iff r, applyTree_eq]
  rcases styleTree r w n with ⟨node, styled, _ | _⟩
  · simp
  · simp only [yields_bind, yields_record, if_true, yields_pure, Prod.mk.injEq, true_and]
    constructor
    · rintro ⟨_, _, rfl, ⟨rfl, rfl⟩, rfl⟩
      exact ⟨rfl, rfl, rfl⟩
    · rintro ⟨rfl, rfl, rfl⟩
      exact ⟨(), _, rfl, ⟨rfl, rfl⟩, rfl⟩

/-! ## Trees of one shape -/

theorem length_walk_of_shape {w : Widget} {n : Node} (h : n.shape = w.shape) :
    n.walk.length = w.walk.length := by
  have sizes := congrArg (fun t => t.toList.length) h
  simpa only [Node.shape, Widget.shape, Node.toList_labels, Widget.toList_labels,
    List.length_map] using sizes

/-- Results are those of single nodes with their widgets, in order, and the nodes that are left are
the ones that the results are about. -/
def OneByOne (r : Resolver) (ns : List Node) (ws : List Widget) (left : List Node)
    (results : List Styled) : Prop :=
  results = List.zipWith (fun m v => r.style v m) ns ws ∧
    List.Forall₂ (fun m s => m = s.node.withChildren m.children) left results

theorem OneByOne.append {r : Resolver} {ns ns' left left' : List Node} {ws ws' : List Widget}
    {results results' : List Styled} (count : ns.length = ws.length)
    (h : r.OneByOne ns ws left results) (h' : r.OneByOne ns' ws' left' results') :
    r.OneByOne (ns ++ ns') (ws ++ ws') (left ++ left') (results ++ results') := by
  refine ⟨?_, List.rel_append h.2 h'.2⟩
  rw [List.zipWith_append count, h.1, h'.1]

/-- Siblings are styled one after the other. -/
theorem oneByOne_styleAll (r : Resolver) {ns : List Node} {ws : List Widget}
    (each : ∀ n ∈ ns, ∀ w : Widget, n.shape = w.shape →
      r.OneByOne n.walk w.walk (r.styleTree w n).1.walk (r.styleTree w n).2.1)
    (h : ns.map Node.shape = ws.map Widget.shape) :
    r.OneByOne (Node.walkAll ns) (Widget.walkAll ws) (Node.walkAll (r.styleAll ws ns).1)
      (r.styleAll ws ns).2.1 := by
  induction ns generalizing ws with
  | nil =>
    cases ws with
    | nil => exact ⟨rfl, .nil⟩
    | cons w ws => cases h
  | cons n ns ih =>
    cases ws with
    | nil => cases h
    | cons w ws =>
      rw [List.map_cons, List.map_cons, List.cons.injEq] at h
      have first := each n List.mem_cons_self w h.1
      have others := ih (fun m hm => each m (List.mem_cons_of_mem n hm)) h.2
      rw [styleAll_cons, if_pos ((r.complete_styleTree_iff w n).2 h.1), Node.walkAll_cons,
        Widget.walkAll_cons, Node.walkAll_cons]
      exact first.append (length_walk_of_shape h.1) others

/-- Where the trees have one shape, the results are those of the single nodes in the order of the
walk, and a styled tree holds the nodes that the results are about. -/
theorem styleTree_of_shape (r : Resolver) {w : Widget} {n : Node} (h : n.shape = w.shape) :
    r.OneByOne n.walk w.walk (r.styleTree w n).1.walk (r.styleTree w n).2.1 := by
  induction n using Node.induct generalizing w with
  | step n ih =>
    rw [Node.shape_eq, Widget.shape_eq, LabelTree.node.injEq] at h
    have count : w.children.length = n.children.length := by
      simpa using (congrArg List.length h.2).symm
    obtain ⟨results, nodes⟩ := r.oneByOne_styleAll (fun m hm _ => ih m hm) h.2
    rw [styleTree_eq, if_pos count]
    refine ⟨?_, ?_⟩
    · rw [n.walk_eq, w.walk_eq, List.zipWith_cons_cons, results]
    · rw [Node.walk_eq]
      exact .cons rfl nodes

theorem records_zipWith_style (r : Resolver) (ns : List Node) (ws : List Widget) :
    records (List.zipWith (fun m v => r.style v m) ns ws) =
      (ns.zip (List.zipWith (fun m v => r.applyStyles m v.styling) ns ws)).flatMap fun single =>
        single.2.2.errors.map (.error .style · single.1.id) ++
          single.2.2.warnings.map (.warning .style · single.1.id) := by
  induction ns generalizing ws with
  | nil => rfl
  | cons n ns ih =>
    cases ws with
    | nil => rfl
    | cons w ws =>
      have hid : (r.style w n).node.id = n.id := by
        obtain ⟨p, a, b, -, hs⟩ := r.restyled_style w n
        rw [hs]
      rw [List.zipWith_cons_cons, records, List.flatMap_cons, hid]
      exact congrArg (recordsOf n.id (r.style w n).result ++ ·) (ih ws)

/-- **A run styles each node as on its own.** The walk with a stack is the recursion over the trees.
Where the node tree has the shape of the widget tree it gives one result for each node, in the order
of the walk: that of the node and its widget's styling alone. It leaves the nodes as these single
stylings do, and records the errors and then the warnings of each result under the node's
identifier. -/
theorem applyTree_of_shape (r : Resolver) (w : Widget) (n : Node) (h : n.shape = w.shape)
    (run : Run) :
    let singles := List.zipWith (fun m v => r.applyStyles m v.styling) n.walk w.walk
    r.styleStack n [(w, [])] = r.styleTree w n ∧
      ∃ styled, runFrom run (r.applyTree w n) = (.ok (styled, singles.map (·.2)),
          run.noting ((n.walk.zip singles).flatMap fun single =>
            single.2.2.errors.map (.error .style · single.1.id) ++
              single.2.2.warnings.map (.warning .style · single.1.id))) ∧
        styled.shape = n.shape ∧ singles.length = n.count ∧
        List.Forall₂ (fun m single => m = single.1.withChildren m.children)
          styled.walk singles := by
  intro singles
  have hsingles : List.zipWith (fun m v => r.style v m) n.walk w.walk =
      singles.map fun single => ⟨single.1, single.2⟩ := by
    rw [List.map_zipWith]
    rfl
  obtain ⟨results, nodes⟩ := r.styleTree_of_shape h
  have yields : (r.applyTree w n).Yields run _ _ := yields_applyTree.2 ⟨h, rfl, rfl, rfl⟩
  rw [results, records_zipWith_style, hsingles, List.map_map] at yields
  refine ⟨r.styleStack_eq w n, (r.styleTree w n).1, yields, ?_, ?_, ?_⟩
  · exact r.labels_styleTree (fun _ _ _ _ _ _ => rfl) w n
  · rw [List.length_zipWith, length_walk_of_shape h, Nat.min_self, ← length_walk_of_shape h]
    rfl
  · rw [results, hsingles, List.forall₂_map_right_iff] at nodes
    exact nodes

theorem applyTree_of_shape_page :
    let primary : ColorEntry := { property := "color", value := "#6750A4", isThemeReference := true,
                                  themePath := some "colorScheme.primary" }
    let title : Widget :=
      { id := "title", kind := .text, styling := { givenColors := some [primary] } }
    let box : Widget :=
      { id := "box", kind := .container,
        styling := { givenColors := some [{ property := "backgroundColor", value := "#12" }] } }
    let page : Widget := { id := "page", kind := .column,
                           children := [{ id := "bar", kind := .row, children := [title] }, box] }
    let tree : Node := { id := some "1:1", kind := .frame, name := "page", children := [
      { id := some "1:2", kind := .frame, name := "bar", children := [
        { id := some "1:3", kind := .text, name := "title" }] },
      { id := some "1:4", kind := .frame, name := "box" }] }
    let found : Diagnostics := [
      .warning .style "Variable not found for colorScheme.primary, using direct value"
        (some "1:3"),
      .error .style "Failed to apply color backgroundColor: Invalid hex color format: #12"
        (some "1:4")]
    let r : Resolver := {}
    let singles := List.zipWith (fun m v => r.applyStyles m v.styling) tree.walk page.walk
    tree.shape = page.shape ∧ r.styleStack tree [(page, [])] = r.styleTree page tree ∧
      ∃ styled, runFrom {} (r.applyTree page tree) =
          (.ok (styled, singles.map (·.2)), Run.noting {} found) ∧
        styled.shape = tree.shape ∧ singles.length = tree.count ∧
        List.Forall₂ (fun m single => m = single.1.withChildren m.children)
          styled.walk singles := by
  intro primary title box page tree found r singles
  have recorded : ((tree.walk.zip singles).flatMap fun single =>
      single.2.2.errors.map (Diagnostic.error .style · single.1.id) ++
        single.2.2.warnings.map (.warning .style · single.1.id)) = found := by
    decide +kernel
  obtain ⟨same, styled, styles, rest⟩ := r.applyTree_of_shape page tree rfl {}
  rw [recorded] at styles
  exact ⟨rfl, same, styled, styles, rest⟩

end DesignTree.Resolver
