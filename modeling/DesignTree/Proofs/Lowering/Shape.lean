import DesignTree.Proofs.Lowering.Assembly

/-! # The shape of a lowered tree

The main statement is `mirrors_of_yields`: a node tree that lowering yields mirrors the widget tree
without the children of texts and images. Place by place it has the widget's identifier and the kind
of node that belongs to the widget's kind, its identifiers are those that follow in the run, in the
order of the walk, and what is recorded is a function of the widget alone (`Widget.noted`).
-/

namespace DesignTree

namespace Run

/-- A run after more identifiers and more records. -/
def advanced (run : Run) (count : Nat) (ds : Diagnostics) : Run :=
  { issued := run.issued + count, diagnostics := run.diagnostics ++ ds }

@[simp]
theorem issued_advanced (run : Run) (count : Nat) (ds : Diagnostics) :
    (run.advanced count ds).issued = run.issued + count := rfl

@[simp]
theorem diagnostics_advanced (run : Run) (count : Nat) (ds : Diagnostics) :
    (run.advanced count ds).diagnostics = run.diagnostics ++ ds := rfl

theorem noting_eq (run : Run) (ds : Diagnostics) : run.noting ds = run.advanced 0 ds := rfl

theorem counting_eq (run : Run) : run.counting = run.advanced 1 [] := by
  simp [counting, advanced]

@[simp]
theorem advanced_zero (run : Run) : run.advanced 0 [] = run := by simp [advanced]

@[simp]
theorem advanced_advanced (run : Run) (a b : Nat) (ds es : Diagnostics) :
    (run.advanced a ds).advanced b es = run.advanced (a + b) (ds ++ es) := by
  simp [advanced, Nat.add_assoc, List.append_assoc]

end Run

namespace Widget

open InRun

/-! ## Records -/

mutual

/-- What is recorded when a widget tree is lowered. -/
def noted : Widget → Diagnostics
  | ⟨id, kind, sourceType, properties, children, styling, layout, position⟩ =>
    let w : Widget := ⟨id, kind, sourceType, properties, children, styling, layout, position⟩
    w.ownProperties.notes ++ if kind.isLeaf then [] else notedAll w children

/-- What is recorded when children are lowered and placed. -/
def notedAll (parent : Widget) : List Widget → Diagnostics
  | [] => []
  | child :: rest => child.noted ++ strayNotes parent child ++ notedAll parent rest

end

theorem noted_eq (w : Widget) :
    w.noted = w.ownProperties.notes ++ if w.isLeaf then [] else notedAll w w.children := by
  cases w
  rfl

/-! ## Parts of the node of a widget -/

/-- What the node of a widget is, apart from its looks. -/
structure IsNodeOf (w : Widget) (id : Text) (children : List Node) (n : Node) : Prop where
  id : n.id = some id
  kind : n.kind = w.kind.nodeKind
  widgetId : n.widgetId = some w.id
  bindings : n.bindings = []
  children : n.children = if w.isLeaf then [] else children

theorem isNodeOf_of_assembleFrame {w : Widget} {kind : NodeKind} {name id : Text}
    {p : NodeProperties} {children : List Node} {n : Node}
    (h : w.assembleFrame kind name id p children = .ok n) :
    n.id = some id ∧ n.kind = kind ∧ n.widgetId = some w.id ∧ n.bindings = [] ∧
      n.children = children := by
  unfold assembleFrame at h
  split at h
  · cases h
    exact ⟨rfl, rfl, rfl, rfl, rfl⟩
  · split at h
    · cases h
      exact ⟨rfl, rfl, rfl, rfl, rfl⟩
    · next layout _ _ =>
      cases ha : layout.toAutoLayout with
      | error fault => rw [ha] at h; cases h
      | ok auto =>
        rw [ha] at h
        cases h
        exact ⟨rfl, rfl, rfl, rfl, rfl⟩

theorem isNodeOf_of_assemble {w : Widget} {id : Text} {p : NodeProperties} {children : List Node}
    {n : Node} (h : w.assemble id p children = .ok n) : w.IsNodeOf id children n := by
  unfold assemble at h
  split at h
  · next hk =>
    cases h
    exact ⟨rfl, hk.symm, rfl, rfl, by simp [isLeaf_eq, hk]⟩
  · next hk =>
    cases h
    exact ⟨rfl, hk.symm, rfl, rfl, by simp [isLeaf_eq, hk]⟩
  · next hk =>
    cases hf : w.assembleFrame .component (w.kind.displayName ++ " Component") id p children with
    | error fault => rw [hf] at h; cases h
    | ok m =>
      rw [hf] at h
      cases h
      obtain ⟨hi, hm, hw, hb, hc⟩ := isNodeOf_of_assembleFrame hf
      exact ⟨hi, hm.trans hk.symm, hw, hb, by simp [describedAs, hc, isLeaf_eq, hk]⟩
  · next ht hr hc =>
    -- What is none of the other three is a frame.
    have hk : w.kind.nodeKind = .frame := by
      cases hw : w.kind <;> simp_all [WidgetKind.nodeKind]
    obtain ⟨hi, hm, hw, hb, hch⟩ := isNodeOf_of_assembleFrame h
    exact ⟨hi, hm.trans hk.symm, hw, hb, by simp [hch, isLeaf_eq, hk]⟩

/-! ## The whole tree -/

/-- The widget and the kind of a node, where a widget tree says what they have to be. -/
def origin (w : Widget) : Option Text × NodeKind := (some w.id, w.kind.nodeKind)

end Widget

theorem WidgetKind.nodeKind_ne_componentInstance (k : WidgetKind) :
    k.nodeKind ≠ .componentInstance := by
  cases k <;> decide

/-- The widget and the kind of a node. -/
def Node.origin (n : Node) : Option Text × NodeKind := (n.widgetId, n.kind)

namespace Widget

open InRun

/-- A node tree that was made from a widget tree while a run went on from `run` to `after`. -/
structure Mirrors (w : Widget) (run : Run) (n : Node) (after : Run) : Prop where
  labels : n.labels Node.origin = w.pruned.labels origin
  ids : n.walk.map (·.id) = nodeIds run.issued n.count
  after : after = run.advanced n.count w.noted

/-- The node trees of children mirror them one by one, and what the parent gives to them changes
nothing about it. -/
theorem mirrors_children {parent : Widget} {index : Nat} {cs : List Widget} {ns : List Node}
    {run after : Run}
    (ih : ∀ c ∈ cs, ∀ run n after, c.lower.Yields run n after → c.Mirrors run n after)
    (h : (lowerChildren parent index cs).Yields run ns after) :
    Node.labelsAll Node.origin ns = labelsAll origin (prunedAll cs) ∧
      (Node.walkAll ns).map (·.id) = nodeIds run.issued (Node.walkAll ns).length ∧
      after = run.advanced (Node.walkAll ns).length (notedAll parent cs) := by
  induction cs generalizing index ns run with
  | nil =>
    obtain ⟨rfl, rfl⟩ := yields_lowerChildren_nil.1 h
    exact ⟨rfl, rfl, (Run.advanced_zero after).symm⟩
  | cons child rest ihr =>
    obtain ⟨node, lowered, p, others, hn, hp, ho, rfl⟩ := yields_lowerChildren_cons.1 h
    obtain ⟨hl, hi, ha⟩ := ih child List.mem_cons_self _ _ _ hn
    obtain ⟨hls, his, has⟩ := ihr (fun c hc => ih c (List.mem_cons_of_mem child hc)) ho
    -- The properties of a node play no part in its labels, its identifiers and its size.
    have hlabels : ({ node with properties := p } : Node).labels Node.origin =
        node.labels Node.origin := by simp only [Node.labels_eq, Node.origin]
    have hwalk : ({ node with properties := p } : Node).walk.map (·.id) = node.walk.map (·.id) := by
      simp only [Node.walk_eq, List.map_cons]
    have hcount : ({ node with properties := p } : Node).walk.length = node.count := by
      simpa [Node.count] using congrArg List.length hwalk
    refine ⟨?_, ?_, ?_⟩
    · rw [Node.labelsAll, prunedAll, labelsAll, hlabels, hl, hls]
    · rw [Node.walkAll_cons, List.map_append, List.length_append, hwalk, hi, his, hcount,
        nodeIds_append, ha]
      rfl
    · rw [has, ha, Node.walkAll_cons, List.length_append, hcount, notedAll, Run.noting_eq,
        Run.advanced_advanced, Run.advanced_advanced, Nat.zero_add, List.append_assoc]

/-- What lowering yields mirrors the widget tree. -/
theorem mirrors_of_yields (w : Widget) {run after : Run} {n : Node}
    (h : w.lower.Yields run n after) : w.Mirrors run n after := by
  induction w using Widget.induct generalizing run n after with
  | step w ih =>
    obtain ⟨p, children, -, hc, hn⟩ := yields_lower.1 h
    have hnode := isNodeOf_of_assemble hn
    have inner : Node.labelsAll Node.origin n.children = labelsAll origin w.pruned.children ∧
        (Node.walkAll n.children).map (·.id) =
          nodeIds (run.issued + 1) (Node.walkAll n.children).length ∧
        after = ((run.noting w.ownProperties.notes).counting).advanced
          (Node.walkAll n.children).length (if w.isLeaf then [] else notedAll w w.children) := by
      rw [hnode.children, children_pruned]
      unfold lowerInner at hc
      by_cases hl : w.isLeaf
      · simp only [hl, if_true, yields_pure] at hc ⊢
        exact ⟨rfl, rfl, by simp [hc.2]⟩
      · simp only [hl, Bool.false_eq_true, if_false] at hc ⊢
        rw [← prunedAll_eq_map]
        exact mirrors_children (fun c hm run n after => ih c hm) hc
    obtain ⟨hl, hi, ha⟩ := inner
    constructor
    · rw [Node.labels_eq, labels_eq, hl, Node.origin, origin, hnode.widgetId, hnode.kind, pruned_eq]
    · rw [Node.walk_eq, Node.count_eq, List.map_cons, hi, hnode.id, nodeIds_one_add]
    · rw [ha, noted_eq, Node.count_eq, Run.noting_eq, Run.counting_eq, Run.advanced_advanced,
        Run.advanced_advanced, Nat.zero_add, List.nil_append]

namespace Mirrors

variable {w : Widget} {run after : Run} {n : Node}

theorem count_eq (h : w.Mirrors run n after) : n.count = w.pruned.size := by
  have hl := congrArg (fun t => t.toList.length) h.labels
  simp only [Node.toList_labels, Widget.toList_labels, List.length_map] at hl
  exact hl

theorem shape_eq (h : w.Mirrors run n after) : n.shape = w.pruned.shape :=
  Node.shape_of_widget_labels h.labels

end Mirrors

end Widget

end DesignTree
