import DesignTree.Proofs.Lowering.Range

/-! # Lowering in different runs

The state of a run shows in a lowered tree by the identifiers alone: trees that two runs lower one
widget to are alike (`alike_of_yields`), that is, the same but for their identifiers. These count on
from what each run had issued, and both runs record the same (`lower_alike_in_runs`).
-/

namespace DesignTree

namespace Node

/-- A node without its identifier and its children. -/
def anonymous (n : Node) : Node := { n with id := none, children := [] }

/-- Node trees that are the same but for their identifiers. -/
def Alike (n m : Node) : Prop := n.labels anonymous = m.labels anonymous

theorem alike_iff {n m : Node} :
    n.Alike m ↔ n.anonymous = m.anonymous ∧
      labelsAll anonymous n.children = labelsAll anonymous m.children := by
  rw [Alike, labels_eq, labels_eq, LabelTree.node.injEq]

theorem Alike.kind {n m : Node} (h : n.Alike m) : n.kind = m.kind := by
  have own : n.anonymous.kind = m.anonymous.kind := by rw [(alike_iff.1 h).1]
  exact own

theorem Alike.properties {n m : Node} (h : n.Alike m) : n.properties = m.properties := by
  have own : n.anonymous.properties = m.anonymous.properties := by rw [(alike_iff.1 h).1]
  exact own

theorem Alike.autoLayout {n m : Node} (h : n.Alike m) : n.autoLayout = m.autoLayout := by
  have own : n.anonymous.autoLayout = m.anonymous.autoLayout := by rw [(alike_iff.1 h).1]
  exact own

theorem Alike.shape {n m : Node} (h : n.Alike m) : n.shape = m.shape := shape_of_labels h

theorem Alike.withProperties {n m : Node} (h : n.Alike m) (p : NodeProperties) :
    Alike { n with properties := p } { m with properties := p } := by
  obtain ⟨own, children⟩ := alike_iff.1 h
  refine alike_iff.2 ⟨?_, children⟩
  exact congrArg (fun k : Node => { k with properties := p }) own

end Node

namespace Widget

open InRun Node

theorem assembleFrame_eq_map (w : Widget) (kind : NodeKind) (name id : Text) (p : NodeProperties)
    (children : List Node) :
    w.assembleFrame kind name id p children =
      (w.assembleFrame kind name "" p []).map fun n => { n with id := some id, children } := by
  unfold assembleFrame
  cases w.layout with
  | none => rfl
  | some layout =>
    simp only
    split
    · rfl
    · cases layout.toAutoLayout <;> rfl

/-- The identifier and the children of a node play no part in the rest of it. -/
theorem assemble_eq_map (w : Widget) (id : Text) (p : NodeProperties) (children : List Node) :
    w.assemble id p children =
      (w.assemble "" p []).map fun n =>
        { n with id := some id, children := if w.isLeaf then [] else children } := by
  unfold assemble
  rw [isLeaf_eq]
  cases w.kind.nodeKind with
  | text => rfl
  | rectangle => rfl
  | component =>
    simp only [assembleFrame_eq_map w .component _ id]
    cases w.assembleFrame .component (w.kind.displayName ++ " Component") "" p [] <;> rfl
  | _ => exact w.assembleFrame_eq_map _ _ id p children

theorem alike_of_assemble {w : Widget} {id id' : Text} {p : NodeProperties} {ns ms : List Node}
    {n m : Node} (hc : Node.labelsAll anonymous ns = Node.labelsAll anonymous ms)
    (hn : w.assemble id p ns = .ok n) (hm : w.assemble id' p ms = .ok m) : n.Alike m := by
  rw [assemble_eq_map] at hn hm
  cases hb : w.assemble "" p [] with
  | error fault =>
    rw [hb] at hn
    cases hn
  | ok blank =>
    rw [hb] at hn hm
    cases hn
    cases hm
    refine alike_iff.2 ⟨rfl, ?_⟩
    simp only
    split
    · rfl
    · exact hc

/-- Children that are each lowered alike by two runs are lowered alike one after the other: what is
added for their parent hangs on what does not differ. -/
theorem labelsAll_of_yields {w : Widget} {cs : List Widget}
    (each : ∀ c ∈ cs, ∀ {run run' after after' : Run} {n m : Node},
      c.lower.Yields run n after → c.lower.Yields run' m after' → n.Alike m)
    {index : Nat} {run run' after after' : Run} {ns ms : List Node}
    (hn : (lowerChildren w index cs).Yields run ns after)
    (hm : (lowerChildren w index cs).Yields run' ms after') :
    Node.labelsAll anonymous ns = Node.labelsAll anonymous ms := by
  induction cs generalizing index run run' ns ms with
  | nil => rw [(yields_lowerChildren_nil.1 hn).1, (yields_lowerChildren_nil.1 hm).1]
  | cons child rest ih =>
    obtain ⟨n, lowered, p, others, hfirst, hp, ho, rfl⟩ := yields_lowerChildren_cons.1 hn
    obtain ⟨m, lowered', p', others', hfirst', hp', ho', rfl⟩ := yields_lowerChildren_cons.1 hm
    have first := each child List.mem_cons_self hfirst hfirst'
    have same : p = p' := by
      rw [first.properties, hp'] at hp
      exact (Except.ok.inj hp).symm
    have below := ih (fun c hc => each c (List.mem_cons_of_mem child hc)) ho ho'
    rw [Node.labelsAll, Node.labelsAll, below, ← same]
    exact congrArg (· :: _) (first.withProperties p)

/-- Trees that two runs lower one widget to are the same but for their identifiers. -/
theorem alike_of_yields (w : Widget) {run run' after after' : Run} {n m : Node}
    (hn : w.lower.Yields run n after) (hm : w.lower.Yields run' m after') : n.Alike m := by
  induction w using Widget.induct generalizing run run' after after' n m with
  | step w ih =>
    obtain ⟨p, ns, hp, hns, hn⟩ := yields_lower.1 hn
    obtain ⟨p', ms, hp', hms, hm⟩ := yields_lower.1 hm
    obtain rfl : p = p' := by
      rw [hp'] at hp
      exact (Except.ok.inj hp).symm
    refine alike_of_assemble ?_ hn hm
    unfold lowerInner at hns hms
    split at hns
    · next hl =>
      rw [if_pos hl] at hms
      rw [(yields_pure.1 hns).1, (yields_pure.1 hms).1]
    · next hl =>
      rw [if_neg hl] at hms
      exact labelsAll_of_yields ih hns hms

/-- Identifiers of nodes by their numbers from where a run stands. -/
theorem nodeIds_eq_map (issued count : Nat) :
    nodeIds issued count = (List.range' 1 count).map fun i => some (nodeId (issued + i)) := by
  rw [nodeIds, ← List.map_add_range', List.map_map]
  rfl

/-- **Lowering is the same in all runs.** If a run lowers a tree, any other one does. The node trees
are the same but for their identifiers. The numbers of these are the same in both runs when counted
from what each of them had issued, and both runs record the same after what they had recorded. -/
theorem lower_alike_in_runs (w : Widget) (run run' after : Run) (n : Node)
    (h : runFrom run w.lower = (.ok n, after)) :
    ∃ m after' found, ∃ numbers : List Nat, runFrom run' w.lower = (.ok m, after') ∧
      n.labels anonymous = m.labels anonymous ∧
      n.walk.map (·.id) = numbers.map (fun i => some (nodeId (run.issued + i))) ∧
      m.walk.map (·.id) = numbers.map (fun i => some (nodeId (run'.issued + i))) ∧
      after = run.advanced numbers.length found ∧
      after' = run'.advanced numbers.length found := by
  have lowerable := (w.returns_lower_iff run).1 ⟨n, after, h⟩
  obtain ⟨m, after', h'⟩ := (w.returns_lower_iff run').2 lowerable
  have alike := w.alike_of_yields h h'
  have mirrors := w.mirrors_of_yields h
  have mirrors' := w.mirrors_of_yields h'
  have count : m.count = n.count := mirrors'.count_eq.trans mirrors.count_eq.symm
  refine ⟨m, after', w.noted, List.range' 1 n.count, h', alike, ?_, ?_, ?_, ?_⟩
  · rw [mirrors.ids, nodeIds_eq_map]
  · rw [mirrors'.ids, nodeIds_eq_map, count]
  · rw [List.length_range']
    exact mirrors.after
  · rw [List.length_range', ← count]
    exact mirrors'.after

theorem lower_alike_in_runs_stack :
    let badge : Widget := { id := "badge", kind := .container,
                            styling := { givenColors := some [{ property := "backgroundColor",
                                                                value := "#12" }] },
                            position := some { left := some 4, top := some 8 } }
    let stack : Widget := { id := "stack", kind := .stack,
                            children := [{ id := "label", kind := .text }, badge] }
    let early : Run := {}
    let late : Run := { issued := 98, diagnostics := [.warning .theme "Skipped"] }
    ∃ n after m after' found, ∃ numbers : List Nat,
      runFrom early stack.lower = (.ok n, after) ∧ runFrom late stack.lower = (.ok m, after') ∧
      n.labels anonymous = m.labels anonymous ∧
      n.walk.map (·.id) = numbers.map (fun i => some (nodeId (0 + i))) ∧
      m.walk.map (·.id) = numbers.map (fun i => some (nodeId (98 + i))) ∧
      after = early.advanced numbers.length found ∧
      after' = late.advanced numbers.length found := by
  intro badge stack early late
  obtain ⟨n, after, h⟩ := (stack.returns_lower_iff early).2 (by decide +kernel)
  obtain ⟨m, after', found, numbers, same⟩ := lower_alike_in_runs stack early late after n h
  exact ⟨n, after, m, after', found, numbers, h, same⟩

end Widget

end DesignTree
