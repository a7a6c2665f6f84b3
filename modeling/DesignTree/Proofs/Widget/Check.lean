import DesignTree.Proofs.Tree.Edge

/-! # What a check reports

But for identifiers that occur twice, whether a widget breaks a rule is decided by the widget and
its parent alone (`TreeRule.BrokenIf`). The widgets that are reported for such a rule are then those
that break it, in the order of the walk (`BrokenIf.reported_eq`), and in a tree without issues no
widget breaks it (`BrokenIf.eq_false`).
-/

namespace DesignTree

open Widget

/-- A rule that a widget breaks exactly if `p` holds of its parent and of itself, whatever the
identifiers before it are. -/
def TreeRule.BrokenIf (rule : TreeRule) (p : Option Widget → Widget → Bool) : Prop :=
  ∀ seen parent w,
    (brokenRules seen parent w).filter (fun r => r = rule) = if p parent w then [rule] else []

namespace Widget

/-- The identifiers of the widgets that a check reports for a rule, in the order of the walk. -/
def reported (w : Widget) (rule : TreeRule) : List Text :=
  (w.check.filter fun i => i.rule = rule).map (·.nodeId)

/-- What is left for a rule of another one that is broken on a condition. -/
theorem filter_broken (c : Prop) [Decidable c] (broken rule : TreeRule) :
    (if c then [broken] else []).filter (fun r => r = rule) =
      if c ∧ broken = rule then [rule] else [] := by
  by_cases hc : c
  · by_cases hr : broken = rule <;> simp [hc, hr]
  · simp [hc]

theorem brokenIf_leafWithChildren :
    TreeRule.leafWithChildren.BrokenIf fun _ w => w.isLeafWithChildren := by
  intro seen parent w
  cases parent <;> simp [brokenRules, filter_broken]

theorem brokenIf_positionedOutsideStack :
    TreeRule.positionedOutsideStack.BrokenIf fun parent w => parent.any fun q => isStray q w := by
  intro seen parent w
  cases parent <;> simp [brokenRules, filter_broken]

theorem brokenIf_expandedOutsideFlex :
    TreeRule.expandedOutsideFlex.BrokenIf
      fun parent w => parent.any fun q => isStrayExpanded q w := by
  intro seen parent w
  cases parent <;> simp [brokenRules, filter_broken]

end Widget

namespace TreeRule.BrokenIf

variable {rule : TreeRule} {p : Option Widget → Widget → Bool} (h : rule.BrokenIf p) (w : Widget)

include h

/-- The widgets that a check reports for a rule are those of the tree that break it. -/
theorem reported_eq :
    w.reported rule = ((walkWithParent none w).filter fun e => p e.1 e.2).map (·.2.id) := by
  have issues (seen : List Text) (es : List (Option Widget × Widget)) :
      ((issuesFrom seen es).filter fun i => i.rule = rule).map (·.nodeId) =
        (es.filter fun e => p e.1 e.2).map (·.2.id) := by
    induction es generalizing seen with
    | nil => rfl
    | cons e rest ih =>
      obtain ⟨parent, v⟩ := e
      have own : (((brokenRules seen parent v).map fun r =>
          (⟨v.id, r.message v, r⟩ : TreeIssue)).filter fun i => i.rule = rule).map (·.nodeId) =
          if p parent v then [v.id] else [] := by
        rw [List.filter_map, List.map_map]
        show ((brokenRules seen parent v).filter fun r => r = rule).map (fun _ => v.id) = _
        rw [h]
        split <;> rfl
      rw [issuesFrom, List.filter_append, List.map_append, own, ih, List.filter_cons]
      split <;> rfl
  exact issues [] (walkWithParent none w)

/-- In a tree without issues no widget breaks a rule. -/
theorem eq_false (hw : w.check = []) :
    ∀ e ∈ walkWithParent none w, p e.1 e.2 = false := by
  have none : w.reported rule = [] := by rw [Widget.reported, hw]; rfl
  rw [h.reported_eq, List.map_eq_nil_iff, List.filter_eq_nil_iff] at none
  intro e he
  exact Bool.eq_false_iff.2 (none e he)

end TreeRule.BrokenIf

end DesignTree
