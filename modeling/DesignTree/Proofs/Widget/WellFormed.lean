import DesignTree.Proofs.Widget.Check
import Mathlib.Data.Finset.Card
import Mathlib.Data.Finset.Dedup

/-! # Well-formed widget trees

A tree is well formed if its identifiers differ, its leaves have no children, its texts have content
and its widgets ask for no place that their parents do not give (`Widget.WellFormed`). This speaks
of the tree as a whole, while a check goes through it with the identifiers that it has seen. The
check finds nothing exactly in the well-formed trees, and it finds as many identifiers that occur
again as there are widgets beyond the different identifiers (`Widget.wellFormed_iff_check`).
-/

namespace DesignTree.Widget

/-- A tree in which no widget breaks a rule. -/
structure WellFormed (w : Widget) : Prop where
  /-- No two widgets have one identifier. -/
  distinct : (w.walk.map (·.id)).Nodup
  /-- Texts and images have no children. -/
  leaves : ∀ v ∈ w.walk, v.kind = .text ∨ v.kind = .image → v.children = []
  /-- A text says something, by its data or by its text. -/
  texts : ∀ v ∈ w.walk, v.kind = .text →
    ∃ s : Text, (v.properties.data = some s ∨ v.properties.text = some s) ∧ s ≠ ""
  /-- What is positioned stands in a stack. -/
  positions : ∀ v ∈ w.walk, ∀ c ∈ v.children,
    c.properties.isPositioned = some true ∨ c.position ≠ none →
      v.kind = .stack ∨ ∃ l, v.layout = some l ∧ l.kind = .stack
  /-- What is expanded stands in a row or a column. -/
  expansions : ∀ v ∈ w.walk, ∀ c ∈ v.children, c.properties.isExpanded = some true →
    v.kind = .row ∨ v.kind = .column ∨
      ∃ l, v.layout = some l ∧ (l.kind = .row ∨ l.kind = .column ∨ l.kind = .flex)

/-! ## What a single widget has to be -/

theorem isLeafWithChildren_eq_false_iff (w : Widget) :
    w.isLeafWithChildren = false ↔ (w.kind = .text ∨ w.kind = .image → w.children = []) := by
  have leaf : w.kind.isLeaf = true ↔ w.kind = .text ∨ w.kind = .image := by
    cases w.kind <;> simp [WidgetKind.isLeaf]
  rw [← leaf, isLeafWithChildren]
  cases w.kind.isLeaf <;> simp

theorem hasOwnText_iff (w : Widget) : w.hasOwnText = true ↔
    ∃ s : Text, (w.properties.data = some s ∨ w.properties.text = some s) ∧ s ≠ "" := by
  unfold hasOwnText textContent
  cases w.properties.data with
  | none => cases w.properties.text <;> simp [Text.isEmpty_eq_false_iff]
  | some s =>
    cases he : s.isEmpty with
    | true =>
      obtain rfl := Text.isEmpty_iff.1 he
      cases w.properties.text <;> simp [Text.isEmpty_eq_false_iff, he]
    | false => simp [he, Text.isEmpty_eq_false_iff.1 he]

theorem isEmptyText_eq_false_iff (w : Widget) :
    w.isEmptyText = false ↔ (w.kind = .text →
      ∃ s : Text, (w.properties.data = some s ∨ w.properties.text = some s) ∧ s ≠ "") := by
  rw [← hasOwnText_iff, isEmptyText]
  cases w.hasOwnText <;> simp

theorem isStack_iff (w : Widget) :
    w.isStack = true ↔ w.kind = .stack ∨ ∃ l, w.layout = some l ∧ l.kind = .stack := by
  simp [isStack]

theorem isFlexParent_iff (w : Widget) :
    w.isFlexParent = true ↔ w.kind = .row ∨ w.kind = .column ∨
      ∃ l, w.layout = some l ∧ (l.kind = .row ∨ l.kind = .column ∨ l.kind = .flex) := by
  cases hl : w.layout <;> simp [isFlexParent, hl, or_assoc]

theorem isStray_eq_false_iff (parent child : Widget) :
    isStray parent child = false ↔
      (child.properties.isPositioned = some true ∨ child.position ≠ none →
        parent.kind = .stack ∨ ∃ l, parent.layout = some l ∧ l.kind = .stack) := by
  have placed : child.isPlaced = true ↔
      child.properties.isPositioned = some true ∨ child.position ≠ none := by
    simp [isPlaced, Option.isSome_iff_ne_none]
  rw [← isStack_iff, ← placed, isStray]
  cases child.isPlaced <;> simp

theorem isStrayExpanded_eq_false_iff (parent child : Widget) :
    isStrayExpanded parent child = false ↔
      (child.properties.isExpanded = some true → parent.kind = .row ∨ parent.kind = .column ∨
        ∃ l, parent.layout = some l ∧ (l.kind = .row ∨ l.kind = .column ∨ l.kind = .flex)) := by
  rw [← isFlexParent_iff, isStrayExpanded]
  cases parent.isFlexParent <;> simp

/-! ## What a check finds -/

theorem brokenIf_emptyText : TreeRule.emptyText.BrokenIf fun _ w => w.isEmptyText := by
  intro seen parent w
  cases parent <;> simp [brokenRules, filter_broken]

/-- A check finds nothing exactly if it reports no widget for any rule. -/
theorem check_eq_nil_iff (w : Widget) : w.check = [] ↔ ∀ rule, w.reported rule = [] := by
  simp only [reported, List.map_eq_nil_iff, List.filter_eq_nil_iff, decide_eq_true_eq]
  rw [List.eq_nil_iff_forall_not_mem]
  exact ⟨fun h _ i hi => absurd hi (h i), fun h i hi => h i.rule i hi rfl⟩

section

variable {rule : TreeRule}

theorem reported_eq_nil_iff {p : Option Widget → Widget → Bool} (h : rule.BrokenIf p) (w : Widget) :
    w.reported rule = [] ↔ ∀ e ∈ walkWithParent none w, p e.1 e.2 = false := by
  rw [h.reported_eq, List.map_eq_nil_iff, List.filter_eq_nil_iff]
  simp only [Bool.not_eq_true]

/-- A rule for single widgets is kept exactly if no widget of the tree breaks it. -/
theorem reported_eq_nil_iff_of_widget {p : Widget → Bool} (h : rule.BrokenIf fun _ v => p v)
    (w : Widget) : w.reported rule = [] ↔ ∀ v ∈ w.walk, p v = false :=
  (reported_eq_nil_iff h w).trans (forall_mem_walkWithParent (p := fun v => p v = false) w)

/-- A rule for children is kept exactly if no child of a widget of the tree breaks it. -/
theorem reported_eq_nil_iff_of_child {p : Widget → Widget → Bool}
    (h : rule.BrokenIf fun parent v => parent.any fun q => p q v) (w : Widget) :
    w.reported rule = [] ↔ ∀ v ∈ w.walk, ∀ c ∈ v.children, p v c = false :=
  (reported_eq_nil_iff h w).trans (forall_mem_walkWithParent_edge w)

end

/-! ## Identifiers that occur again -/

/-- Going through widgets, a check finds an identifier again for every widget but the first ones of
the identifiers that it has not seen before. -/
theorem length_duplicates_issuesFrom (seen : List Text) (es : List (Option Widget × Widget)) :
    ((issuesFrom seen es).filter fun i => i.rule = .duplicateId).length +
      ((es.map (·.2.id)).toFinset \ seen.toFinset).card = es.length := by
  induction es generalizing seen with
  | nil => simp [issuesFrom]
  | cons e rest ih =>
    obtain ⟨parent, v⟩ := e
    have own : (((brokenRules seen parent v).map fun r =>
        (⟨v.id, r.message v, r⟩ : TreeIssue)).filter fun i => i.rule = .duplicateId).length =
        if v.id ∈ seen then 1 else 0 := by
      rw [List.filter_map, List.length_map]
      show ((brokenRules seen parent v).filter fun r => r = .duplicateId).length = _
      cases parent <;> by_cases hv : v.id ∈ seen <;> simp [brokenRules, filter_broken, hv]
    have later := ih (v.id :: seen)
    rw [List.toFinset_cons] at later
    rw [issuesFrom, List.filter_append, List.length_append, own, List.map_cons, List.toFinset_cons,
      List.length_cons, ← later]
    by_cases hv : v.id ∈ seen
    · -- The identifier is no new one, neither here nor later.
      rw [if_pos hv, Finset.insert_sdiff_of_mem _ (List.mem_toFinset.2 hv),
        Finset.insert_eq_of_mem (List.mem_toFinset.2 hv)]
      omega
    · -- It is a new one here, and no longer one for the rest.
      have new : insert v.id (rest.map (·.2.id)).toFinset \ seen.toFinset =
          insert v.id ((rest.map (·.2.id)).toFinset \ insert v.id seen.toFinset) := by
        ext x
        simp only [Finset.mem_sdiff, Finset.mem_insert, List.mem_toFinset]
        by_cases hx : x = v.id <;> simp [hx, hv]
      rw [if_neg hv, new, Finset.card_insert_of_notMem (by simp)]
      omega

/-- The widgets whose identifiers a check finds again are those beyond the different ones. -/
theorem length_duplicates (w : Widget) :
    (w.check.filter fun i => i.rule = .duplicateId).length + (w.walk.map (·.id)).toFinset.card =
      w.size := by
  have ids : (walkWithParent none w).map (·.2.id) = w.walk.map (·.id) := by
    rw [← map_snd_walkWithParent none w, List.map_map]
    rfl
  have size : (walkWithParent none w).length = w.size := by
    rw [size, ← map_snd_walkWithParent none w, List.length_map]
  have all := length_duplicates_issuesFrom [] (walkWithParent none w)
  rwa [List.toFinset_nil, Finset.sdiff_empty, ids, size] at all

/-- A check finds no identifier again exactly if all of them are different. -/
theorem reported_duplicateId_eq_nil_iff (w : Widget) :
    w.reported .duplicateId = [] ↔ (w.walk.map (·.id)).Nodup := by
  have count := w.length_duplicates
  have distinct : (w.walk.map (·.id)).toFinset.card = w.size ↔ (w.walk.map (·.id)).Nodup := by
    have card := Multiset.toFinset_card_eq_card_iff_nodup
      (m := (↑(w.walk.map (·.id)) : Multiset Text))
    rwa [Multiset.coe_card, List.length_map, Multiset.coe_nodup] at card
  rw [← distinct, reported, List.map_eq_nil_iff, ← List.length_eq_zero_iff]
  omega

/-! ## Checking a tree -/

/-- **A check accepts exactly the well-formed trees.** It finds nothing in a tree if and only if the
identifiers differ, texts and images have no children, texts have content, what is positioned stands
in a stack and what is expanded in a row or a column, the root aside. Whatever the tree, it finds an
identifier again as often as there are widgets beyond the different identifiers. -/
theorem wellFormed_iff_check (w : Widget) :
    (w.check = [] ↔ w.WellFormed) ∧ (w.isValid = true ↔ w.WellFormed) ∧
      (w.check.filter fun i => i.rule = .duplicateId).length =
        w.size - (w.walk.map (·.id)).toFinset.card ∧
      (w.walk.map (·.id)).toFinset.card ≤ w.size := by
  have leaves := reported_eq_nil_iff_of_widget brokenIf_leafWithChildren w
  have texts := reported_eq_nil_iff_of_widget brokenIf_emptyText w
  have positions := reported_eq_nil_iff_of_child brokenIf_positionedOutsideStack w
  have expansions := reported_eq_nil_iff_of_child brokenIf_expandedOutsideFlex w
  simp only [isLeafWithChildren_eq_false_iff] at leaves
  simp only [isEmptyText_eq_false_iff] at texts
  simp only [isStray_eq_false_iff] at positions
  simp only [isStrayExpanded_eq_false_iff] at expansions
  have accepted : w.check = [] ↔ w.WellFormed := by
    rw [check_eq_nil_iff]
    constructor
    · exact fun h => {
        distinct := (reported_duplicateId_eq_nil_iff w).1 (h .duplicateId)
        leaves := leaves.1 (h .leafWithChildren)
        texts := texts.1 (h .emptyText)
        positions := positions.1 (h .positionedOutsideStack)
        expansions := expansions.1 (h .expandedOutsideFlex) }
    · intro h rule
      cases rule with
      | duplicateId => exact (reported_duplicateId_eq_nil_iff w).2 h.distinct
      | leafWithChildren => exact leaves.2 h.leaves
      | emptyText => exact texts.2 h.texts
      | positionedOutsideStack => exact positions.2 h.positions
      | expandedOutsideFlex => exact expansions.2 h.expansions
  have count := w.length_duplicates
  refine ⟨accepted, ?_, by omega, by omega⟩
  rw [isValid, List.isEmpty_iff, accepted]

/-- Twice the same identifier among three, and a positioned child of a row. -/
example :
    let chip : Widget := { id := "chip", kind := .container, position := some { left := some 4 } }
    let row : Widget := { id := "row", kind := .row,
                          children := [chip, { chip with kind := .card }] }
    row.check.map (·.rule) = [.positionedOutsideStack, .duplicateId, .positionedOutsideStack] := by
  decide +kernel

end DesignTree.Widget
