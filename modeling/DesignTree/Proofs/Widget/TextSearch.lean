import DesignTree.Proofs.Tree.Basic

/-! # The texts of a widget tree

The text of a tree is looked for by two recursions over the children, one for the first text and one
for whether there is any. Both agree with the walk through the tree: the text is that of the first
widget of the walk that carries one (`Widget.extractText_eq_find?`), and there is text content
exactly if some widget of the walk carries a text or is a text widget (`Widget.hasTextContent_iff`).
-/

namespace DesignTree.Widget

/-! ## One widget -/

theorem hasOwnText_eq_isFilled (w : Widget) : w.hasOwnText = isFilled w.textContent := by
  rw [hasOwnText]
  cases w.textContent <;> rfl

theorem isFilled_iff {t : Option Text} : isFilled t = true ↔ ∃ s, t = some s ∧ s ≠ "" := by
  cases t <;> simp [isFilled, Text.isEmpty_eq_false_iff]

theorem extractFirst_eq (ws : List Widget) : extractFirst ws = ws.findSome? extractText := by
  induction ws with
  | nil => rfl
  | cons w rest ih =>
    rw [extractFirst, List.findSome?_cons, ih]
    cases w.extractText <;> rfl

/-- The text of a tree is that of its root, or else the first one of the children. -/
theorem extractText_eq (w : Widget) :
    w.extractText =
      if isFilled w.textContent then w.textContent else w.children.findSome? extractText := by
  cases w
  rw [extractText, extractFirst_eq]
  split
  · next s hs =>
    rw [hs]
    by_cases he : s.isEmpty <;> simp [isFilled, he]
  · next hn =>
    rw [hn]
    rfl

theorem anyHasText_eq (ws : List Widget) : anyHasText ws = ws.any hasTextContent := by
  induction ws with
  | nil => rfl
  | cons w rest ih => rw [anyHasText, List.any_cons, ih]

theorem hasTextContent_eq (w : Widget) :
    w.hasTextContent =
      (isFilled w.textContent || w.kind = .text || w.children.any hasTextContent) := by
  rw [← hasOwnText_eq_isFilled]
  cases w
  rw [hasTextContent, anyHasText_eq]

/-! ## Whole trees -/

/-- The text of a tree is that of the first widget of the walk that carries one. -/
theorem extractText_eq_find? (w : Widget) :
    w.extractText = (w.walk.find? fun v => isFilled v.textContent).bind textContent := by
  induction w using forest_induct
    (q := fun ws => ws.findSome? extractText =
      ((walkAll ws).find? fun v => isFilled v.textContent).bind textContent) with
  | step w children =>
    rw [extractText_eq, walk_eq, List.find?_cons]
    cases isFilled w.textContent with
    | true => rfl
    | false => exact children
  | nil => rfl
  | cons c rest first others =>
    rw [List.findSome?_cons, walkAll_cons, List.find?_append, first, others]
    cases hf : c.walk.find? fun v => isFilled v.textContent with
    | none => rfl
    | some v =>
      -- The search ends at `v` only as `v` has a text to give.
      obtain ⟨s, hs, -⟩ := isFilled_iff.1 (List.find?_some hf :)
      simp [hs]

theorem hasTextContent_iff (w : Widget) :
    w.hasTextContent = true ↔ ∃ v ∈ w.walk, isFilled v.textContent = true ∨ v.kind = .text := by
  induction w using induct with
  | step w ih =>
    have below : (∃ c ∈ w.children, c.hasTextContent = true) ↔
        ∃ v ∈ walkAll w.children, isFilled v.textContent = true ∨ v.kind = .text := by
      simp only [mem_walkAll]
      constructor
      · rintro ⟨c, hc, h⟩
        obtain ⟨v, hv, ht⟩ := (ih c hc).1 h
        exact ⟨v, ⟨c, hc, hv⟩, ht⟩
      · rintro ⟨v, ⟨c, hc, hv⟩, ht⟩
        exact ⟨c, hc, (ih c hc).2 ⟨v, hv, ht⟩⟩
    rw [hasTextContent_eq, walk_eq, Bool.or_eq_true, Bool.or_eq_true, decide_eq_true_eq,
      List.any_eq_true, below]
    simp only [List.mem_cons, exists_eq_or_imp]

/-- A tree that a text is found in has text content. -/
theorem hasTextContent_of_extractText {w : Widget} {s : Text} (h : w.extractText = some s) :
    w.hasTextContent = true := by
  rw [extractText_eq_find?] at h
  obtain ⟨v, hv, -⟩ := Option.bind_eq_some_iff.1 h
  exact (hasTextContent_iff w).2 ⟨v, List.mem_of_find?_eq_some hv, .inl (List.find?_some hv :)⟩

/-- **The search for text follows the walk.** The text of a tree is that of the first widget of the
walk that carries one, and none if no widget does. The tree has text content exactly if some widget
of the walk carries a text or is a text widget, so that it has text content wherever a text is
found. -/
theorem text_follows_walk (w : Widget) :
    w.extractText = (w.walk.find? fun v => isFilled v.textContent).bind textContent ∧
      (w.hasTextContent = true ↔
        ∃ v ∈ w.walk, isFilled v.textContent = true ∨ v.kind = .text) ∧
      (w.extractText ≠ none → w.hasTextContent = true) := by
  refine ⟨extractText_eq_find? w, hasTextContent_iff w, fun found => ?_⟩
  obtain ⟨s, hs⟩ := Option.ne_none_iff_exists'.1 found
  exact hasTextContent_of_extractText hs

/-- An empty text is passed over, and the text below the first child comes before the second. -/
example :
    let label : Widget := { id := "a", kind := .text, properties := { data := some "Save" } }
    let w : Widget := {
      id := "r", kind := .row, properties := { data := some "" }
      children := [{ id := "b", kind := .button, children := [label] },
        { id := "c", kind := .text, properties := { text := some "More" } }] }
    w.extractText = some "Save" ∧ w.hasTextContent = true := by
  decide +kernel

end DesignTree.Widget
