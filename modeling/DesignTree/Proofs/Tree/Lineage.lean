import DesignTree.Proofs.Tree.Topmost

/-! # Labels with those above them

`LabelTree.lineages` lists the labels of a tree, each with its ancestors. A label that `p` picks is
outermost if `p` picks none of its ancestors; the outermost labels are the topmost ones that a
descent from the root finds (`topmost_eq_outermost`). So these are labels of the tree, in its order
(`topmost_sublist`).
-/

namespace DesignTree

variable {α : Type}

namespace LabelTree

mutual

/-- The labels of a tree from left to right, each with those above it, the nearest one first. -/
def lineages (above : List α) : LabelTree α → List (List α × α)
  | .node label children => (above, label) :: lineagesAll (label :: above) children

def lineagesAll (above : List α) : List (LabelTree α) → List (List α × α)
  | [] => []
  | t :: rest => t.lineages above ++ lineagesAll above rest

end

mutual

/-- Without their ancestors the labels are those of the tree, in its order. -/
theorem map_snd_lineages (above : List α) (t : LabelTree α) :
    (t.lineages above).map Prod.snd = t.toList := by
  cases t with
  | node label children =>
    rw [lineages, toList, List.map_cons, map_snd_lineagesAll (label :: above) children]

theorem map_snd_lineagesAll (above : List α) (ts : List (LabelTree α)) :
    (lineagesAll above ts).map Prod.snd = toListAll ts := by
  cases ts with
  | nil => rfl
  | cons t rest =>
    rw [lineagesAll, toListAll, List.map_append, map_snd_lineages above t,
      map_snd_lineagesAll above rest]

end

mutual

/-- What is above a tree is above all its labels. -/
theorem subset_of_mem_lineages {above : List α} {t : LabelTree α} {l : List α × α}
    (h : l ∈ t.lineages above) : above ⊆ l.1 := by
  cases t with
  | node label children =>
    rw [lineages, List.mem_cons] at h
    rcases h with rfl | h
    · exact List.Subset.refl above
    · exact List.Subset.trans (List.subset_cons_self label above) (subset_of_mem_lineagesAll h)

theorem subset_of_mem_lineagesAll {above : List α} {ts : List (LabelTree α)} {l : List α × α}
    (h : l ∈ lineagesAll above ts) : above ⊆ l.1 := by
  cases ts with
  | nil => exact absurd h List.not_mem_nil
  | cons t rest =>
    rw [lineagesAll, List.mem_append] at h
    rcases h with h | h
    · exact subset_of_mem_lineages h
    · exact subset_of_mem_lineagesAll h

end

/-- Whether `p` picks a label and none of its ancestors. -/
def isOutermost (p : α → Bool) (l : List α × α) : Bool := p l.2 && !l.1.any p

/-- The labels of a tree that `p` picks and that have no ancestors that it picks. -/
def outermost (p : α → Bool) (t : LabelTree α) : List α :=
  ((t.lineages []).filter (isOutermost p)).map Prod.snd

/-- Below a label that is picked none is outermost. -/
theorem filter_isOutermost_eq_nil {p : α → Bool} {above : List α} {label : α} (hp : p label = true)
    (ts : List (LabelTree α)) :
    (lineagesAll (label :: above) ts).filter (isOutermost p) = [] := by
  rw [List.filter_eq_nil_iff]
  intro l hl
  have hm : label ∈ l.1 := subset_of_mem_lineagesAll hl List.mem_cons_self
  simp [isOutermost, List.any_eq_true.2 ⟨label, hm, hp⟩]

mutual

/-- Where nothing above a tree is picked, its outermost labels are its topmost ones. -/
theorem topmost_of_any_eq_false {p : α → Bool} {above : List α} (h : above.any p = false)
    (t : LabelTree α) :
    t.topmost p = ((t.lineages above).filter (isOutermost p)).map Prod.snd := by
  cases t with
  | node label children =>
    rw [topmost, lineages]
    cases hp : p label with
    | true =>
      have picked : isOutermost p (above, label) = true := by simp [isOutermost, hp, h]
      rw [if_pos rfl, List.filter_cons_of_pos picked, filter_isOutermost_eq_nil hp]
      rfl
    | false =>
      have passed : ¬isOutermost p (above, label) = true := by simp [isOutermost, hp]
      have below : (label :: above).any p = false := by rw [List.any_cons, hp, h, Bool.or_false]
      rw [if_neg Bool.false_ne_true, List.filter_cons_of_neg passed,
        topmostAll_of_any_eq_false below children]

theorem topmostAll_of_any_eq_false {p : α → Bool} {above : List α} (h : above.any p = false)
    (ts : List (LabelTree α)) :
    topmostAll p ts = ((lineagesAll above ts).filter (isOutermost p)).map Prod.snd := by
  cases ts with
  | nil => rfl
  | cons t rest =>
    rw [topmostAll, lineagesAll, List.filter_append, List.map_append,
      topmost_of_any_eq_false h t, topmostAll_of_any_eq_false h rest]

end

theorem topmost_eq_outermost (p : α → Bool) (t : LabelTree α) : t.topmost p = t.outermost p :=
  topmost_of_any_eq_false rfl t

/-- The topmost labels are among those of the tree, in its order. -/
theorem topmost_sublist (p : α → Bool) (t : LabelTree α) : (t.topmost p).Sublist t.toList := by
  rw [topmost_eq_outermost, outermost, ← map_snd_lineages []]
  exact List.filter_sublist.map Prod.snd

end LabelTree

theorem Widget.mem_walk_of_mem_topmost {used : Text → Bool} {v w : Widget}
    (h : v ∈ w.topmost used) : v ∈ w.walk := by
  have mem := (LabelTree.topmost_sublist _ (w.labels fun v => v)).subset h
  rwa [toList_labels, List.map_id'] at mem

end DesignTree
