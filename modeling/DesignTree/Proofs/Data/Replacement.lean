import DesignTree.Data.Entries
import Mathlib.Data.List.Induction
import Mathlib.Data.List.Nodup

/-! # Items put under their names

Items are put under names one after the other, each in the place of what is there under its name.
What is then found under a name is the item of that name, or else what was there before.
-/

namespace DesignTree.Entries

variable {ι α : Type} {name : ι → Text} {value : ι → α} {items : List ι} {es : Entries α}
  {label : Text}

/-- Items put under other names leave a name as it was. -/
theorem get?_foldl_set_of_notMem (h : ∀ i ∈ items, name i ≠ label) :
    get? (items.foldl (fun es i => es.set (name i) (value i)) es) label = es.get? label := by
  induction items generalizing es with
  | nil => rfl
  | cons i rest ih =>
    rw [List.foldl_cons, ih fun j hj => h j (List.mem_cons_of_mem i hj),
      get?_set_of_ne es (h i List.mem_cons_self).symm]

/-- The only item that is put under a name is found there. -/
theorem get?_foldl_set_of_unique {i : ι} (hi : i ∈ items)
    (h : ∀ j ∈ items, name j = name i → j = i) :
    get? (items.foldl (fun es i => es.set (name i) (value i)) es) (name i) = some (value i) := by
  induction items using List.reverseRecOn with
  | nil => exact absurd hi List.not_mem_nil
  | append_singleton before last ih =>
    rw [List.foldl_append, List.foldl_cons, List.foldl_nil]
    by_cases same : name last = name i
    · rw [← h last (by simp) same, get?_set_self]
    · have earlier : i ∈ before := by
        rcases List.mem_append.1 hi with hb | hl
        · exact hb
        · rw [List.mem_singleton.1 hl] at same
          exact absurd rfl same
      rw [get?_set_of_ne _ (Ne.symm same)]
      exact ih earlier fun j hj => h j (List.mem_append_left _ hj)

/-- Of items of different names that of a name is found under it. -/
theorem get?_foldl_set_of_nodup (h : (items.map name).Nodup) :
    get? (items.foldl (fun es i => es.set (name i) (value i)) []) label =
      (items.find? fun i => name i == label).map value := by
  cases hf : items.find? fun i => name i == label with
  | none =>
    have others : ∀ i ∈ items, name i ≠ label := fun i hi he =>
      List.find?_eq_none.1 hf i hi (beq_iff_eq.2 he)
    rw [get?_foldl_set_of_notMem others]
    rfl
  | some i =>
    have own : name i = label := beq_iff_eq.1 (List.find?_some hf :)
    rw [← own]
    exact get?_foldl_set_of_unique (List.mem_of_find?_eq_some hf) fun j hj same =>
      List.inj_on_of_nodup_map h hj (List.mem_of_find?_eq_some hf) same

theorem exists_or_mem_of_mem_foldl_set {e : Text × α}
    (h : e ∈ items.foldl (fun es i => es.set (name i) (value i)) es) :
    (∃ i ∈ items, e = (name i, value i)) ∨ e ∈ es := by
  induction items generalizing es with
  | nil => exact .inr h
  | cons i rest ih =>
    rcases ih h with ⟨j, hj, rfl⟩ | hm
    · exact .inl ⟨j, List.mem_cons_of_mem i hj, rfl⟩
    · exact (eq_or_mem_of_mem_set hm).imp_left fun he => ⟨i, List.mem_cons_self, he⟩

/-- Names that are present keep their places; the others follow in the order of their items. -/
theorem keys_foldl_set (h : (items.map name).Nodup) :
    keys (items.foldl (fun es i => es.set (name i) (value i)) es) =
      es.keys ++ (items.map name).filter fun k => k ∉ es.keys := by
  induction items generalizing es with
  | nil => exact (List.append_nil _).symm
  | cons i rest ih =>
    rw [List.map_cons, List.nodup_cons] at h
    rw [List.foldl_cons, ih h.2, keys_set, List.map_cons, List.filter_cons]
    by_cases hi : name i ∈ es.keys
    · simp [hi]
    · have others : (rest.map name).filter (fun k => k ∉ es.keys ++ [name i]) =
          (rest.map name).filter fun k => k ∉ es.keys := by
        refine List.filter_congr fun k hk => ?_
        have different : k ≠ name i := fun he => h.1 (he ▸ hk)
        simp [different]
      simp only [hi, if_false, not_false_eq_true, decide_true, if_true, others,
        List.append_assoc, List.singleton_append]

/-- Items of different names stand as they came. -/
theorem ofItems_of_nodup {items : List (Text × α)} (h : (items.map (·.1)).Nodup) :
    ofItems items = items := by
  induction items using List.reverseRecOn with
  | nil => rfl
  | append_singleton before last ih =>
    rw [List.map_append, List.nodup_append] at h
    have new : last.1 ∉ keys before := fun hm => h.2.2 _ hm _ (List.mem_singleton.2 rfl) rfl
    have earlier := ih h.1
    rw [ofItems] at earlier ⊢
    rw [List.foldl_append, earlier]
    exact set_of_notMem new last.2

end DesignTree.Entries
