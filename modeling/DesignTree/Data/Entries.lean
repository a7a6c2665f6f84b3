import DesignTree.Text.Basic

/-! # Entries in order

A finite map from names to values that keeps the order in which its names first came. A later value
for a name takes the place of the earlier one.
-/

namespace DesignTree

abbrev Entries (α : Type u) := List (Text × α)

namespace Entries

variable {α : Type u} {β : Type v}

/-- The names, in order. -/
def keys (es : Entries α) : List Text := es.map (·.1)

/-- The value under a name. -/
def get? : Entries α → Text → Option α
  | [], _ => none
  | (k, v) :: rest, name => if k = name then some v else get? rest name

/-- Whether a name is present. -/
def has (es : Entries α) (name : Text) : Bool := (es.get? name).isSome

/-- Puts a value under a name: in the place of the name if it is present, else at the end. -/
def set : Entries α → Text → α → Entries α
  | [], name, value => [(name, value)]
  | (k, v) :: rest, name, value =>
    if k = name then (k, value) :: rest else (k, v) :: set rest name value

/-- Puts a value under a name that is not present yet. -/
def setDefault (es : Entries α) (name : Text) (value : α) : Entries α :=
  if es.has name then es else es.set name value

/-- The entries under other names than the given ones. -/
def without (es : Entries α) (names : List Text) : Entries α :=
  es.filter fun e => !names.contains e.1

/-- Changes every value. -/
def mapValues (f : α → β) (es : Entries α) : Entries β := es.map fun e => (e.1, f e.2)

/-- Puts an item at the end of the list under a name. -/
def push (es : Entries (List α)) (name : Text) (item : α) : Entries (List α) :=
  es.set name ((es.get? name).getD [] ++ [item])

/-- Items in one list for each name. Names and items keep the order in which they come. -/
def group (name : α → Text) (items : List α) : Entries (List α) :=
  items.foldl (fun es item => es.push (name item) item) []

@[simp]
theorem get?_nil (name : Text) : get? ([] : Entries α) name = none := rfl

theorem get?_set_self (es : Entries α) (name : Text) (value : α) :
    (es.set name value).get? name = some value := by
  induction es with
  | nil => simp [set, get?]
  | cons e rest ih =>
    obtain ⟨k, v⟩ := e
    by_cases h : k = name <;> simp [set, get?, h, ih]

theorem get?_set_of_ne (es : Entries α) {name other : Text} (h : other ≠ name) (value : α) :
    (es.set name value).get? other = es.get? other := by
  induction es with
  | nil => simp [set, get?, Ne.symm h]
  | cons e rest ih =>
    obtain ⟨k, v⟩ := e
    by_cases hk : k = name
    · subst hk
      simp [set, get?, Ne.symm h]
    · simp [set, get?, hk, ih]

theorem keys_set (es : Entries α) (name : Text) (value : α) :
    (es.set name value).keys = if name ∈ es.keys then es.keys else es.keys ++ [name] := by
  induction es with
  | nil => simp [set, keys]
  | cons e rest ih =>
    obtain ⟨k, v⟩ := e
    by_cases hk : k = name
    · simp [set, keys, hk]
    · have hn : name ≠ k := fun he => hk he.symm
      simp only [set, hk, ↓reduceIte, keys, List.map_cons, List.mem_cons, hn, false_or] at ih ⊢
      rw [ih]
      split <;> simp_all

theorem mem_of_get? {es : Entries α} {name : Text} {value : α} (h : es.get? name = some value) :
    (name, value) ∈ es := by
  induction es with
  | nil => cases h
  | cons e rest ih =>
    obtain ⟨k, v⟩ := e
    rw [get?] at h
    split at h
    · next hk =>
      cases h
      rw [hk]
      exact List.mem_cons_self
    · exact List.mem_cons_of_mem _ (ih h)

theorem get?_of_mem {es : Entries α} (h : es.keys.Nodup) {e : Text × α} (he : e ∈ es) :
    es.get? e.1 = some e.2 := by
  induction es with
  | nil => exact absurd he List.not_mem_nil
  | cons first rest ih =>
    obtain ⟨k, v⟩ := first
    rw [keys, List.map_cons, List.nodup_cons] at h
    rcases List.mem_cons.1 he with rfl | hr
    · simp [get?]
    · have hne : k ≠ e.1 := by
        rintro rfl
        exact h.1 (List.mem_map.2 ⟨e, hr, rfl⟩)
      rw [get?, if_neg hne]
      exact ih h.2 hr

theorem nodup_keys_set {es : Entries α} (h : es.keys.Nodup) (name : Text) (value : α) :
    (es.set name value).keys.Nodup := by
  rw [keys_set]
  split
  · exact h
  · next hn =>
    refine List.nodup_append.2 ⟨h, by simp, fun k hk other ho he => hn ?_⟩
    rwa [← List.mem_singleton.1 ho, ← he]

theorem eq_or_mem_of_mem_set {es : Entries α} {name : Text} {value : α} {e : Text × α}
    (h : e ∈ es.set name value) : e = (name, value) ∨ e ∈ es := by
  induction es with
  | nil => exact .inl (List.mem_singleton.1 h)
  | cons first rest ih =>
    obtain ⟨k, v⟩ := first
    by_cases hk : k = name
    · rw [set, if_pos hk, hk] at h
      exact (List.mem_cons.1 h).imp_right (List.mem_cons_of_mem _)
    · rw [set, if_neg hk] at h
      rcases List.mem_cons.1 h with rfl | hr
      · exact .inr List.mem_cons_self
      · exact (ih hr).imp_right (List.mem_cons_of_mem _)

/-- A value under a name that is not present yet comes last. -/
theorem set_of_notMem {es : Entries α} {name : Text} (h : name ∉ es.keys) (value : α) :
    es.set name value = es ++ [(name, value)] := by
  induction es with
  | nil => rfl
  | cons e rest ih =>
    obtain ⟨k, v⟩ := e
    rw [keys, List.map_cons, List.mem_cons, not_or] at h
    rw [set, if_neg (Ne.symm h.1), ih h.2, List.cons_append]

/-- Items of different names, put one after the other under their names, stand as they came. -/
theorem foldl_set_of_nodup (name : α → Text) {items : List α} {es : Entries α}
    (h : (es.keys ++ items.map name).Nodup) :
    items.foldl (fun es item => es.set (name item) item) es =
      es ++ items.map fun item => (name item, item) := by
  induction items generalizing es with
  | nil => simp
  | cons item rest ih =>
    have hnew : name item ∉ es.keys := fun hm =>
      (List.nodup_append.1 h).2.2 _ hm _ List.mem_cons_self rfl
    have hrest : ((es ++ [(name item, item)]).keys ++ rest.map name).Nodup := by
      simpa [keys] using h
    rw [List.foldl_cons, set_of_notMem hnew, ih hrest, List.append_assoc, List.map_cons,
      List.singleton_append]

/-- The entries of items that are put one after the other. -/
def ofItems (items : List (Text × α)) : Entries α := items.foldl (fun es e => es.set e.1 e.2) []

theorem nodup_keys_foldl_set {name : β → Text} {value : β → α} {items : List β} {es : Entries α}
    (h : es.keys.Nodup) :
    (keys (items.foldl (fun es i => es.set (name i) (value i)) es)).Nodup := by
  induction items generalizing es with
  | nil => exact h
  | cons i rest ih => exact ih (nodup_keys_set h _ _)

/-- Each name has one entry among those of items. -/
theorem nodup_keys_ofItems (items : List (Text × α)) : (ofItems items).keys.Nodup :=
  have empty : (keys ([] : Entries α)).Nodup := List.nodup_nil
  nodup_keys_foldl_set empty

/-- Of the values that are put under a name the last one stays. -/
theorem get?_ofItems_of_last (before : List (Text × α)) {after : List (Text × α)} {name : Text}
    (h : name ∉ after.map (·.1)) (value : α) :
    (ofItems (before ++ (name, value) :: after)).get? name = some value := by
  have later (items : List (Text × α)) (hn : name ∉ items.map (·.1)) (es : Entries α) :
      (items.foldl (fun es e => es.set e.1 e.2) es).get? name = es.get? name := by
    induction items generalizing es with
    | nil => rfl
    | cons item rest ih =>
      rw [List.map_cons, List.mem_cons, not_or] at hn
      rw [List.foldl_cons, ih hn.2, get?_set_of_ne es hn.1]
  rw [ofItems, List.foldl_append, List.foldl_cons, later after h, get?_set_self]

theorem getD_get?_push (es : Entries (List α)) (name other : Text) (item : α) :
    ((es.push name item).get? other).getD [] =
      (es.get? other).getD [] ++ if other = name then [item] else [] := by
  unfold push
  by_cases h : other = name
  · simp [h, get?_set_self]
  · simp [h, get?_set_of_ne]

theorem getD_get?_foldl_push (name : α → Text) (items : List α) (es : Entries (List α))
    (label : Text) :
    ((items.foldl (fun es item => es.push (name item) item) es).get? label).getD [] =
      (es.get? label).getD [] ++ items.filter fun item => label = name item := by
  induction items generalizing es with
  | nil => simp
  | cons item rest ih =>
    rw [List.foldl_cons, ih, getD_get?_push]
    by_cases h : label = name item <;> simp [h]

/-- The list under a name holds the items of that name, in their order. -/
theorem getD_get?_group (name : α → Text) (items : List α) (label : Text) :
    ((group name items).get? label).getD [] = items.filter fun item => label = name item := by
  simp [group, getD_get?_foldl_push]

end Entries

end DesignTree
