import DesignTree.Data.Entries
import Mathlib.Data.List.Forall2
import Mathlib.Data.List.Induction
import Mathlib.Data.List.Nodup
import Mathlib.Data.List.Perm.Basic

/-! # Items in groups

Items are put into groups by a label, and the groups stand in the order in which their labels first
come (`Entries.group_eq`). The groups together hold each item once (`flatMap_filter_perm`), and
items in another order have the same labels (`perm_eraseDups`) and the same items under each of
them. Two lists of groups that have the same labels can be compared group by group
(`forall₂_of_map_eq`).
-/

namespace DesignTree

variable {α β κ : Type}

theorem nodup_eraseDups [DecidableEq α] (l : List α) : l.eraseDups.Nodup := by
  induction hn : l.length using Nat.strongRecOn generalizing l with
  | ind n ih =>
    cases l with
    | nil => exact List.nodup_nil
    | cons a rest =>
      have shorter : (rest.filter fun b => !b == a).length < n := by
        rw [← hn, List.length_cons]
        exact Nat.lt_succ_of_le (List.length_filter_le _ _)
      rw [List.eraseDups_cons, List.nodup_cons]
      exact ⟨by simp, ih _ shorter _ rfl⟩

theorem eraseDups_append_singleton [DecidableEq α] (l : List α) (a : α) :
    (l ++ [a]).eraseDups = if a ∈ l then l.eraseDups else l.eraseDups ++ [a] := by
  rw [List.eraseDups_append, List.removeAll]
  by_cases h : a ∈ l <;> simp [h, List.eraseDups_cons]

/-- Lists of the same items have the same items without repetition. -/
theorem perm_eraseDups [DecidableEq α] {l l' : List α} (h : l.Perm l') :
    l.eraseDups.Perm l'.eraseDups := by
  rw [List.perm_ext_iff_of_nodup (nodup_eraseDups l) (nodup_eraseDups l')]
  intro a
  rw [List.mem_eraseDups, List.mem_eraseDups, h.mem_iff]

/-- Groups by labels that differ, which are those of all items, hold each item once. -/
theorem flatMap_filter_perm [DecidableEq κ] (label : α → κ) {labels : List κ}
    (hn : labels.Nodup) {items : List α} (h : ∀ x ∈ items, label x ∈ labels) :
    (labels.flatMap fun k => items.filter fun x => k = label x).Perm items := by
  induction labels generalizing items with
  | nil =>
    have none : items = [] := List.eq_nil_iff_forall_not_mem.2 fun x hx =>
      List.not_mem_nil (h x hx)
    rw [none]
    exact .refl _
  | cons k rest ih =>
    rw [List.nodup_cons] at hn
    let others := items.filter fun x => !decide (k = label x)
    have hothers : ∀ x ∈ others, label x ∈ rest := by
      intro x hx
      obtain ⟨hx, hk⟩ := List.mem_filter.1 hx
      have hne : label x ≠ k := fun he => by simp [he] at hk
      exact (List.mem_cons.1 (h x hx)).resolve_left hne
    -- The other labels pick from all items what they pick from those without the first label.
    have same : (rest.flatMap fun k' => items.filter fun x => k' = label x) =
        rest.flatMap fun k' => others.filter fun x => k' = label x := by
      refine List.flatMap_congr fun k' hk' => ?_
      rw [List.filter_filter]
      refine List.filter_congr fun x _ => ?_
      by_cases hx : k' = label x
      · have hne : k ≠ label x := fun he => hn.1 (by rwa [he, ← hx])
        simp [hx, hne]
      · simp [hx]
    rw [List.flatMap_cons, same]
    exact ((ih hn.2 hothers).append_left _).trans (List.filter_append_perm _ items)

/-- Lists with the same labels are related item by item, if the items with one label are. -/
theorem forall₂_of_map_eq {R : α → β → Prop} {f : α → κ} {g : β → κ} {as : List α} {bs : List β}
    (h : as.map f = bs.map g) (hR : ∀ a ∈ as, ∀ b ∈ bs, f a = g b → R a b) :
    List.Forall₂ R as bs := by
  induction as generalizing bs with
  | nil =>
    obtain rfl : bs = [] := List.map_eq_nil_iff.1 h.symm
    exact .nil
  | cons a as ih =>
    cases bs with
    | nil => simp at h
    | cons b bs =>
      rw [List.map_cons, List.map_cons, List.cons.injEq] at h
      refine .cons (hR a List.mem_cons_self b List.mem_cons_self h.1) (ih h.2 ?_)
      exact fun x hx y hy => hR x (List.mem_cons_of_mem a hx) y (List.mem_cons_of_mem b hy)

theorem forall₂_map {γ δ : Type} {R : γ → δ → Prop} {f : α → γ} {g : β → δ} {as : List α}
    {bs : List β} (h : List.Forall₂ (fun a b => R (f a) (g b)) as bs) :
    List.Forall₂ R (as.map f) (bs.map g) :=
  List.forall₂_map_left_iff.2 (List.forall₂_map_right_iff.2 h)

theorem map_eq_of_forall₂ {f : α → κ} {g : β → κ} {as : List α} {bs : List β}
    (h : List.Forall₂ (fun a b => f a = g b) as bs) : as.map f = bs.map g := by
  have same : List.Forall₂ Eq (as.map f) (bs.map g) := forall₂_map h
  rwa [List.forall₂_eq_eq_eq] at same

theorem exists_of_mem_forall₂ {α β : Type*} {R : α → β → Prop} {as : List α} {bs : List β}
    (h : List.Forall₂ R as bs) {b : β} (hb : b ∈ bs) : ∃ a ∈ as, R a b := by
  induction h with
  | nil => exact absurd hb List.not_mem_nil
  | @cons a _ _ _ first _ ih =>
    rcases List.mem_cons.1 hb with rfl | hb
    · exact ⟨a, List.mem_cons_self, first⟩
    · obtain ⟨x, hx, hr⟩ := ih hb
      exact ⟨x, List.mem_cons_of_mem a hx, hr⟩

namespace Entries

theorem keys_push (es : Entries (List α)) (name : Text) (item : α) :
    (es.push name item).keys = if name ∈ es.keys then es.keys else es.keys ++ [name] :=
  keys_set es name _

/-- The labels of groups stand as they first come. -/
theorem keys_group (name : α → Text) (items : List α) :
    (group name items).keys = (items.map name).eraseDups := by
  induction items using List.reverseRecOn with
  | nil => rfl
  | append_singleton items item ih =>
    have step : group name (items ++ [item]) = (group name items).push (name item) item := by
      rw [group, List.foldl_append]
      rfl
    rw [step, keys_push, ih, List.map_append, List.map_singleton, eraseDups_append_singleton]
    simp only [List.mem_eraseDups]

/-- Entries under different names are the values under these names. -/
theorem eq_map_getD {es : Entries α} (h : es.keys.Nodup) (default : α) :
    es = es.keys.map fun name => (name, (es.get? name).getD default) := by
  rw [keys, List.map_map]
  conv_lhs => rw [← List.map_id es]
  refine List.map_congr_left fun e he => ?_
  simp [get?_of_mem h he]

/-- Items in groups: under each label that some item has, all items with that label. -/
theorem group_eq (name : α → Text) (items : List α) :
    group name items = (items.map name).eraseDups.map fun label =>
      (label, items.filter fun item => label = name item) := by
  have hn : (group name items).keys.Nodup := by
    rw [keys_group]
    exact nodup_eraseDups _
  rw [eq_map_getD hn [], keys_group]
  simp only [getD_get?_group]

/-- Entries under different names can be looked up in any order. -/
theorem get?_of_perm {es es' : Entries α} (h : es.Perm es') (hn : es.keys.Nodup) (name : Text) :
    es.get? name = es'.get? name := by
  have hn' : es'.keys.Nodup := (h.map _).nodup_iff.1 hn
  cases hv : es.get? name with
  | some v => exact (get?_of_mem hn' (h.mem_iff.1 (mem_of_get? hv))).symm
  | none =>
    cases hv' : es'.get? name with
    | none => rfl
    | some v =>
      have := get?_of_mem hn (h.mem_iff.2 (mem_of_get? hv'))
      rw [hv] at this
      cases this

end Entries

end DesignTree
