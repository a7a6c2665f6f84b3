import DesignTree.Proofs.Data.Grouping
import DesignTree.Variant.Group

/-! # Groups of variants

Variants are put into groups by their labels, which partitions them: each group keeps the order of
the list, and the groups stand in the order of their first members (`VariantGroup.Partition`). The
property that the labels are for is the one that most variants have, and of several such properties
the one that is first seen (`VariantGroup.Leads`).
-/

namespace DesignTree

/-! ## First places -/

/-- Of two items of a list without repetition, the first one comes before the other in the list. -/
theorem pairwise_eraseDups {α : Type} [DecidableEq α] (l : List α) :
    l.eraseDups.Pairwise fun a b =>
      ∃ before after, l = before ++ a :: after ∧ b ≠ a ∧ b ∉ before := by
  induction l using List.reverseRecOn with
  | nil => exact List.Pairwise.nil
  | append_singleton l x ih =>
    have longer : l.eraseDups.Pairwise fun a b =>
        ∃ before after, l ++ [x] = before ++ a :: after ∧ b ≠ a ∧ b ∉ before := by
      refine ih.imp ?_
      rintro a b ⟨before, after, rfl, hne, hb⟩
      exact ⟨before, after ++ [x], by simp, hne, hb⟩
    rw [eraseDups_append_singleton]
    split
    · exact longer
    · next new =>
      refine List.pairwise_append.2 ⟨longer, List.pairwise_singleton _ _, fun a ha b hb => ?_⟩
      rw [List.mem_singleton.1 hb]
      rw [List.mem_eraseDups] at ha
      obtain ⟨before, after, rfl⟩ := List.append_of_mem ha
      rw [List.mem_append, List.mem_cons, not_or, not_or] at new
      exact ⟨before, after ++ [x], by simp, new.2.1, new.1⟩

/-- What comes before an item of a list, where it stands first, comes before it without repetition
too. -/
theorem exists_split_of_eraseDups {α : Type} [DecidableEq α] {l as bs : List α} {a : α}
    (h : l.eraseDups = as ++ a :: bs) :
    ∃ before after, l = before ++ a :: after ∧ ∀ x ∈ before, x ∈ as := by
  have ha : a ∈ l := by
    rw [← List.mem_eraseDups, h]
    exact List.mem_append_right _ List.mem_cons_self
  obtain ⟨before, after, rfl, fresh⟩ := List.eq_append_cons_of_mem ha
  refine ⟨before, after, rfl, fun x hx => ?_⟩
  have later : x ∉ bs := by
    intro hb
    have apart : (as ++ a :: bs).Pairwise _ := h ▸ pairwise_eraseDups (before ++ a :: after)
    obtain ⟨first, rest, split, -, notFirst⟩ :=
      List.rel_of_pairwise_cons (List.pairwise_append.1 apart).2.1 hb
    -- The first place of `a` is at the end of `before`, so that nothing in `before` comes later.
    rcases List.append_eq_append_iff.1 split with ⟨gap, rfl, -⟩ | ⟨gap, rfl, hgap⟩
    · exact notFirst (List.mem_append_left _ hx)
    · cases gap with
      | nil => exact notFirst (by simpa using hx)
      | cons g gap =>
        rw [List.cons_append, List.cons.injEq] at hgap
        exact fresh (by simp [hgap.1])
  have hm : x ∈ as ++ a :: bs := by
    rw [← h, List.mem_eraseDups]
    exact List.mem_append_left _ hx
  rcases List.mem_append.1 hm with has | hcons
  · exact has
  · rcases List.mem_cons.1 hcons with rfl | hb
    · exact absurd hx fresh
    · exact absurd hb later

namespace VariantGroup

/-! ## Partitions -/

/-- In a list of variants a member of the first group comes before all members of the second one. -/
def Precedes (vs : List ComponentVariant) (g h : VariantGroup) : Prop :=
  ∃ before v after, vs = before ++ v :: after ∧ v ∈ g.variants ∧
    v ∉ h.variants ∧ ∀ u ∈ before, u ∉ h.variants

/-- Groups hold the variants of a list: together each of them as often as the list does, each of
them in one group alone, and in the order of the list. Groups have members and names of their own,
and stand in the order of their first members. -/
structure Partition (vs : List ComponentVariant) (gs : List VariantGroup) : Prop where
  perm : (gs.flatMap (·.variants)).Perm vs
  unique : ∀ v ∈ vs, ∃! g, g ∈ gs ∧ v ∈ g.variants
  order : ∀ g ∈ gs, g.variants.Sublist vs
  inhabited : ∀ g ∈ gs, g.variants ≠ []
  first : gs.Pairwise (Precedes vs)
  names : (gs.map (·.name)).Nodup

/-- The groups of variants by a label. -/
def byLabel (label : ComponentVariant → Text) (property : Text) (vs : List ComponentVariant) :
    List VariantGroup :=
  (vs.map label).eraseDups.map fun name =>
    ⟨name, property, vs.filter fun v => name = label v⟩

variable {vs : List ComponentVariant} {label : ComponentVariant → Text} {property : Text}

theorem group_eq_byLabel (label : ComponentVariant → Text) (property : Text)
    (vs : List ComponentVariant) :
    ((Entries.group label vs).map fun (name, members) =>
      (⟨name, property, members⟩ : VariantGroup)) = byLabel label property vs := by
  rw [Entries.group_eq, List.map_map, byLabel]
  rfl

/-- Variants are always put into groups by some label; without a property to group by it is the same
for all. -/
theorem organize_eq_byLabel (vs : List ComponentVariant) :
    organize vs = match groupingKey? vs with
      | some key => byLabel (labelOf key) key vs
      | none => byLabel (fun _ => Variant.defaultName) Variant.placeholderKey vs := by
  unfold organize
  cases groupingKey? vs with
  | some key => exact group_eq_byLabel _ key vs
  | none =>
    cases vs with
    | nil => rfl
    | cons v rest =>
      have none : (rest.map fun _ => Variant.defaultName).filter
          (fun name => !name == Variant.defaultName) = [] := by simp
      rw [byLabel, List.map_cons, List.eraseDups_cons, none]
      simp

/-- A variant is in the group of its own label alone. -/
theorem mem_byLabel {g : VariantGroup} {v : ComponentVariant} (hg : g ∈ byLabel label property vs) :
    v ∈ g.variants ↔ v ∈ vs ∧ g.name = label v := by
  obtain ⟨name, -, rfl⟩ := List.mem_map.1 hg
  rw [List.mem_filter, decide_eq_true_eq]

theorem names_byLabel (label : ComponentVariant → Text) (property : Text)
    (vs : List ComponentVariant) :
    (byLabel label property vs).map (·.name) = (vs.map label).eraseDups := by
  rw [byLabel, List.map_map]
  exact List.map_id _

theorem eq_of_name_eq {g h : VariantGroup} (hg : g ∈ byLabel label property vs)
    (hh : h ∈ byLabel label property vs) (same : g.name = h.name) : g = h := by
  obtain ⟨name, -, rfl⟩ := List.mem_map.1 hg
  obtain ⟨name', -, rfl⟩ := List.mem_map.1 hh
  obtain rfl : name = name' := same
  rfl

theorem exists_group (label : ComponentVariant → Text) (property : Text) {v : ComponentVariant}
    (hv : v ∈ vs) : ∃ g ∈ byLabel label property vs, g.name = label v ∧ v ∈ g.variants := by
  refine ⟨⟨label v, property, vs.filter fun u => label v = label u⟩, ?_, rfl, ?_⟩
  · exact List.mem_map_of_mem (List.mem_eraseDups.2 (List.mem_map_of_mem hv))
  · rw [List.mem_filter]
    exact ⟨hv, decide_eq_true rfl⟩

/-- Groups by a label stand in the order of their first members. -/
theorem pairwise_byLabel (label : ComponentVariant → Text) (property : Text)
    (vs : List ComponentVariant) : (byLabel label property vs).Pairwise (Precedes vs) := by
  rw [byLabel, List.pairwise_map]
  refine (pairwise_eraseDups _).imp ?_
  rintro a b ⟨labels, others, split, differ, fresh⟩
  obtain ⟨before, tail, rfl, rfl, htail⟩ := List.map_eq_append_iff.1 split
  obtain ⟨v, after, rfl, rfl, rfl⟩ := List.map_eq_cons_iff.1 htail
  refine ⟨before, v, after, rfl, by simp, by simp [differ], fun u hu hm => ?_⟩
  rw [List.mem_filter, decide_eq_true_eq] at hm
  exact fresh (hm.2 ▸ List.mem_map_of_mem hu)

theorem partition_byLabel (label : ComponentVariant → Text) (property : Text)
    (vs : List ComponentVariant) : Partition vs (byLabel label property vs) where
  perm := by
    have all : ∀ v ∈ vs, label v ∈ (vs.map label).eraseDups := fun v hv =>
      List.mem_eraseDups.2 (List.mem_map_of_mem hv)
    rw [byLabel, List.flatMap_map]
    exact flatMap_filter_perm label (nodup_eraseDups _) all
  unique := by
    intro v hv
    obtain ⟨g, hg, name, hm⟩ := exists_group label property hv
    refine ⟨g, ⟨hg, hm⟩, ?_⟩
    rintro h ⟨hh, hmh⟩
    exact eq_of_name_eq hh hg (((mem_byLabel hh).1 hmh).2.trans name.symm)
  order := by
    intro g hg
    obtain ⟨name, -, rfl⟩ := List.mem_map.1 hg
    exact List.filter_sublist
  inhabited := by
    intro g hg
    obtain ⟨name, hname, rfl⟩ := List.mem_map.1 hg
    obtain ⟨v, hv, rfl⟩ := List.mem_map.1 (List.mem_eraseDups.1 hname)
    exact List.ne_nil_of_mem (List.mem_filter.2 ⟨hv, decide_eq_true rfl⟩)
  first := pairwise_byLabel label property vs
  names := by
    rw [names_byLabel]
    exact nodup_eraseDups _

/-! ## The property to group by -/

/-- How many variants have a property. -/
def carriers (vs : List ComponentVariant) (key : Text) : Nat :=
  vs.countP fun v => key ∈ v.properties.keys

/-- A property other than the placeholder that some variant has, and no other property more of them.
All properties that come before it have fewer variants. -/
structure Leads (vs : List ComponentVariant) (key : Text) : Prop where
  carried : ∃ v ∈ vs, key ∈ v.properties.keys
  proper : key ≠ Variant.placeholderKey
  most : ∀ other, other ≠ Variant.placeholderKey → carriers vs other ≤ carriers vs key
  first : ∃ before after, vs.flatMap (·.properties.keys) = before ++ key :: after ∧
    ∀ other ∈ before, other ≠ Variant.placeholderKey → carriers vs other < carriers vs key

/-- The properties of variants as they come, the placeholder left out. -/
def properKeys (vs : List ComponentVariant) : List Text :=
  (vs.flatMap (·.properties.keys)).filter (· ≠ Variant.placeholderKey)

theorem mem_properKeys {key : Text} : key ∈ properKeys vs ↔
    (∃ v ∈ vs, key ∈ v.properties.keys) ∧ key ≠ Variant.placeholderKey := by
  rw [properKeys, List.mem_filter, List.mem_flatMap, decide_eq_true_eq]

/-- How often each name comes in a list. -/
def tally (keys : List Text) : Entries Nat :=
  keys.foldl (fun es key => Entries.set es key ((Entries.get? es key).getD 0 + 1)) []

theorem tally_append_singleton (keys : List Text) (key : Text) :
    tally (keys ++ [key]) =
      (tally keys).set key (((tally keys).get? key).getD 0 + 1) := List.foldl_append

theorem keys_tally (keys : List Text) : (tally keys).keys = keys.eraseDups := by
  induction keys using List.reverseRecOn with
  | nil => rfl
  | append_singleton keys k ih =>
    rw [tally_append_singleton, Entries.keys_set, ih, eraseDups_append_singleton]
    simp only [List.mem_eraseDups]

theorem getD_get?_tally (keys : List Text) (key : Text) :
    ((tally keys).get? key).getD 0 = keys.count key := by
  induction keys using List.reverseRecOn with
  | nil => rfl
  | append_singleton keys k ih =>
    rw [tally_append_singleton, List.count_append]
    by_cases hk : key = k
    · rw [← hk, Entries.get?_set_self, Option.getD_some, ih, List.count_singleton_self]
    · rw [Entries.get?_set_of_ne _ hk, ih, List.count_singleton, beq_eq_false_iff_ne.2 (Ne.symm hk)]
      rfl

/-- Names are counted in the order in which they first come. -/
theorem tally_eq (keys : List Text) :
    tally keys = keys.eraseDups.map fun key => (key, keys.count key) := by
  have distinct : (tally keys).keys.Nodup := by
    rw [keys_tally]
    exact nodup_eraseDups keys
  rw [Entries.eq_map_getD distinct 0, keys_tally]
  simp only [getD_get?_tally]

theorem frequencies_eq (vs : List ComponentVariant) :
    frequencies vs = (properKeys vs).eraseDups.map fun key => (key, (properKeys vs).count key) := by
  rw [← tally_eq, tally, properKeys, List.foldl_filter, frequencies]
  refine congrArg (fun f => List.foldl f _ _) (funext fun es => funext fun key => ?_)
  by_cases h : key = Variant.placeholderKey <;> simp [h]

theorem mostFrequent?_eq_none_iff {es : Entries Nat} : mostFrequent? es = none ↔ es = [] := by
  cases es with
  | nil => simp [mostFrequent?]
  | cons e rest =>
    rw [mostFrequent?]
    cases mostFrequent? rest with
    | none => simp
    | some best => by_cases lt : e.2 < best.2 <;> simp [lt]

/-- The most frequent entry has no more frequent one after it and less frequent ones before it. -/
theorem exists_split_of_mostFrequent? {es : Entries Nat} {e : Text × Nat}
    (h : mostFrequent? es = some e) :
    ∃ before after, es = before ++ e :: after ∧ (∀ x ∈ before, x.2 < e.2) ∧
      ∀ x ∈ after, x.2 ≤ e.2 := by
  induction es generalizing e with
  | nil => cases h
  | cons first rest ih =>
    rw [mostFrequent?] at h
    cases hr : mostFrequent? rest with
    | none =>
      have empty : rest = [] := mostFrequent?_eq_none_iff.1 hr
      rw [hr] at h
      cases h
      exact ⟨[], rest, rfl, nofun, by simp [empty]⟩
    | some best =>
      obtain ⟨before, after, rfl, less, atMost⟩ := ih hr
      rw [hr] at h
      by_cases lt : first.2 < best.2
      · simp only [if_pos lt] at h
        cases h
        exact ⟨first :: before, after, rfl, List.forall_mem_cons.2 ⟨lt, less⟩, atMost⟩
      · simp only [if_neg lt] at h
        cases h
        refine ⟨[], _, rfl, nofun, fun x hx => ?_⟩
        rcases List.mem_append.1 hx with hb | hc
        · exact Nat.le_trans (Nat.le_of_lt (less x hb)) (Nat.le_of_not_lt lt)
        · rcases List.mem_cons.1 hc with rfl | ha
          · exact Nat.le_of_not_lt lt
          · exact Nat.le_trans (atMost x ha) (Nat.le_of_not_lt lt)

/-- Where no variant has a property twice, a property comes as often as there are variants that have
it. -/
theorem count_properKeys (distinct : ∀ v ∈ vs, v.properties.keys.Nodup) {key : Text}
    (hk : key ≠ Variant.placeholderKey) : (properKeys vs).count key = carriers vs key := by
  rw [properKeys, List.count_filter (p := fun k => decide (k ≠ Variant.placeholderKey))
    (decide_eq_true hk), carriers]
  induction vs with
  | nil => rfl
  | cons v rest ih =>
    rw [List.flatMap_cons, List.count_append, List.countP_cons,
      ih fun u hu => distinct u (List.mem_cons_of_mem v hu),
      (distinct v List.mem_cons_self).count, Nat.add_comm]
    simp

theorem groupingKey?_eq_none_iff : groupingKey? vs = none ↔ properKeys vs = [] := by
  rw [groupingKey?, Option.map_eq_none_iff, mostFrequent?_eq_none_iff, frequencies_eq,
    List.map_eq_nil_iff]
  constructor
  · intro h
    refine List.eq_nil_iff_forall_not_mem.2 fun key hkey => ?_
    rw [← List.mem_eraseDups, h] at hkey
    exact List.not_mem_nil hkey
  · intro h
    rw [h]
    rfl

/-- The property to group by stands among the proper ones after those that come less often, and
before none that comes more often. -/
theorem exists_split_of_groupingKey? {key : Text} (h : groupingKey? vs = some key) :
    ∃ earlier later, (properKeys vs).eraseDups = earlier ++ key :: later ∧
      (∀ other ∈ earlier, (properKeys vs).count other < (properKeys vs).count key) ∧
      ∀ other ∈ later, (properKeys vs).count other ≤ (properKeys vs).count key := by
  obtain ⟨entry, found, rfl⟩ := Option.map_eq_some_iff.1 h
  obtain ⟨before, after, split, less, atMost⟩ := exists_split_of_mostFrequent? found
  rw [frequencies_eq] at split
  obtain ⟨earlier, tail, hsplit, rfl, htail⟩ := List.map_eq_append_iff.1 split
  obtain ⟨key, later, rfl, rfl, rfl⟩ := List.map_eq_cons_iff.1 htail
  rw [List.forall_mem_map] at less atMost
  exact ⟨earlier, later, hsplit, less, atMost⟩

/-- What comes before a proper property, in the whole list, is the placeholder or comes earlier
among the proper ones. -/
theorem exists_split_keys {key : Text} {earlier later : List Text}
    (h : (properKeys vs).eraseDups = earlier ++ key :: later) :
    ∃ before after, vs.flatMap (·.properties.keys) = before ++ key :: after ∧
      ∀ other ∈ before, other ≠ Variant.placeholderKey → other ∈ earlier := by
  obtain ⟨first, rest, hkeys, hfirst⟩ := exists_split_of_eraseDups h
  rw [properKeys] at hkeys
  obtain ⟨front, back, hall, hfront, hback⟩ := List.filter_eq_append_iff.1 hkeys
  obtain ⟨skipped, behind, rfl, none, -, -⟩ := List.filter_eq_cons_iff.1 hback
  refine ⟨front ++ skipped, behind, by rw [hall, List.append_assoc], fun other hother ho => ?_⟩
  rcases List.mem_append.1 hother with hf | hs
  · exact hfirst other (hfront ▸ List.mem_filter.2 ⟨hf, decide_eq_true ho⟩)
  · exact absurd (decide_eq_true ho) (none other hs)

theorem leads_of_groupingKey? (distinct : ∀ v ∈ vs, v.properties.keys.Nodup) {key : Text}
    (h : groupingKey? vs = some key) : Leads vs key := by
  obtain ⟨earlier, later, hsplit, less, atMost⟩ := exists_split_of_groupingKey? h
  have hmem : key ∈ properKeys vs := by
    rw [← List.mem_eraseDups, hsplit]
    exact List.mem_append_right _ List.mem_cons_self
  obtain ⟨carried, proper⟩ := mem_properKeys.1 hmem
  have counts {other : Text} (ho : other ≠ Variant.placeholderKey) :=
    count_properKeys distinct ho
  refine ⟨carried, proper, fun other ho => ?_, ?_⟩
  · rw [← counts ho, ← counts proper]
    by_cases hm : other ∈ properKeys vs
    · rw [← List.mem_eraseDups, hsplit, List.mem_append, List.mem_cons] at hm
      rcases hm with hb | rfl | ha
      · exact Nat.le_of_lt (less other hb)
      · exact Nat.le_refl _
      · exact atMost other ha
    · rw [List.count_eq_zero_of_not_mem hm]
      exact Nat.zero_le _
  · obtain ⟨before, after, split, hbefore⟩ := exists_split_keys hsplit
    refine ⟨before, after, split, fun other hother ho => ?_⟩
    rw [← counts ho, ← counts proper]
    exact less other (hbefore other hother ho)

/-- **Groups partition the variants.** Each variant is in one group alone, and there as often as in
the list; a group keeps the order of the list, no group is empty, and the groups stand in the order
of their first members under different names. If some variant has a property other than the
placeholder, all groups are by one property: of those that most variants have the one that is first
seen. -/
theorem organize_partitions (vs : List ComponentVariant) :
    Partition vs (organize vs) ∧
      ((∀ v ∈ vs, v.properties.keys.Nodup) →
        (∃ v ∈ vs, ∃ key ∈ v.properties.keys, key ≠ Variant.placeholderKey) →
          ∃ key, Leads vs key ∧ ∀ g ∈ organize vs, g.property = key) := by
  rw [organize_eq_byLabel]
  cases hk : groupingKey? vs with
  | some key =>
    refine ⟨partition_byLabel _ _ vs, fun distinct _ => ⟨key, ?_, fun g hg => ?_⟩⟩
    · exact leads_of_groupingKey? distinct hk
    · obtain ⟨name, -, rfl⟩ := List.mem_map.1 hg
      rfl
  | none =>
    refine ⟨partition_byLabel _ _ vs, ?_⟩
    rintro - ⟨v, hv, key, hkey, proper⟩
    have hm : key ∈ properKeys vs := mem_properKeys.2 ⟨⟨v, hv, hkey⟩, proper⟩
    rw [groupingKey?_eq_none_iff.1 hk] at hm
    exact absurd hm List.not_mem_nil

theorem organize_partitions_buttons :
    let node : Node := { kind := .component, name := "Button" }
    let small : ComponentVariant :=
      { name := "Small", properties := [("size", .text "small")], nodeSpec := node }
    let wide : ComponentVariant :=
      { name := "Wide", properties := [("wide", .bool true)], nodeSpec := node }
    let both : ComponentVariant :=
      { name := "Both", properties := [("wide", .bool true), ("size", .text "large")],
        nodeSpec := node }
    let vs := [small, wide, both]
    Partition vs (organize vs) ∧ (∀ v ∈ vs, v.properties.keys.Nodup) ∧
      ∃ key, Leads vs key ∧ ∀ g ∈ organize vs, g.property = key := by
  intro node small wide both vs
  have distinct : ∀ v ∈ vs, v.properties.keys.Nodup := by decide
  obtain ⟨partition, grouped⟩ := organize_partitions vs
  have proper : ∃ v ∈ vs, ∃ key ∈ v.properties.keys, key ≠ Variant.placeholderKey :=
    ⟨small, List.mem_cons_self, "size", by decide, by decide⟩
  exact ⟨partition, distinct, grouped distinct proper⟩

end VariantGroup

end DesignTree
