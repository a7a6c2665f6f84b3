import DesignTree.Library.Group
import DesignTree.Proofs.Data.Grouping

/-! # Components in groups

The groups of some components go by the names that the components give, each name once and in one
order (`perm_names_organize`, `pairwise_organize`), and each group is made of the components of its
name (`eq_ofMembers_of_mem_organize`). So every component is in one group (`perm_organize`), there
in the sub-group of those with several variants or of those without (`perm_subGroups`).

Components in another order give groups of the same names, in the same order, with the same members
(`forall₂_organize`).
-/

namespace DesignTree

/-! ## Sub-groups -/

/-- The name of the sub-group for components with several variants, or for the other ones. -/
def SubGroup.nameFor (several : Bool) : Text :=
  if several then "With Variants" else "Simple Components"

namespace ComponentGroup

/-- A group of some components: it lists all of them, and its sub-groups together do, one for those
with more than one variant and one for the other ones. -/
structure SplitsUp (g : ComponentGroup) (members : List Component) : Prop where
  components : g.components = members.map (·.name)
  subGroups : (g.subGroups.flatMap (·.components)).Perm g.components
  byVariants : ∀ s ∈ g.subGroups, ∃ several : Bool, s.name = SubGroup.nameFor several ∧
    s.components = (members.filter fun m => decide (1 < m.variants.length) = several).map (·.name)
  names : (g.subGroups.map (·.name)).Nodup

theorem flatMap_subGroup (name : Text) (members : List Component) :
    (SubGroup.ofMembers name members).flatMap (·.components) = members.map (·.name) := by
  cases members <;> simp [SubGroup.ofMembers]

theorem perm_subGroups (name : Text) (members : List Component) :
    ((ofMembers name members).subGroups.flatMap (·.components)).Perm (members.map (·.name)) := by
  rw [ofMembers, List.flatMap_append, flatMap_subGroup, flatMap_subGroup, ← List.map_append]
  exact (List.filter_append_perm hasVariants members).map _

theorem mem_subGroup {s : SubGroup} {name : Text} {members : List Component}
    (h : s ∈ SubGroup.ofMembers name members) :
    s.name = name ∧ s.components = members.map (·.name) := by
  rw [SubGroup.ofMembers] at h
  split at h
  · exact absurd h List.not_mem_nil
  · rw [List.mem_singleton.1 h]
    exact ⟨rfl, rfl⟩

theorem filter_hasVariants (members : List Component) :
    members.filter hasVariants =
        members.filter (fun m => decide (1 < m.variants.length) = true) ∧
      members.filter (!hasVariants ·) =
        members.filter fun m => decide (1 < m.variants.length) = false := by
  constructor <;> refine List.filter_congr fun m _ => ?_
  · rw [hasVariants, Bool.decide_eq_true]
  · rw [hasVariants, Bool.decide_eq_false]

theorem splitsUp_ofMembers (name : Text) (members : List Component) :
    (ofMembers name members).SplitsUp members where
  components := rfl
  subGroups := perm_subGroups name members
  byVariants := by
    intro s hs
    rcases List.mem_append.1 hs with hs | hs
    · obtain ⟨hn, hc⟩ := mem_subGroup hs
      exact ⟨true, hn, hc.trans (congrArg (List.map _) (filter_hasVariants members).1)⟩
    · obtain ⟨hn, hc⟩ := mem_subGroup hs
      exact ⟨false, hn, hc.trans (congrArg (List.map _) (filter_hasVariants members).2)⟩
  names := by
    have differ : SubGroup.nameFor true ≠ SubGroup.nameFor false := by decide
    rw [ofMembers, List.map_append]
    cases members.filter hasVariants <;> cases members.filter (!hasVariants ·) <;>
      simp [SubGroup.ofMembers]
    exact differ

/-! ## The order of groups -/

/-- Whether a group of one name comes before one of another name or in its place. -/
def NamePrecedes (n m : Text) : Prop := precedes ⟨n, "", [], []⟩ ⟨m, "", [], []⟩ = true

theorem precedes_iff (a b : ComponentGroup) :
    a.precedes b = true ↔ a.rank < b.rank ∨ a.rank = b.rank ∧ a.name ≤ b.name := by
  simp [precedes]

theorem precedes_total (a b : ComponentGroup) : (a.precedes b || b.precedes a) = true := by
  rw [Bool.or_eq_true, precedes_iff, precedes_iff]
  rcases Nat.lt_trichotomy a.rank b.rank with h | h | h
  · exact .inl (.inl h)
  · exact (Text.le_total a.name b.name).imp (fun hn => .inr ⟨h, hn⟩) fun hn => .inr ⟨h.symm, hn⟩
  · exact .inr (.inl h)

theorem precedes_trans (a b c : ComponentGroup) (h : a.precedes b = true)
    (h' : b.precedes c = true) : a.precedes c = true := by
  rw [precedes_iff] at h h' ⊢
  rcases h with h | ⟨hr, hn⟩ <;> rcases h' with h' | ⟨hr', hn'⟩
  · exact .inl (Nat.lt_trans h h')
  · exact .inl (hr' ▸ h)
  · exact .inl (hr ▸ h')
  · exact .inr ⟨hr.trans hr', Text.le_trans hn hn'⟩

theorem namePrecedes_antisymm {n m : Text} (h : NamePrecedes n m) (h' : NamePrecedes m n) :
    n = m := by
  rw [NamePrecedes, precedes_iff] at h h'
  rcases h with h | ⟨hr, hn⟩
  · rcases h' with h' | ⟨hr', -⟩ <;> omega
  · rcases h' with h' | ⟨-, hn'⟩
    · omega
    · exact Text.le_antisymm hn hn'

/-! ## All groups -/

variable {cs cs' : List Component}

/-- The groups before they are put in order. -/
theorem perm_organize_map (cs : List Component) :
    (organize cs).Perm ((cs.map fun c => nameFor c.name).eraseDups.map fun name =>
      ofMembers name (cs.filter fun c => name = nameFor c.name)) := by
  rw [organize, Entries.group_eq, List.map_map]
  exact List.mergeSort_perm _ _

/-- The groups go by the names that the components give, each name once. -/
theorem perm_names_organize (cs : List Component) :
    ((organize cs).map (·.name)).Perm (cs.map fun c => nameFor c.name).eraseDups := by
  refine ((perm_organize_map cs).map _).trans (.of_eq ?_)
  rw [List.map_map]
  exact List.map_id _

theorem pairwise_organize (cs : List Component) :
    (organize cs).Pairwise fun a b => a.precedes b = true :=
  List.pairwise_mergeSort precedes_trans precedes_total _

/-- A group is made of the components of its name. -/
theorem eq_ofMembers_of_mem_organize {g : ComponentGroup} (h : g ∈ organize cs) :
    g = ofMembers g.name (cs.filter fun c => g.name = nameFor c.name) := by
  obtain ⟨name, -, rfl⟩ := List.mem_map.1 ((perm_organize_map cs).mem_iff.1 h)
  rfl

/-- The groups together list each component once. -/
theorem perm_organize (cs : List Component) :
    ((organize cs).flatMap (·.components)).Perm (cs.map (·.name)) := by
  refine ((perm_organize_map cs).flatMap fun _ _ => .refl _).trans ?_
  have lists (names : List Text) :
      (names.map fun name => ofMembers name (cs.filter fun c => name = nameFor c.name)).flatMap
          (·.components) =
        (names.flatMap fun name => cs.filter fun c => name = nameFor c.name).map (·.name) := by
    rw [List.flatMap_map, List.map_flatMap]
    rfl
  rw [lists]
  refine (flatMap_filter_perm _ (nodup_eraseDups _) fun c hc => ?_).map _
  exact List.mem_eraseDups.2 (List.mem_map_of_mem hc)

/-! ## Components in another order -/

/-- Groups that differ at most in the order of their members. -/
structure Alike (g g' : ComponentGroup) : Prop where
  name : g.name = g'.name
  description : g.description = g'.description
  components : g.components.Perm g'.components
  subGroups : List.Forall₂ (fun s s' => s.name = s'.name ∧ s.components.Perm s'.components)
    g.subGroups g'.subGroups

theorem forall₂_subGroup (name : Text) (h : cs.Perm cs') :
    List.Forall₂ (fun s s' => s.name = s'.name ∧ s.components.Perm s'.components)
      (SubGroup.ofMembers name cs) (SubGroup.ofMembers name cs') := by
  rw [SubGroup.ofMembers, SubGroup.ofMembers, h.isEmpty_eq]
  split
  · exact .nil
  · exact .cons ⟨rfl, h.map _⟩ .nil

theorem alike_ofMembers (name : Text) (h : cs.Perm cs') :
    (ofMembers name cs).Alike (ofMembers name cs') where
  name := rfl
  description := by simp only [ofMembers, h.length_eq]
  components := h.map _
  subGroups := List.rel_append (forall₂_subGroup _ (h.filter _)) (forall₂_subGroup _ (h.filter _))

/-- The names of the groups do not depend on the order of the components. -/
theorem names_organize_of_perm (h : cs.Perm cs') :
    (organize cs).map (·.name) = (organize cs').map (·.name) := by
  have sorted (cs : List Component) :
      ((organize cs).map (·.name)).Pairwise NamePrecedes :=
    List.pairwise_map.2 (pairwise_organize cs)
  refine List.Perm.eq_of_pairwise (fun n m _ _ => namePrecedes_antisymm) (sorted cs) (sorted cs') ?_
  exact (perm_names_organize cs).trans
    ((perm_eraseDups (h.map _)).trans (perm_names_organize cs').symm)

/-- Components in another order are in the same groups. -/
theorem forall₂_organize (h : cs.Perm cs') :
    List.Forall₂ Alike (organize cs) (organize cs') := by
  refine forall₂_of_map_eq (names_organize_of_perm h) fun g hg g' hg' hn => ?_
  rw [eq_ofMembers_of_mem_organize hg, eq_ofMembers_of_mem_organize hg', ← hn]
  exact alike_ofMembers g.name (h.filter _)

end ComponentGroup

end DesignTree
