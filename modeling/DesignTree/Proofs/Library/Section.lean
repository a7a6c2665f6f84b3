import DesignTree.Library.Basic
import DesignTree.Proofs.Library.Group
import DesignTree.Proofs.Number.Basic
import DesignTree.Proofs.Run.Return
import Mathlib.Algebra.GroupWithZero.Nat
import Mathlib.Algebra.Ring.Int.Defs

/-! # Sections of a library

A library can be made exactly if the mean of the usage counts of each category is within the doubles
(`isOk_sectionsOf_iff`). It then has one section for each category of its components
(`perm_categories_of_sectionsOf`), by strictly increasing priority (`pairwise_of_sectionsOf`), and
each section is made of the components of its category (`ofMembers_of_mem_sectionsOf`). What is said
about the components stands in their order, if their identifiers differ (`entries_eq`).
-/

namespace DesignTree

/-! ## Means -/

theorem Double.isSome_nearestInt?_ofMagnitude (negative : Bool) (num den : Nat) :
    (ofMagnitude negative num den).nearestInt?.isSome =
      !(ofMagnitude negative num den).isInfinite := by
  unfold ofMagnitude
  by_cases hz : gridSteps num den (gridExponent num den) = 0
  · simp only [hz, if_true]
    cases negative <;> rfl
  · simp only [hz, if_false]
    split <;> rfl

namespace LibrarySection

/-- A mean can be taken exactly if the double nearest to it is finite. -/
theorem isOk_averageUsage? (counts : List Int) :
    (averageUsage? counts).isOk = !(Double.ofRat (mkRat counts.sum counts.length)).isInfinite := by
  rw [Double.ofRat, ← Double.isSome_nearestInt?_ofMagnitude]
  unfold averageUsage?
  cases h : (Double.ofRat (mkRat (counts.foldr (· + ·) 0) counts.length)).nearestInt? with
  | none => exact (congrArg Option.isSome h).symm
  | some n => exact (congrArg Option.isSome h).symm

theorem ofMembers_eq_ok_iff {category : Category} {members : Catalog} {s : LibrarySection} :
    ofMembers category members = .ok s ↔
      ∃ n, averageUsage? (members.map (·.definition.usageCount)) = .ok n ∧
        s = { category
              components := members.map (·.component.name)
              groups := ComponentGroup.organize (members.map (·.component))
              averageUsage := n
              complexity := .ofMost (members.map (·.definition.complexity)) } := by
  unfold ofMembers
  cases averageUsage? (members.map (·.definition.usageCount)) with
  | error fault => simp [bind, Except.bind]
  | ok n => simp [bind, Except.bind, pure, Except.pure, eq_comm]

end LibrarySection

/-! ## Categories -/

namespace Category

theorem mem_all (category : Category) : category ∈ (Spelled.all : List Category) := by
  cases category <;> decide

theorem priority_inj {a b : Category} (h : a.priority = b.priority) : a = b := by
  have different : ((Spelled.all : List Category).map priority).Nodup := by decide
  exact List.inj_on_of_nodup_map different a.mem_all b.mem_all h

theorem spelling_inj {a b : Category} (h : spelling a = spelling b) : a = b := by
  have different : ((Spelled.all : List Category).map spelling).Nodup := by decide +kernel
  exact List.inj_on_of_nodup_map different a.mem_all b.mem_all h

end Category

namespace Library

variable {c c' : Catalog} {ss : List LibrarySection}

theorem isOk_sectionsOf (c : Catalog) :
    (sectionsOf c).isOk = (byCategory c).all fun e =>
      (LibrarySection.averageUsage? (e.2.map (·.definition.usageCount))).isOk := by
  rw [sectionsOf, isOk_bind (b := true) fun _ _ => rfl, Bool.and_true, isOk_mapM]
  congr 1
  funext ⟨category, members⟩
  exact (isOk_bind (b := true) fun _ _ => rfl).trans (Bool.and_true _)

/-- The sections can be made exactly if the mean of the usage counts of each category is within the
doubles. -/
theorem isOk_sectionsOf_iff (c : Catalog) :
    (sectionsOf c).isOk = true ↔ ∀ category : Category,
      (LibrarySection.averageUsage? (((c.map (·.definition)).filter
        (·.category = category)).map (·.usageCount))).isOk = true := by
  have hmembers (category : Category) :
      ((c.map (·.definition)).filter (·.category = category)).map (·.usageCount) =
        (c.filter (·.definition.category = category)).map (·.definition.usageCount) := by
    rw [List.filter_map, List.map_map]
    rfl
  rw [isOk_sectionsOf, byCategory, List.all_map, List.all_eq_true]
  simp only [Function.comp_apply, hmembers, List.mem_eraseDups]
  refine forall_congr' fun category => ?_
  by_cases hm : category ∈ c.map (·.definition.category)
  · simp only [hm, true_implies]
  · -- A category without components has no section, and no mean to be taken.
    have none : c.filter (fun b => decide (b.definition.category = category)) = [] := by
      refine List.filter_eq_nil_iff.2 fun b hb he => hm ?_
      rw [← of_decide_eq_true he]
      exact List.mem_map_of_mem (f := fun b : BuiltComponent => b.definition.category) hb
    rw [none]
    exact iff_of_true (fun h => absurd h hm) rfl

theorem sectionsOf_eq_ok_iff :
    sectionsOf c = .ok ss ↔
      ∃ made, (byCategory c).mapM (fun (category, members) =>
          LibrarySection.ofMembers category members) = .ok made ∧
        ss = made.mergeSort fun a b => a.category.priority ≤ b.category.priority := by
  unfold sectionsOf
  cases (byCategory c).mapM fun (category, members) =>
      LibrarySection.ofMembers category members with
  | error fault => simp [bind, Except.bind]
  | ok made => simp [bind, Except.bind, pure, Except.pure, eq_comm]

/-- The sections before they are put in order. -/
theorem exists_perm_of_sectionsOf (h : sectionsOf c = .ok ss) :
    ∃ made, List.Forall₂ (fun e s => LibrarySection.ofMembers e.1 e.2 = .ok s) (byCategory c) made ∧
      ss.Perm made := by
  obtain ⟨made, hm, rfl⟩ := sectionsOf_eq_ok_iff.1 h
  exact ⟨made, forall₂_of_mapM hm, List.mergeSort_perm _ _⟩

theorem category_of_ofMembers {category : Category} {members : Catalog} {s : LibrarySection}
    (h : LibrarySection.ofMembers category members = .ok s) : s.category = category := by
  obtain ⟨n, -, rfl⟩ := LibrarySection.ofMembers_eq_ok_iff.1 h
  rfl

/-- Each section is made of the components of its category. -/
theorem ofMembers_of_mem_sectionsOf (h : sectionsOf c = .ok ss) {s : LibrarySection}
    (hs : s ∈ ss) :
    LibrarySection.ofMembers s.category (c.filter fun b => b.definition.category = s.category) =
      .ok s := by
  obtain ⟨made, hmade, hperm⟩ := exists_perm_of_sectionsOf h
  obtain ⟨e, he, hes⟩ := exists_of_mem_forall₂ hmade (hperm.mem_iff.1 hs)
  obtain ⟨category, -, rfl⟩ := List.mem_map.1 he
  rw [category_of_ofMembers hes]
  exact hes

/-- There is one section for each category of the components. -/
theorem perm_categories_of_sectionsOf (h : sectionsOf c = .ok ss) :
    (ss.map (·.category)).Perm (c.map (·.definition.category)).eraseDups := by
  obtain ⟨made, hmade, hperm⟩ := exists_perm_of_sectionsOf h
  have categories : (byCategory c).map (·.1) = made.map (·.category) :=
    map_eq_of_forall₂ (hmade.imp fun e s hes => (category_of_ofMembers hes).symm)
  refine (hperm.map _).trans (.of_eq ?_)
  rw [← categories, byCategory, List.map_map]
  exact List.map_id _

theorem nodup_categories_of_sectionsOf (h : sectionsOf c = .ok ss) :
    (ss.map (·.category)).Nodup :=
  (perm_categories_of_sectionsOf h).nodup_iff.2 (nodup_eraseDups _)

/-- The sections stand by strictly increasing priority. -/
theorem pairwise_of_sectionsOf (h : sectionsOf c = .ok ss) :
    ss.Pairwise fun a b => a.category.priority < b.category.priority := by
  have weak : ss.Pairwise fun a b => a.category.priority ≤ b.category.priority := by
    obtain ⟨made, -, rfl⟩ := sectionsOf_eq_ok_iff.1 h
    refine (List.pairwise_mergeSort ?_ ?_ made).imp of_decide_eq_true
    · intro a b d hab hbd
      exact decide_eq_true (Nat.le_trans (of_decide_eq_true hab) (of_decide_eq_true hbd))
    · intro a b
      rw [Bool.or_eq_true, decide_eq_true_eq, decide_eq_true_eq]
      exact Nat.le_total _ _
  refine (weak.and (List.pairwise_map.1 (nodup_categories_of_sectionsOf h))).imp ?_
  rintro a b ⟨hle, hne⟩
  exact Nat.lt_of_le_of_ne hle fun he => hne (Category.priority_inj he)

/-! ## Whole libraries -/

theorem ofCatalog_eq_ok_iff {name version : Value} {l : Library} :
    ofCatalog name version c = .ok l ↔
      ∃ ss n v, sectionsOf c = .ok ss ∧ Decoded.text name = .ok n ∧
        Decoded.text version = .ok v ∧
        l = { name := n, version := v, sections := ss
              entries := c.foldl (fun es b => es.set b.component.id (.ofBuilt b)) [] } := by
  unfold ofCatalog
  cases sectionsOf c with
  | error fault => simp [bind, Except.bind]
  | ok ss =>
    simp only [bind, Except.bind, orFault_eq_ok_iff, Decoded.seq_eq_ok_iff, Decoded.map_eq_ok_iff,
      Decoded.under_eq_ok_iff, Except.ok.injEq]
    constructor
    · rintro ⟨f, v, ⟨n, hn, rfl⟩, hv, rfl⟩
      exact ⟨ss, n, v, rfl, hn, hv, rfl⟩
    · rintro ⟨_, n, v, rfl, hn, hv, rfl⟩
      exact ⟨_, v, ⟨n, hn, rfl⟩, hv, rfl⟩

theorem isOk_ofCatalog (name version : Value) (c : Catalog) :
    (ofCatalog name version c).isOk =
      ((sectionsOf c).isOk && ((Decoded.text name).isOk && (Decoded.text version).isOk)) := by
  rw [ofCatalog, isOk_bind fun sections _ => ?_]
  simp

/-- A library without components can be named as any other one. -/
theorem isOk_ofCatalog_nil {name version : Value} {c : Catalog}
    (h : (ofCatalog name version c).isOk = true) : (ofCatalog name version []).isOk = true := by
  rw [isOk_ofCatalog, Bool.and_eq_true] at h ⊢
  exact ⟨rfl, h.2⟩

/-- Components of different identifiers have one entry each, in their order. -/
theorem entries_eq (h : (c.map (·.component.id)).Nodup) :
    c.foldl (fun (es : Entries ComponentEntry) b => es.set b.component.id (.ofBuilt b)) [] =
      c.map fun b => (b.component.id, ComponentEntry.ofBuilt b) := by
  have ids : (c.map ComponentEntry.ofBuilt).map (·.componentId) = c.map (·.component.id) := by
    rw [List.map_map]
    rfl
  have distinct : ((Entries.keys ([] : Entries ComponentEntry)) ++
      (c.map ComponentEntry.ofBuilt).map (·.componentId)).Nodup := by
    rw [ids]
    exact h
  have fold := Entries.foldl_set_of_nodup ComponentEntry.componentId distinct
  rw [List.foldl_map, List.nil_append, List.map_map] at fold
  exact fold

theorem organize_catalog (name version : Value) (c : Catalog) :
    organize name version (c.map (·.definition)) (c.map (·.component)) =
      ofCatalog name version c := by
  rw [organize, if_neg (by simp), List.zipWith_map, List.zipWith_self]
  exact congrArg (ofCatalog name version) (List.map_id c)

end Library

end DesignTree
