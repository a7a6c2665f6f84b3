import DesignTree.Proofs.Library.Section

/-! # What a library holds

A library holds each of its components once: in the section of its category, there in the group of
its name, and there in a sub-group; the pages show the groups, and all counts agree (`Holds`). A
library is made exactly if the mean numbers of usages are within the doubles, and then it holds its
components in this way (`organize_holds_iff`).
-/

namespace DesignTree

/-- The components of a category. -/
def Catalog.inCategory (c : Catalog) (category : Category) : Catalog :=
  c.filter fun b => b.definition.category = category

/-- The mean number of usages of the components of a category. -/
def Catalog.meanUsage (c : Catalog) (category : Category) : Rat :=
  let counts := (c.inCategory category).map (·.definition.usageCount)
  mkRat counts.sum counts.length

/-- A section lists the components of its category, and its groups together do. A group is made of
those with names for it, and splits them up by their numbers of variants. -/
structure LibrarySection.Holds (s : LibrarySection) (members : Catalog) : Prop where
  components : s.components = members.map (·.component.name)
  groups : (s.groups.flatMap (·.components)).Perm s.components
  groupNames : (s.groups.map (·.name)).Nodup
  subGroups : ∀ g ∈ s.groups, g.SplitsUp ((members.map (·.component)).filter fun m =>
    g.name = ComponentGroup.nameFor m.name)

/-- A library lists each component of a catalog once. -/
structure Library.Holds (l : Library) (c : Catalog) : Prop where
  components : (l.sections.flatMap (·.components)).Perm (c.map (·.component.name))
  sections : ∀ s ∈ l.sections, s.Holds (c.inCategory s.category)
  /-- The pages between the first and the last one are those of the sections. -/
  pages : l.pages.tail.dropLast.map (fun p => p.sections.map (·.components)) =
    l.sections.map fun s => s.groups.map (·.components)
  counts : (l.sections.map (·.componentCount)).sum = c.length
  total : l.coverPage.totalComponents = c.length
  names : (l.sections.map fun s => spelling s.category).Nodup
  priorities : l.sections.Pairwise fun s t => s.category.priority < t.category.priority

namespace LibrarySection

/-- The section that is made of some components holds them. -/
theorem holds_of_ofMembers {category : Category} {members : Catalog} {s : LibrarySection}
    (h : ofMembers category members = .ok s) : s.Holds members := by
  obtain ⟨n, -, rfl⟩ := ofMembers_eq_ok_iff.1 h
  have names : (members.map (·.component)).map (·.name) = members.map (·.component.name) := by
    rw [List.map_map]
    rfl
  refine ⟨rfl, ?_, ?_, fun g hg => ?_⟩
  · exact names ▸ ComponentGroup.perm_organize (members.map (·.component))
  · exact (ComponentGroup.perm_names_organize _).nodup_iff.2 (nodup_eraseDups _)
  · have group := ComponentGroup.eq_ofMembers_of_mem_organize hg
    generalize g.name = name at group ⊢
    rw [group]
    exact ComponentGroup.splitsUp_ofMembers name _

end LibrarySection

namespace Library

variable {c : Catalog} {ss : List LibrarySection}

theorem holds_of_mem_sectionsOf (h : sectionsOf c = .ok ss) {s : LibrarySection} (hs : s ∈ ss) :
    s.Holds (c.inCategory s.category) :=
  LibrarySection.holds_of_ofMembers (ofMembers_of_mem_sectionsOf h hs)

/-- The sections together list each component once. -/
theorem perm_of_sectionsOf (h : sectionsOf c = .ok ss) :
    (ss.flatMap (·.components)).Perm (c.map (·.component.name)) := by
  have lists : ss.flatMap (·.components) =
      ((ss.map (·.category)).flatMap fun category => c.filter fun b =>
        category = b.definition.category).map (·.component.name) := by
    rw [List.flatMap_map, List.map_flatMap]
    refine List.flatMap_congr fun s hs => ?_
    rw [(holds_of_mem_sectionsOf h hs).components, Catalog.inCategory]
    simp only [eq_comm]
  rw [lists]
  refine (flatMap_filter_perm _ (nodup_categories_of_sectionsOf h) fun b hb => ?_).map _
  rw [(perm_categories_of_sectionsOf h).mem_iff, List.mem_eraseDups]
  exact List.mem_map_of_mem (f := fun b : BuiltComponent => b.definition.category) hb

theorem sum_componentCount (ss : List LibrarySection) :
    (ss.map (·.componentCount)).sum = (ss.flatMap (·.components)).length := by
  rw [List.length_flatMap]
  rfl

theorem pages_eq (l : Library) : l.pages.tail.dropLast = l.sections.map LibrarySection.page := by
  rw [pages, List.cons_append, List.tail_cons, List.dropLast_concat]

/-- A library holds the components that it is made of, if their identifiers differ. -/
theorem holds_of_ofCatalog {name version : Value} {l : Library}
    (hid : (c.map (·.component.id)).Nodup) (h : ofCatalog name version c = .ok l) :
    l.Holds c := by
  obtain ⟨ss, n, v, hs, -, -, rfl⟩ := ofCatalog_eq_ok_iff.1 h
  constructor
  case components => exact perm_of_sectionsOf hs
  case sections => exact fun s hm => holds_of_mem_sectionsOf hs hm
  case pages =>
    rw [pages_eq, List.map_map]
    refine List.map_congr_left fun s _ => ?_
    rw [Function.comp_apply, LibrarySection.page, List.map_map]
    rfl
  case counts =>
    rw [sum_componentCount, (perm_of_sectionsOf hs).length_eq, List.length_map]
  case total =>
    rw [coverPage, totalComponents, entries_eq hid, List.length_map]
  case names =>
    have names := (nodup_categories_of_sectionsOf hs).map fun _ _ he => Category.spelling_inj he
    rwa [List.map_map] at names
  case priorities => exact pairwise_of_sectionsOf hs

theorem isOk_sectionsOf_iff_meanUsage (c : Catalog) :
    (sectionsOf c).isOk = true ↔
      ∀ category, (Double.ofRat (c.meanUsage category)).isInfinite = false := by
  rw [isOk_sectionsOf_iff]
  refine forall_congr' fun category => ?_
  rw [LibrarySection.isOk_averageUsage?, Bool.not_eq_true', List.filter_map, List.map_map]
  rfl

/-- **When a library holds its components.** Of components with different identifiers a library is
made, and lists each of them once, exactly if the mean number of usages of each category has a
finite double nearest to it. -/
theorem organize_holds_iff (name version : Text) (c : Catalog)
    (hid : (c.map (·.component.id)).Nodup) :
    (∃ l, organize (.text name) (.text version) (c.map (·.definition)) (c.map (·.component)) =
        .ok l ∧ l.Holds c) ↔
      ∀ category, (Double.ofRat (c.meanUsage category)).isInfinite = false := by
  rw [organize_catalog, ← isOk_sectionsOf_iff_meanUsage]
  have named : (ofCatalog (.text name) (.text version) c).isOk = (sectionsOf c).isOk := by
    rw [isOk_ofCatalog]
    exact Bool.and_true _
  rw [← named, isOk_iff]
  exact ⟨fun ⟨l, h, _⟩ => ⟨l, h⟩, fun ⟨l, h⟩ => ⟨l, h, holds_of_ofCatalog hid h⟩⟩

theorem organize_holds_iff_buttons :
    let button (id : Text) : BuiltComponent :=
      ⟨{ widget := { id := "save", kind := .button }, name := "Save", usageCount := 3 },
        { id, name := "Save Button" }⟩
    let page : BuiltComponent :=
      ⟨{ widget := { id := "page", kind := .scaffold }, name := "Page" },
        { id := "page", name := "Page" }⟩
    let c : Catalog := [page, button "first", button "second"]
    (c.map (·.component.id)).Nodup ∧
      ∃ l, organize (.text "Library") (.text "1") (c.map (·.definition)) (c.map (·.component)) =
        .ok l ∧ l.Holds c := by
  intro button page c
  have hid : (c.map (·.component.id)).Nodup := by decide
  exact ⟨hid, (organize_holds_iff "Library" "1" c hid).2 fun category => by
    cases category <;> decide +kernel⟩

/-- Without a double near a mean there is no library: here that of a single button. -/
theorem organize_beyond_doubles :
    let save : Definition := { widget := { id := "save", kind := .button }, name := "Save",
                               usageCount := 10 ^ 309 }
    organize (.text "Library") (.text "1") [save] [{ id := "save", name := "Save" }] =
      .error .quotientTooLarge := by
  intro save
  let c : Catalog := [⟨save, { id := "save", name := "Save" }⟩]
  have infinite : (Double.ofRat (mkRat ([10 ^ 309].foldr (· + ·) 0) 1)).nearestInt? = none := by
    decide +kernel
  have mean : LibrarySection.averageUsage? (c.map (·.definition.usageCount)) =
      .error .quotientTooLarge := by
    unfold LibrarySection.averageUsage?
    simp only [c, List.map_cons, List.map_nil, save, List.length_singleton, infinite]
  have one : byCategory c = [(.buttons, c)] := rfl
  have sections : sectionsOf c = .error .quotientTooLarge := by
    simp only [sectionsOf, one, List.mapM_cons, LibrarySection.ofMembers, mean]
    rfl
  exact (organize_catalog _ _ c).trans (by rw [ofCatalog, sections]; rfl)

end Library

end DesignTree
