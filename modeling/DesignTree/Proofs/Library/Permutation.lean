import DesignTree.Proofs.Library.Section

/-! # Libraries of the same components

Components can be given in another order: then a library is made exactly if one is made in the first
order, and the two differ at most in the order of the members of their sections, groups and
sub-groups (`organize_of_perm`). The sections stand in the order of their categories, which have
different priorities, and the groups in that of their names; what is counted or averaged over the
members of a section does not hang on their order.
-/

namespace DesignTree

/-- Sections that differ at most in the order of their members. -/
structure LibrarySection.Alike (s t : LibrarySection) : Prop where
  category : s.category = t.category
  componentCount : s.componentCount = t.componentCount
  averageUsage : s.averageUsage = t.averageUsage
  complexity : s.complexity = t.complexity
  components : s.components.Perm t.components
  groups : List.Forall₂ ComponentGroup.Alike s.groups t.groups

/-- Pages that differ at most in the order of the components in their parts. -/
structure Page.Alike (p q : Page) : Prop where
  name : p.name = q.name
  description : p.description = q.description
  sections : List.Forall₂ (fun s t : PageSection => s.name = t.name ∧
    s.description = t.description ∧ s.components.Perm t.components) p.sections q.sections

/-- Libraries that differ at most in the order of components in lists of them. -/
structure Library.Alike (l m : Library) : Prop where
  sections : List.Forall₂ LibrarySection.Alike l.sections m.sections
  pages : List.Forall₂ Page.Alike l.pages m.pages
  coverPage : l.coverPage = m.coverPage
  entries : ∀ id, l.entries.get? id = m.entries.get? id

theorem Page.Alike.refl (p : Page) : p.Alike p :=
  ⟨rfl, rfl, List.forall₂_same.2 fun _ _ => ⟨rfl, rfl, .refl _⟩⟩

theorem Complexity.ofMost_of_perm {levels levels' : List Complexity} (h : levels.Perm levels') :
    ofMost levels = ofMost levels' := by
  simp only [ofMost, h.count_eq, h.length_eq]

namespace LibrarySection

variable {category : Category} {members members' : Catalog} {s t : LibrarySection}

theorem averageUsage?_of_perm {counts counts' : List Int} (h : counts.Perm counts') :
    averageUsage? counts = averageUsage? counts' := by
  have sum : counts.foldr (· + ·) 0 = counts'.foldr (· + ·) 0 := h.foldr_eq 0
  unfold averageUsage?
  rw [sum, h.length_eq]

theorem alike_of_ofMembers (h : members.Perm members') (hs : ofMembers category members = .ok s)
    (ht : ofMembers category members' = .ok t) : s.Alike t := by
  obtain ⟨n, hn, rfl⟩ := ofMembers_eq_ok_iff.1 hs
  obtain ⟨m, hm, rfl⟩ := ofMembers_eq_ok_iff.1 ht
  rw [averageUsage?_of_perm (h.map _), hm, Except.ok.injEq] at hn
  exact {
    category := rfl
    componentCount := by simp only [componentCount, List.length_map, h.length_eq]
    averageUsage := hn.symm
    complexity := Complexity.ofMost_of_perm (h.map _)
    components := h.map _
    groups := ComponentGroup.forall₂_organize (h.map _) }

theorem Alike.page (h : s.Alike t) : s.page.Alike t.page where
  name := by rw [LibrarySection.page, LibrarySection.page, h.category]
  description := by rw [LibrarySection.page, LibrarySection.page, h.category]
  sections := forall₂_map (h.groups.imp fun _ _ hg => ⟨hg.name, hg.description, hg.components⟩)

theorem Alike.quickLink (h : s.Alike t) : s.quickLink = t.quickLink := by
  rw [LibrarySection.quickLink, LibrarySection.quickLink, h.category, h.componentCount]

end LibrarySection

namespace Library

variable {c c' : Catalog} {ss ts : List LibrarySection}

/-- The sections have one order, whatever that of the components. -/
theorem categories_of_perm (h : c.Perm c') (hs : sectionsOf c = .ok ss)
    (ht : sectionsOf c' = .ok ts) : ss.map (·.category) = ts.map (·.category) := by
  have sorted {c : Catalog} {ss : List LibrarySection} (h : sectionsOf c = .ok ss) :
      (ss.map (·.category)).Pairwise fun a b => a.priority < b.priority :=
    List.pairwise_map.2 (pairwise_of_sectionsOf h)
  refine List.Perm.eq_of_pairwise
    (fun a b _ _ hab hba => absurd hba (Nat.lt_asymm hab)) (sorted hs) (sorted ht) ?_
  exact (perm_categories_of_sectionsOf hs).trans
    ((perm_eraseDups (h.map _)).trans (perm_categories_of_sectionsOf ht).symm)

theorem forall₂_sectionsOf (h : c.Perm c') (hs : sectionsOf c = .ok ss)
    (ht : sectionsOf c' = .ok ts) : List.Forall₂ LibrarySection.Alike ss ts := by
  refine forall₂_of_map_eq (categories_of_perm h hs ht) fun s hm t hm' hc => ?_
  have made := ofMembers_of_mem_sectionsOf ht hm'
  rw [← hc] at made
  exact LibrarySection.alike_of_ofMembers (h.filter _) (ofMembers_of_mem_sectionsOf hs hm) made

theorem isOk_sectionsOf_of_perm (h : c.Perm c') : (sectionsOf c).isOk = (sectionsOf c').isOk := by
  rw [Bool.eq_iff_iff, isOk_sectionsOf_iff, isOk_sectionsOf_iff]
  refine forall_congr' fun category => ?_
  rw [LibrarySection.averageUsage?_of_perm (((h.map _).filter _).map _)]

theorem isOk_ofCatalog_of_perm (name version : Value) (h : c.Perm c') :
    (ofCatalog name version c).isOk = (ofCatalog name version c').isOk := by
  rw [isOk_ofCatalog, isOk_ofCatalog, isOk_sectionsOf_of_perm h]

theorem alike_of_ofCatalog {name version : Value} (h : c.Perm c')
    (hid : (c.map (·.component.id)).Nodup) {l m : Library} (hl : ofCatalog name version c = .ok l)
    (hm : ofCatalog name version c' = .ok m) : l.Alike m := by
  obtain ⟨ss, n, v, hs, hn, hv, rfl⟩ := ofCatalog_eq_ok_iff.1 hl
  obtain ⟨ts, n', v', ht, hn', hv', rfl⟩ := ofCatalog_eq_ok_iff.1 hm
  have sections := forall₂_sectionsOf h hs ht
  have hid' : (c'.map (·.component.id)).Nodup := (h.map _).nodup_iff.1 hid
  have names : n = n' ∧ v = v' := by
    rw [hn, Decoded.ok.injEq] at hn'
    rw [hv, Decoded.ok.injEq] at hv'
    exact ⟨hn', hv'⟩
  have links : ss.map LibrarySection.quickLink = ts.map LibrarySection.quickLink :=
    map_eq_of_forall₂ (sections.imp fun s t hst => hst.quickLink)
  have pages : List.Forall₂ Page.Alike (ss.map LibrarySection.page) (ts.map LibrarySection.page) :=
    forall₂_map (sections.imp fun _ _ hst => hst.page)
  rw [names.1, names.2, entries_eq hid, entries_eq hid']
  constructor
  case sections => exact sections
  case pages => exact .cons (.refl _) (List.rel_append pages (.cons (.refl _) .nil))
  case coverPage =>
    simp only [coverPage, totalComponents, List.length_map, h.length_eq, sections.length_eq, links]
  case entries =>
    refine fun id => Entries.get?_of_perm (h.map _) ?_ id
    rw [Entries.keys, List.map_map]
    exact hid

/-- **The order of the components does not matter.** Components that make a library make one in any
other order, and the two libraries differ at most in the order of the members of corresponding
sections, groups and sub-groups. -/
theorem organize_of_perm (name version : Value) {c c' : Catalog} (h : c.Perm c')
    (hid : (c.map (·.component.id)).Nodup) {l : Library}
    (hl : organize name version (c.map (·.definition)) (c.map (·.component)) = .ok l) :
    ∃ m, organize name version (c'.map (·.definition)) (c'.map (·.component)) = .ok m ∧
      l.Alike m := by
  rw [organize_catalog] at hl ⊢
  obtain ⟨m, hm⟩ := isOk_iff.1 ((isOk_ofCatalog_of_perm name version h).symm.trans
    (isOk_iff.2 ⟨l, hl⟩))
  exact ⟨m, hm, alike_of_ofCatalog h hid hl hm⟩

theorem organize_of_perm_buttons :
    let button (id name : Text) (count : Int) : BuiltComponent :=
      ⟨{ widget := { id := "save", kind := .button }, name, usageCount := count }, { id, name }⟩
    let page : BuiltComponent :=
      ⟨{ widget := { id := "page", kind := .scaffold }, name := "Page" },
        { id := "page", name := "Page" }⟩
    let c : Catalog := [button "first" "Primary Button" 4, page, button "second" "Save Button" 9]
    let c' : Catalog := [button "second" "Save Button" 9, button "first" "Primary Button" 4, page]
    ∃ l m, organize (.text "Library") (.text "1") (c.map (·.definition)) (c.map (·.component)) =
        .ok l ∧
      organize (.text "Library") (.text "1") (c'.map (·.definition)) (c'.map (·.component)) =
        .ok m ∧ l.Alike m := by
  intro button page c c'
  obtain ⟨l, hl⟩ := isOk_iff.1 (by decide +kernel : (organize (.text "Library") (.text "1")
    (c.map (·.definition)) (c.map (·.component))).isOk = true)
  have perm : c.Perm c' := @List.perm_append_comm _ [button "first" "Primary Button" 4, page] _
  obtain ⟨m, hm, alike⟩ := organize_of_perm _ _ perm (by decide) hl
  exact ⟨l, m, hl, hm, alike⟩

end Library

end DesignTree
