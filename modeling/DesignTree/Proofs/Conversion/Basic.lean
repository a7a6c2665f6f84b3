import DesignTree.Conversion.Basic
import DesignTree.Proofs.Conversion.Usage
import DesignTree.Proofs.Library.Section
import DesignTree.Proofs.Tree.Lineage

/-! # Whole conversions

A conversion goes through four phases with one count of identifiers: the tree is lowered and styled,
the catalog is built, instances are put in the place of usages, and the library is sorted
(`yields_convertTree`, `convert_eq_ok_iff`). What each phase is known to do gives three statements
about the whole:

* no two nodes or components of a conversion have one identifier (`nodup_ids_of_convert`);
* reusable widgets change nothing of the tree but put instances in the place of its topmost usages
  (`convert_replaces_usages`);
* a conversion returns, and reports what went wrong, exactly for the input that it can take
  (`convert_reports_iff`): in particular no text and no image has children.
-/

namespace DesignTree

open InRun

namespace Converter

variable {c : Converter} {root : Widget} {theme : Option Theme} {ds : List Definition}
  {modes : Entries Theme} {tokens : TokenTable} {run after : Run}

/-! ## Phases -/

/-- The tokens of themes can always be built. -/
theorem isOk_buildTokens (c : Converter) (theme : Option Theme) (modes : Entries Theme) :
    (c.buildTokens theme modes).isOk = true := by
  unfold buildTokens
  cases theme with
  | none => rfl
  | some theme =>
    simp only
    split
    · rfl
    · simp [TokenTable.addModes, Entries.keys, Except.mapError]

/-- How styles are resolved in a conversion. -/
def resolver (c : Converter) (tokens : TokenTable) : Resolver := ⟨tokens, c.config⟩

theorem yields_convertTree {node : Node} {catalog : Catalog} :
    (c.convertTree tokens root ds).Yields run (node, catalog) after ↔
      ∃ limit styled mid built, Synthesizer.limitOf c.variantLimit = .ok limit ∧
        (Synthesizer.lower ⟨limit, some (c.resolver tokens)⟩ root).Yields
          (run.noting (tokenWarnings tokens)) styled mid ∧
        (Synthesizer.buildAll ⟨limit, some (c.resolver tokens)⟩ ds).Yields
          (mid.noting (unsupportedWarnings root)) catalog built ∧
        (catalog.placeInstances (.ofCatalog catalog) root styled).Yields built node after := by
  unfold convertTree
  simp only [yields_bind, yields_record, yields_lift, yields_pure, Prod.exists,
    Resolver.yields_applyTree, Synthesizer.yields_lower, Prod.mk.injEq]
  constructor
  · rintro ⟨_, _, rfl, n, lowered, hn, m, _, _, ⟨hs, rfl, -, rfl⟩, _, _, rfl, limit, _, ⟨hl, rfl⟩,
      catalog', built, hb, node', _, hp, ⟨rfl, rfl⟩, rfl⟩
    exact ⟨limit, _, _, built, hl, ⟨n, lowered, hn, hs, rfl, rfl⟩, hb, hp⟩
  · rintro ⟨limit, _, _, built, hl, ⟨n, lowered, hn, hs, rfl, rfl⟩, hb, hp⟩
    exact ⟨(), _, rfl, n, lowered, hn, _, _, _, ⟨hs, rfl, rfl, rfl⟩, (), _, rfl, limit, _,
      ⟨hl, rfl⟩, catalog, built, hb, node, _, hp, ⟨rfl, rfl⟩, rfl⟩

theorem convert_eq_ok_iff {r : Conversion} :
    c.convert root theme ds modes = .ok r ↔
      ∃ tokens node catalog after library, c.buildTokens theme modes = .ok tokens ∧
        (c.convertTree tokens root ds).Yields {} (node, catalog) after ∧
        Library.ofCatalog c.libraryName c.libraryVersion catalog = .ok library ∧
        r = { root := node, components := catalog.map (·.component), library, tokens
              statistics := .collect root node catalog.length tokens
              diagnostics := after.diagnostics } := by
  unfold convert Yields
  cases c.buildTokens theme modes with
  | error fault => simp [bind, Except.bind]
  | ok tokens =>
    rcases hr : runFrom {} (c.convertTree tokens root ds) with ⟨fault | ⟨node, catalog⟩, after⟩
    · simp [bind, Except.bind, hr]
    · cases hl : Library.ofCatalog c.libraryName c.libraryVersion catalog with
      | error fault => simp_all [bind, Except.bind]
      | ok library =>
        simp [bind, Except.bind, hr, hl, pure, Except.pure, eq_comm]

theorem labels_widgetId {w : Widget} {n : Node}
    (h : n.labels Node.origin = w.labels Widget.origin) :
    n.labels Node.widgetId = w.labels (fun v => some v.id) := by
  have := congrArg (LabelTree.map Prod.fst) h
  rwa [Node.map_labels, Widget.map_labels] at this

/-- What the last phase of a conversion does to the tree of the first one. -/
theorem places_of_phases {s : Synthesizer} {catalog : Catalog} {r : Resolver}
    (hr : s.resolver = some r) {styled node : Node} {lowered built : Run}
    (hs : (s.lower root).Yields run styled lowered)
    (hp : (catalog.placeInstances (.ofCatalog catalog) root styled).Yields built node after) :
    Catalog.Places (Usages.ofCatalog catalog).get? built styled node after :=
  Catalog.places_of_yields (Usages.within_ofCatalog catalog) root
    (labels_widgetId (Synthesizer.labels_lower hr hs)) hp

/-- The usages of a catalog are the widgets that the reusable widgets list. -/
theorem has_ofCatalog_of_buildAll {s : Synthesizer} {catalog : Catalog}
    (h : (s.buildAll ds).Yields run catalog after) :
    (Usages.ofCatalog catalog).has = fun id => ds.any fun d => d.usageIds.contains id := by
  funext id
  rw [Usages.has_ofCatalog, Synthesizer.definitions_buildAll h]

/-! ## Identifiers -/

/-- **Identifiers are unique.** All nodes of a converted tree, all components, and all nodes of
their bases and variants have identifiers, and no two have the same. -/
theorem nodup_ids_of_convert (c : Converter) (root : Widget) (theme : Option Theme)
    (ds : List Definition) (modes : Entries Theme) (r : Conversion)
    (h : c.convert root theme ds modes = .ok r) :
    (r.root.ids ++ r.components.flatMap Component.ids).Nodup ∧
      none ∉ r.root.ids ++ r.components.flatMap Component.ids := by
  obtain ⟨tokens, node, catalog, after, library, -, hy, -, rfl⟩ := convert_eq_ok_iff.1 h
  obtain ⟨limit, styled, lowered, built, -, hs, hb, hp⟩ := yields_convertTree.1 hy
  obtain ⟨kept, new, hk, hnew, hperm⟩ := (places_of_phases rfl hs hp).ids
  have htree := (Synthesizer.fresh_lower hs).subperm hk.subperm
  have hcatalog := Synthesizer.fresh_buildAll hb
  rw [Run.issued_noting] at hcatalog
  have fresh := (htree.append hcatalog).append hnew
  have perm : (node.ids ++ (catalog.map (·.component)).flatMap Component.ids).Perm
      (kept ++ catalog.ids ++ new) := by
    rw [List.flatMap_map]
    refine (hperm.append_right _).trans ?_
    rw [List.append_assoc, List.append_assoc]
    exact List.Perm.append_left kept List.perm_append_comm
  exact ⟨(fresh.perm perm).nodup, (fresh.perm perm).none_notMem⟩

theorem nodup_ids_of_convert_page :
    let save : Widget := { id := "save", kind := .button, properties := { text := some "Save" } }
    let page : Widget := { id := "page", kind := .column,
                           children := [save, { id := "note", kind := .text }] }
    let large : RecordedVariant := { name := "large", properties := [("size", .text "large")] }
    let button : Definition := { widget := save, name := "Button", variants := [large],
                                 usageIds := ["save"] }
    ∃ r, (⟨{}, .ofNat 4, .text "Library", .text "1"⟩ : Converter).convert page none [button] =
        .ok r ∧
      (r.root.ids ++ r.components.flatMap Component.ids).Nodup ∧
      none ∉ r.root.ids ++ r.components.flatMap Component.ids := by
  intro save page large button
  obtain ⟨r, h⟩ := isOk_iff.1 (by decide +kernel :
    ((⟨{}, .ofNat 4, .text "Library", .text "1"⟩ : Converter).convert page none [button]).isOk)
  exact ⟨r, h, nodup_ids_of_convert _ page none [button] [] r h⟩

/-! ## Usages -/

/-- Without reusable widgets a conversion ends with the tree that it lowered and styled. -/
theorem exists_convert_nil {limit : Count} {styled : Node} {lowered : Run}
    {catalog : Catalog} {library : Library} (ht : c.buildTokens theme modes = .ok tokens)
    (hlimit : Synthesizer.limitOf c.variantLimit = .ok limit)
    (hs : (Synthesizer.lower ⟨limit, some (c.resolver tokens)⟩ root).Yields
      (Run.noting {} (tokenWarnings tokens)) styled lowered)
    (hl : Library.ofCatalog c.libraryName c.libraryVersion catalog = .ok library) :
    ∃ plain, c.convert root theme [] modes = .ok plain ∧ plain.root = styled := by
  obtain ⟨empty, he⟩ := isOk_iff.1 (Library.isOk_ofCatalog_nil (isOk_iff.2 ⟨library, hl⟩))
  have hplain : (c.convertTree tokens root []).Yields {} (styled, [])
      (lowered.noting (unsupportedWarnings root)) :=
    yields_convertTree.2 ⟨limit, styled, lowered, _, hlimit, hs, yields_pure.2 ⟨rfl, rfl⟩,
      Catalog.yields_placeInstances_nil root (Synthesizer.shape_lower rfl hs) _⟩
  exact ⟨_, convert_eq_ok_iff.2 ⟨tokens, styled, [], _, empty, ht, hplain, he, rfl⟩, rfl⟩

/-- **Reusable widgets only put instances in place.** The tree of a conversion is that of the
conversion without reusable widgets, with instances in the place of the topmost usages. A widget
that several reusable widgets list is a usage of the component of the last one. -/
theorem convert_replaces_usages (c : Converter) (root : Widget) (theme : Option Theme)
    (ds : List Definition) (modes : Entries Theme) (r : Conversion)
    (h : c.convert root theme ds modes = .ok r) :
    ∃ plain, c.convert root theme [] modes = .ok plain ∧
      plain.root.Replaced (fun id => (lastListing ds r.components id).map (·.id)) r.root := by
  obtain ⟨tokens, node, catalog, after, library, ht, hy, hl, rfl⟩ := convert_eq_ok_iff.1 h
  obtain ⟨limit, styled, lowered, built, hlimit, hs, hb, hp⟩ := yields_convertTree.1 hy
  have replaced := (places_of_phases rfl hs hp).replaced
  have husages : (Usages.ofCatalog catalog).get? = fun id =>
      (lastListing ds (catalog.map (·.component)) id).map (·.id) := by
    funext id
    rw [Usages.get?_ofCatalog, Synthesizer.definitions_buildAll hb]
  obtain ⟨plain, hplain, rfl⟩ := exists_convert_nil ht hlimit hs hl
  refine ⟨plain, hplain, ?_⟩
  rw [husages] at replaced
  exact replaced

theorem convert_replaces_usages_page :
    let save : Widget := { id := "save", kind := .button, properties := { text := some "Save" } }
    let bar : Widget := { id := "bar", kind := .row, children := [save] }
    let page : Widget := { id := "page", kind := .column, children := [bar, save] }
    let ds : List Definition := [{ widget := save, name := "Plain", usageIds := ["save", "bar"] },
                                 { widget := bar, name := "Bar", usageIds := ["bar"] }]
    ∃ r plain, (⟨{}, .ofNat 4, .text "Library", .text "1"⟩ : Converter).convert page none ds =
        .ok r ∧
      (⟨{}, .ofNat 4, .text "Library", .text "1"⟩ : Converter).convert page none [] = .ok plain ∧
      plain.root.Replaced (fun id => (lastListing ds r.components id).map (·.id)) r.root := by
  intro save bar page ds
  obtain ⟨r, h⟩ := isOk_iff.1 (by decide +kernel :
    ((⟨{}, .ofNat 4, .text "Library", .text "1"⟩ : Converter).convert page none ds).isOk)
  obtain ⟨plain, hplain, replaced⟩ := convert_replaces_usages _ page none ds [] r h
  exact ⟨r, plain, h, hplain, replaced⟩

/-! ## When conversions return -/

/-- In a tree that can be made, the usages of a catalog can be replaced exactly if the topmost ones
ask for shares of the space near which there are doubles. -/
theorem returns_placeInstances_of_buildAll {s : Synthesizer} {catalog : Catalog} {n : Node}
    {mid built : Run} (hr : root.Makeable) (hb : (s.buildAll ds).Yields mid catalog built)
    (hs : n.shape = root.shape) :
    (catalog.placeInstances (.ofCatalog catalog) root n).Returns run ↔
      ∀ v ∈ root.topmost fun id => ds.any fun d => d.usageIds.contains id,
        ∀ flex ∈ v.properties.flex, flex.fitsDouble := by
  rw [Catalog.returns_placeInstances_iff (Usages.within_ofCatalog catalog) root hs,
    has_ofCatalog_of_buildAll hb]
  refine forall_congr' fun v => forall_congr' fun hv => ?_
  exact (hr.of_mem_walk (Widget.mem_walk_of_mem_topmost hv)).instanceable_iff

theorem returns_convertTree_iff {limit : Count} {k : Nat}
    (hl : Synthesizer.limitOf c.variantLimit = .ok limit) (hk : limit.toNat = .ok k) :
    (c.convertTree tokens root ds).Returns run ↔
      root.Makeable ∧ (∀ d ∈ ds, ∀ w ∈ d.made k, w.Makeable) ∧
        ∀ v ∈ root.topmost fun id => ds.any fun d => d.usageIds.contains id,
          ∀ flex ∈ v.properties.flex, flex.fitsDouble := by
  constructor
  · rintro ⟨⟨node, catalog⟩, after, hy⟩
    obtain ⟨limit', styled, lowered, built, hl', hs, hb, hp⟩ := yields_convertTree.1 hy
    obtain rfl : limit' = limit := by simpa [hl'] using hl
    have hroot := (Synthesizer.returns_lower_iff rfl root _).1 ⟨styled, lowered, hs⟩
    refine ⟨hroot, (Synthesizer.returns_buildAll_iff rfl hk ds _).1 ⟨catalog, built, hb⟩, ?_⟩
    exact (returns_placeInstances_of_buildAll hroot hb (Synthesizer.shape_lower rfl hs)).1
      ⟨node, after, hp⟩
  · rintro ⟨hroot, hds, husages⟩
    obtain ⟨styled, lowered, hs⟩ :=
      (Synthesizer.returns_lower_iff (s := ⟨limit, some (c.resolver tokens)⟩) rfl root
        (run.noting (tokenWarnings tokens))).2 hroot
    obtain ⟨catalog, built, hb⟩ :=
      (Synthesizer.returns_buildAll_iff (s := ⟨limit, some (c.resolver tokens)⟩) rfl hk ds
        (lowered.noting (unsupportedWarnings root))).2 hds
    obtain ⟨node, after, hp⟩ :=
      (returns_placeInstances_of_buildAll hroot hb (Synthesizer.shape_lower rfl hs)).2 husages
    exact ⟨(node, catalog), after, yields_convertTree.2
      ⟨limit, styled, lowered, built, hl, hs, hb, hp⟩⟩

end Converter

/-- The input that a conversion can take. The tree and every widget that a component is made of can
be made, the topmost usages ask for shares of space near which there are doubles, and the mean
number of usages of each category is within the doubles. -/
structure Convertible (limit : Nat) (root : Widget) (ds : List Definition) : Prop where
  tree : root.Makeable
  components : ∀ d ∈ ds, ∀ w ∈ d.made (min limit Synthesizer.ceiling), w.Makeable
  usages : ∀ v ∈ root.topmost fun id => ds.any fun d => d.usageIds.contains id,
    ∀ flex ∈ v.properties.flex, flex.fitsDouble
  means : ∀ category : Category, (LibrarySection.averageUsage?
    ((ds.filter (·.category = category)).map (·.usageCount))).isOk = true

/-- What there is to say about the tokens, the tree, and all widgets that components are made of is
among the diagnostics of a conversion. -/
structure Conversion.Reports (r : Conversion) (config : StyleConfig) (limit : Nat) (root : Widget)
    (ds : List Definition) : Prop where
  tokens : Converter.tokenWarnings r.tokens ⊆ r.diagnostics
  unsupported : Converter.unsupportedWarnings root ⊆ r.diagnostics
  tree : Resolver.Reported ⟨r.tokens, config⟩ r.diagnostics root
  components : ∀ d ∈ ds, Synthesizer.ReportedFor ⟨r.tokens, config⟩
    (min limit Synthesizer.ceiling) r.diagnostics d

namespace Converter

/-- A conversion reports what its phases recorded. -/
theorem reports_of_convert {config : StyleConfig} {limit : Nat} {name version : Value}
    {root : Widget} {theme : Option Theme} {ds : List Definition} {modes : Entries Theme}
    {r : Conversion}
    (h : (⟨config, .ofNat limit, name, version⟩ : Converter).convert root theme ds modes = .ok r) :
    r.Reports config limit root ds := by
  obtain ⟨tokens, node, catalog, after, library, -, hy, -, rfl⟩ := convert_eq_ok_iff.1 h
  obtain ⟨count, styled, lowered, built, hl, hs, hb, hp⟩ := yields_convertTree.1 hy
  have hk : count.toNat = .ok (min limit Synthesizer.ceiling) := by
    rw [Synthesizer.limitOf_ofNat, Except.ok.injEq] at hl
    rw [← hl, Count.toNat_ofNat]
  have tree := Synthesizer.reported_of_lower rfl hs
  obtain ⟨grown, components⟩ := Synthesizer.reported_of_buildAll rfl hk hb
  have hlast : after.diagnostics = built.diagnostics := (places_of_phases rfl hs hp).diagnostics
  have hfirst := (Synthesizer.noted_of_lower hs).subset
  have hlowered : lowered.diagnostics ⊆ built.diagnostics := fun x hx =>
    grown (List.mem_append_left _ hx)
  constructor
  · rw [hlast]
    exact fun x hx => hlowered (hfirst (List.mem_append_left _ (List.mem_append_right _ hx)))
  · rw [hlast]
    exact fun x hx => grown (List.mem_append_right _ hx)
  · rw [hlast]
    exact tree.mono hlowered
  · rw [hlast]
    exact components

/-- **When conversions return.** A conversion returns, and reports what there is to say about its
input, exactly if it can take the input. So it does not for a text or an image with children, nor
where an integer that becomes a double is beyond the doubles. -/
theorem convert_reports_iff (config : StyleConfig) (limit : Nat) (name version : Text)
    (root : Widget) (theme : Option Theme) (ds : List Definition) (modes : Entries Theme) :
    (∃ r, (⟨config, .ofNat limit, .text name, .text version⟩ : Converter).convert root theme ds
        modes = .ok r ∧ r.Reports config limit root ds) ↔
      Convertible limit root ds := by
  have hk : ((min limit Synthesizer.ceiling : Nat) : Count).toNat =
      .ok (min limit Synthesizer.ceiling) := Count.toNat_ofNat _
  constructor
  · rintro ⟨r, h, -⟩
    obtain ⟨tokens, node, catalog, after, library, -, hy, hlib, -⟩ := convert_eq_ok_iff.1 h
    obtain ⟨tree, components, usages⟩ :=
      (returns_convertTree_iff (Synthesizer.limitOf_ofNat limit) hk).1 ⟨_, after, hy⟩
    obtain ⟨_, _, _, _, -, -, hb, -⟩ := yields_convertTree.1 hy
    refine ⟨tree, components, usages, ?_⟩
    have hok := isOk_iff.2 ⟨library, hlib⟩
    rw [Library.isOk_ofCatalog, Bool.and_eq_true, Library.isOk_sectionsOf_iff,
      Synthesizer.definitions_buildAll hb] at hok
    exact hok.1
  · rintro ⟨tree, components, usages, means⟩
    obtain ⟨tokens, ht⟩ := isOk_iff.1 (isOk_buildTokens
      ⟨config, .ofNat limit, .text name, .text version⟩ theme modes)
    have returns : ((⟨config, .ofNat limit, .text name, .text version⟩ : Converter).convertTree
        tokens root ds).Returns {} :=
      (returns_convertTree_iff (Synthesizer.limitOf_ofNat limit) hk).2 ⟨tree, components, usages⟩
    obtain ⟨⟨node, catalog⟩, after, hy⟩ := returns
    obtain ⟨_, _, _, _, -, -, hb, -⟩ := yields_convertTree.1 hy
    obtain ⟨library, hlib⟩ : ∃ library,
        Library.ofCatalog (.text name) (.text version) catalog = .ok library := by
      rw [← isOk_iff, Library.isOk_ofCatalog, Bool.and_eq_true, Library.isOk_sectionsOf_iff,
        Synthesizer.definitions_buildAll hb]
      exact ⟨means, rfl⟩
    have h := convert_eq_ok_iff.2 ⟨tokens, node, catalog, after, library, ht, hy, hlib, rfl⟩
    exact ⟨_, h, reports_of_convert h⟩

/-- A text with a child is no input of a conversion: styling meets a widget without a node. -/
theorem convert_text_with_child :
    let mark : Widget := { id := "mark", kind := .text }
    let label : Widget := { id := "label", kind := .text, properties := { data := some "Hi" },
                            children := [mark] }
    (⟨{}, .ofNat 16, .text "Library", .text "1.0.0"⟩ : Converter).convert label =
      .error .childrenMissing := by
  rfl

end Converter

end DesignTree
