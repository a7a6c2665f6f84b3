import DesignTree.Component.Instance
import DesignTree.Proofs.Data.Grouping
import DesignTree.Proofs.Variant.Synthesis

/-! # Building a catalog

Components are built one after the other, each from the widgets that its variants and its base are
made of. All identifiers that this draws are fresh together (`fresh_buildAll`), the building returns
exactly if all these widgets can be made (`returns_buildAll_iff`), and what there is to say about
them is recorded (`reported_of_buildAll`). The catalog has the reusable widgets in their order, and
finds each component by its identifier.
-/

namespace DesignTree

/-- The identifier of a component and those of all its nodes. -/
def Component.ids (c : Component) : List (Option Text) := some c.id :: c.nodeSpecs.flatMap Node.ids

/-- The identifiers of a catalog. -/
def Catalog.ids (c : Catalog) : List (Option Text) := c.flatMap (·.component.ids)

open InRun

theorem hasNumber_componentId (name : Text) (n : Nat) :
    HasNumber (Component.idStem name ++ (n.repr : Text)) n := by
  refine hasNumber_append (c := '-') ?_ (by decide) n
  rw [Component.idStem, Text.toList_append]
  exact List.getLast?_append_of_ne_nil _ (by decide)

theorem ids_asComponent (n : Node) (name description : Text) :
    (n.asComponent name description).ids = n.ids := by
  rw [Node.ids_eq, Node.ids_eq]
  rfl

namespace Synthesizer

variable {s : Synthesizer} {d : Definition} {ds : List Definition} {run after : Run}

/-! ## One component -/

theorem yields_build {c : Component} :
    (s.build d).Yields run c after ↔
      ∃ vs made base based, (s.variants d).Yields run vs made ∧
        (s.lower d.widget).Yields made base based ∧ after = based.counting ∧
        c = {
          id := Component.idStem d.componentName ++ ((based.issued + 1).repr : Text)
          name := d.componentName
          description := d.describe vs.length d.switches.length
          variants := vs
          properties := d.switches
          nodeSpec := base.asComponent d.componentName (d.describe vs.length d.switches.length)
          baseWidgetId := d.widget.id
          sourceName := d.name } := by
  unfold build
  simp only [yields_bind, yields_nextId, yields_pure]
  constructor
  · rintro ⟨vs, made, hv, base, based, hb, _, _, ⟨rfl, rfl⟩, rfl, rfl⟩
    exact ⟨vs, made, base, based, hv, hb, rfl, rfl⟩
  · rintro ⟨vs, made, base, based, hv, hb, rfl, rfl⟩
    exact ⟨vs, made, hv, base, based, hb, _, _, ⟨rfl, rfl⟩, rfl, rfl⟩

theorem name_of_build {c : Component} (h : (s.build d).Yields run c after) :
    c.name = d.componentName := by
  obtain ⟨_, _, _, _, -, -, -, rfl⟩ := yields_build.1 h
  rfl

theorem properties_of_build {c : Component} (h : (s.build d).Yields run c after) :
    c.properties = d.switches := by
  obtain ⟨_, _, _, _, -, -, -, rfl⟩ := yields_build.1 h
  rfl

/-- The identifiers that building a component draws: those of its variants, of its base, and at
last its own. -/
theorem fresh_build {c : Component} (h : (s.build d).Yields run c after) :
    Fresh run.issued after.issued c.ids := by
  obtain ⟨vs, made, base, based, hv, hb, rfl, rfl⟩ := yields_build.1 h
  have fresh := ((fresh_variants hv).append (fresh_lower hb)).append
    (.singleton (hasNumber_componentId d.componentName (based.issued + 1)))
  refine fresh.perm ?_
  simp only [Component.ids, Component.nodeSpecs, List.flatMap_append, List.flatMap_map,
    Option.toList_some, List.flatMap_singleton, ids_asComponent]
  exact (List.perm_append_singleton _ _).symm

/-- What there is to say about all widgets that a component is made of is among `es`. -/
def ReportedFor (r : Resolver) (k : Nat) (es : Diagnostics) (d : Definition) : Prop :=
  r.Reported es d.widget ∧ ∀ c ∈ d.configurations k, Reported r d es c

theorem ReportedFor.mono {r : Resolver} {k : Nat} {es fs : Diagnostics} (h : ReportedFor r k es d)
    (hs : es ⊆ fs) : ReportedFor r k fs d :=
  ⟨h.1.mono hs, fun c hc => (h.2 c hc).mono hs⟩

theorem reported_of_build {r : Resolver} (hr : s.resolver = some r) {k : Nat}
    (hk : s.limit.toNat = .ok k) {c : Component} (h : (s.build d).Yields run c after) :
    run.diagnostics ⊆ after.diagnostics ∧ ReportedFor r k after.diagnostics d := by
  obtain ⟨vs, made, base, based, hv, hb, rfl, -⟩ := yields_build.1 h
  obtain ⟨hs, hc⟩ := reported_of_variants hr hk hv
  have grown := grown_of_lower hb
  rw [Run.diagnostics_counting]
  exact ⟨List.Subset.trans hs grown, reported_of_lower hr hb, fun c hm => (hc c hm).mono grown⟩

theorem returns_build_iff {r : Resolver} (hr : s.resolver = some r) {k : Nat}
    (hk : s.limit.toNat = .ok k) (d : Definition) (run : Run) :
    (s.build d).Returns run ↔ ∀ w ∈ d.made k, w.Makeable := by
  rw [← returns_variants_and_base_iff hr hk d run]
  refine returns_bind_of fun vs made _ => ?_
  simp only
  rw [returns_bind_of (p := True), returns_lower_iff hr, and_true]
  intro base based _
  rw [bind_pure_comp, returns_map, iff_true]
  exact returns_nextId _

/-! ## All components -/

theorem buildAll_eq_mapM (s : Synthesizer) (ds : List Definition) :
    s.buildAll ds = ds.mapM fun d => BuiltComponent.mk d <$> s.build d := by
  induction ds with
  | nil => rfl
  | cons d rest ih => rw [buildAll, List.mapM_cons, ih, bind_map_left]

/-- The catalog of more reusable widgets begins with the catalog of the first ones. -/
theorem yields_buildAll_append {es : List Definition} {c : Catalog} :
    (s.buildAll (ds ++ es)).Yields run c after ↔
      ∃ first mid others, (s.buildAll ds).Yields run first mid ∧
        (s.buildAll es).Yields mid others after ∧ c = first ++ others := by
  rw [buildAll_eq_mapM, buildAll_eq_mapM, buildAll_eq_mapM]
  exact yields_mapM_append

/-- All identifiers of a catalog that is built are fresh together. -/
theorem fresh_buildAll {c : Catalog} (h : (s.buildAll ds).Yields run c after) :
    Fresh run.issued after.issued c.ids := by
  rw [buildAll_eq_mapM] at h
  refine fresh_mapM (fun d _ run b after hy => ?_) h
  obtain ⟨component, hc, rfl⟩ := yields_map.1 hy
  exact fresh_build hc

theorem reported_of_buildAll {r : Resolver} (hr : s.resolver = some r) {k : Nat}
    (hk : s.limit.toNat = .ok k) {c : Catalog} (h : (s.buildAll ds).Yields run c after) :
    run.diagnostics ⊆ after.diagnostics ∧ ∀ d ∈ ds, ReportedFor r k after.diagnostics d := by
  rw [buildAll_eq_mapM] at h
  refine recorded_mapM (p := fun d es => ReportedFor r k es d) ?_ ?_ h
  · exact fun d es fs hs hd => hd.mono hs
  · intro d _ run b after hy
    obtain ⟨component, hc, -⟩ := yields_map.1 hy
    exact reported_of_build hr hk hc

/-- A catalog is built exactly if all widgets that its components are made of can be made. -/
theorem returns_buildAll_iff {r : Resolver} (hr : s.resolver = some r) {k : Nat}
    (hk : s.limit.toNat = .ok k) (ds : List Definition) (run : Run) :
    (s.buildAll ds).Returns run ↔ ∀ d ∈ ds, ∀ w ∈ d.made k, w.Makeable := by
  rw [buildAll_eq_mapM]
  refine returns_mapM fun d _ run => ?_
  rw [returns_map, returns_build_iff hr hk]

/-- A catalog has a component for each of the reusable widgets that it was built from, in their
order. -/
theorem forall₂_buildAll {c : Catalog} (h : (s.buildAll ds).Yields run c after) :
    List.Forall₂ (fun d b => b.definition = d ∧
      ∃ before behind, (s.build d).Yields before b.component behind) ds c := by
  rw [buildAll_eq_mapM] at h
  induction ds generalizing run c with
  | nil =>
    rw [(yields_mapM_nil.1 h).1]
    exact .nil
  | cons d rest ih =>
    obtain ⟨b, mid, others, hb, ho, rfl⟩ := yields_mapM_cons.1 h
    obtain ⟨component, hc, rfl⟩ := yields_map.1 hb
    exact .cons ⟨rfl, run, mid, hc⟩ (ih ho)

theorem definitions_buildAll {c : Catalog} (h : (s.buildAll ds).Yields run c after) :
    c.map (·.definition) = ds := by
  have built := (forall₂_buildAll h).flip.imp fun b d hb => hb.1
  exact (map_eq_of_forall₂ built).trans (List.map_id ds)

/-- What holds of all trees that are made, also under the name of a component, holds of the trees
of a catalog. -/
theorem forall_nodeSpecs_of_buildAll {p : Node → Prop}
    (hp : ∀ w run m after, (s.lower w).Yields run m after → p m)
    (hc : ∀ n name description, p n → p (n.asComponent name description)) {c : Catalog}
    (h : (s.buildAll ds).Yields run c after) : ∀ b ∈ c, ∀ n ∈ b.component.nodeSpecs, p n := by
  intro b hb
  obtain ⟨d, -, -, before, behind, hy⟩ := exists_of_mem_forall₂ (forall₂_buildAll h) hb
  obtain ⟨vs, made, base, based, hv, hbase, -, component⟩ := yields_build.1 hy
  have variants := forall_nodeSpec_of_variants hp hv
  have base := hc base d.componentName (d.describe vs.length d.switches.length) (hp _ _ _ _ hbase)
  rw [component, Component.nodeSpecs]
  refine List.forall_mem_append.2 ⟨List.forall_mem_map.2 variants, ?_⟩
  exact List.forall_mem_singleton.2 base

end Synthesizer

/-! ## Finding components -/

namespace Catalog

variable {c : Catalog} {b : BuiltComponent}

theorem exists_byId?_of_mem (h : b ∈ c) : ∃ found ∈ c,
    c.byId? b.component.id = some found ∧ found.component.id = b.component.id := by
  have hs : (c.byId? b.component.id).isSome := by
    rw [byId?, List.find?_isSome]
    exact ⟨b, h, beq_self_eq_true _⟩
  obtain ⟨found, hf⟩ := Option.isSome_iff_exists.1 hs
  exact ⟨found, List.mem_of_find?_eq_some hf, hf, by simpa using List.find?_some hf⟩

/-- The identifier of a component of a catalog finds a component with it. -/
theorem get_of_mem (h : b ∈ c) :
    ∃ found ∈ c, c.get b.component.id = .ok found ∧ found.component.id = b.component.id := by
  obtain ⟨found, hm, hf, same⟩ := exists_byId?_of_mem h
  refine ⟨found, hm, ?_, same⟩
  rw [get, find?, hf]
  rfl

end Catalog

end DesignTree
