import DesignTree.Proofs.Conversion.Append
import DesignTree.Proofs.Data.Replacement
import Mathlib.Algebra.Ring.Int.Defs

/-! # Finding components by their keys

A catalog grows by one component with each call that returns, and stays what it is where a call ends
in a fault (`Synthesizer.Assembled`). The run may go on in between, so that all that is left of the
history is the number of identifiers issued, none of which comes twice. From this one invariant
(`Synthesizer.Assembled.fresh`) follows what each key leads to (`Catalog.Consistent`): identifiers
to their own components, other names to the earliest components that have them, and all other keys
nowhere.

Searching the catalog comes to the same as looking a key up in three tables that are kept as the
catalog grows (`Catalog.component?_index`).
-/

namespace DesignTree

open InRun

/-! ## Histories of a catalog -/

/-- A catalog and a run that one synthesizer may have come to. -/
inductive Synthesizer.Assembled (s : Synthesizer) : Catalog → Run → Prop
  /-- Nothing is built yet, in a run that may have been used before. -/
  | empty (run : Run) : Assembled s [] run
  /-- A component is built into the catalog. -/
  | built {c c' : Catalog} {d : Definition} {run after : Run} :
    Assembled s c run → (s.addTo c d).Yields run c' after → Assembled s c' after
  /-- The building of a component ends in a fault. -/
  | failed {c : Catalog} {d : Definition} {run after : Run} {fault : Fault} :
    Assembled s c run → runFrom run (s.addTo c d) = (.error fault, after) → Assembled s c after
  /-- The run is used for something else, and has issued no fewer identifiers after it. -/
  | elsewhere {c : Catalog} {run after : Run} :
    Assembled s c run → run.issued ≤ after.issued → Assembled s c after

namespace Synthesizer

variable {s : Synthesizer} {c c' : Catalog} {d : Definition} {run after : Run}

theorem yields_addTo :
    (s.addTo c d).Yields run c' after ↔
      ∃ component, (s.build d).Yields run component after ∧ c' = c ++ [⟨d, component⟩] := by
  unfold addTo
  rw [bind_pure_comp, yields_map]

theorem composed_addTo (s : Synthesizer) (c : Catalog) (d : Definition) :
    (s.addTo c d).Composed := (s.composed_build d).bind fun _ => composed_pure _

theorem fresh_id_of_build {component : Component} (h : (s.build d).Yields run component after) :
    Fresh run.issued after.issued [some component.id] := by
  refine (fresh_build h).subperm (List.Sublist.subperm ?_)
  exact List.singleton_sublist.2 List.mem_cons_self

namespace Assembled

/-- The identifiers of a catalog are distinct, and the run has counted each of them. -/
theorem fresh (h : s.Assembled c run) :
    Fresh 0 run.issued (c.map fun b => some b.component.id) := by
  induction h with
  | empty run => exact .nil (Nat.zero_le _)
  | built _ hy ih =>
    obtain ⟨component, hb, rfl⟩ := yields_addTo.1 hy
    rw [List.map_append]
    exact ih.append (fresh_id_of_build hb)
  | @failed c d run after _ _ hf ih =>
    have counted := (s.composed_addTo c d).issued_le run
    rw [hf] at counted
    simpa using ih.append (.nil counted)
  | elsewhere _ counted ih => simpa using ih.append (.nil counted)

/-- Each component of a catalog was built from the reusable widget that is kept beside it. -/
theorem forall_built (h : s.Assembled c run) :
    ∀ b ∈ c, ∃ before behind, (s.build b.definition).Yields before b.component behind := by
  induction h with
  | empty run => exact fun b hb => absurd hb List.not_mem_nil
  | @built _ _ d run after _ hy ih =>
    obtain ⟨component, hb, rfl⟩ := yields_addTo.1 hy
    exact List.forall_mem_append.2 ⟨ih, List.forall_mem_singleton.2 ⟨run, after, hb⟩⟩
  | failed _ _ ih => exact ih
  | elsewhere _ _ ih => exact ih

theorem nodup_ids (h : s.Assembled c run) : (c.map (·.component.id)).Nodup := by
  have distinct := h.fresh.nodup
  rw [← Function.comp_def some, ← List.map_map] at distinct
  exact distinct.of_map some

end Assembled

end Synthesizer

/-! ## Searching a catalog -/

namespace Catalog

variable {c : Catalog} {b : BuiltComponent} {key : Text}

theorem get_eq_ok_iff : c.get key = .ok b ↔ c.find? key = some b := by
  rw [get]
  cases c.find? key <;> simp

theorem byId?_of_mem (distinct : (c.map (·.component.id)).Nodup) (h : b ∈ c) :
    c.byId? b.component.id = some b := by
  obtain ⟨found, hm, hf, same⟩ := exists_byId?_of_mem h
  rw [hf, List.inj_on_of_nodup_map distinct hm h same]

theorem find?_of_byId? (h : c.byId? key = some b) : c.find? key = some b := by
  rw [find?, h]
  rfl

theorem find?_of_byId?_none (h : c.byId? key = none) : c.find? key = c.byName? key := by
  rw [find?, h]
  rfl

theorem mem_of_find? (h : c.find? key = some b) : b ∈ c := by
  cases hid : c.byId? key with
  | some a =>
    rw [find?_of_byId? hid, Option.some.injEq] at h
    exact h ▸ List.mem_of_find?_eq_some hid
  | none =>
    rw [find?_of_byId?_none hid] at h
    exact List.mem_of_find?_eq_some h

theorem byId?_eq_none_iff : c.byId? key = none ↔ ∀ b ∈ c, b.component.id ≠ key := by
  simp [byId?]

theorem byName?_eq_none_iff : c.byName? key = none ↔ ∀ b ∈ c, b.component.name ≠ key := by
  simp [byName?]

/-! ## Looking up tables -/

/-- What has been built, in tables: by their identifiers the components and the reusable widgets,
and by the names of the components their identifiers. -/
structure Index where
  components : Entries Component := []
  ids : Entries Text := []
  definitions : Entries Definition := []

namespace Index

/-- The tables with one component more. What is under its identifier is replaced, and what is under
its name stays. -/
def add (t : Index) (b : BuiltComponent) : Index where
  components := t.components.set b.component.id b.component
  ids := t.ids.setDefault b.component.name b.component.id
  definitions := t.definitions.set b.component.id b.definition

/-- The component that a key stands for, first as an identifier and then as a name. -/
def component? (t : Index) (key : Text) : Option Component :=
  (if t.components.has key then some key else t.ids.get? key).bind t.components.get?

/-- The reusable widget of the component that a key stands for. -/
def definition? (t : Index) (key : Text) : Option Definition :=
  (t.component? key).bind fun c => t.definitions.get? c.id

end Index

/-- The tables of a catalog, as they are after its components came one by one. -/
def index (c : Catalog) : Index := c.foldl Index.add {}

theorem components_index (distinct : (c.map (·.component.id)).Nodup) (id : Text) :
    c.index.components.get? id = (c.byId? id).map (·.component) := by
  have table : c.index.components =
      c.foldl (fun es b => Entries.set es b.component.id b.component) [] :=
    (List.foldl_hom Index.components fun _ _ => rfl).symm
  rw [table]
  exact Entries.get?_foldl_set_of_nodup distinct

theorem definitions_index (distinct : (c.map (·.component.id)).Nodup) (id : Text) :
    c.index.definitions.get? id = (c.byId? id).map (·.definition) := by
  have table : c.index.definitions =
      c.foldl (fun es b => Entries.set es b.component.id b.definition) [] :=
    (List.foldl_hom Index.definitions fun _ _ => rfl).symm
  rw [table]
  exact Entries.get?_foldl_set_of_nodup distinct

/-- A name stays with the component that had it first. -/
theorem ids_index (c : Catalog) (name : Text) :
    c.index.ids.get? name = (c.byName? name).map (·.component.id) := by
  induction c using List.reverseRecOn with
  | nil => rfl
  | append_singleton c b ih =>
    have step : index (c ++ [b]) = (index c).add b := List.foldl_append
    rw [step, byName?, List.find?_append]
    show ((index c).ids.setDefault b.component.name b.component.id).get? name =
      ((byName? c name).or ([b].find? fun b => b.component.name == name)).map _
    by_cases hn : b.component.name = name
    · subst hn
      rw [Entries.setDefault, Entries.has, ih]
      cases hf : byName? c b.component.name with
      | some a => simp [ih, hf]
      | none => simp [Entries.get?_set_self]
    · have kept : ((index c).ids.setDefault b.component.name b.component.id).get? name =
          (index c).ids.get? name := by
        rw [Entries.setDefault]
        split
        · rfl
        · exact Entries.get?_set_of_ne _ (Ne.symm hn) _
      rw [kept, ih]
      simp [hn]

/-- The tables lead each key to the component that the search finds. -/
theorem component?_index (distinct : (c.map (·.component.id)).Nodup) (key : Text) :
    c.index.component? key = (c.find? key).map (·.component) := by
  rw [Index.component?, Entries.has, components_index distinct, ids_index]
  cases hid : c.byId? key with
  | some b => simp [components_index distinct, hid, find?_of_byId? hid]
  | none =>
    rw [find?_of_byId?_none hid]
    cases hname : c.byName? key with
    | none => rfl
    | some b =>
      have own := byId?_of_mem distinct (List.mem_of_find?_eq_some hname)
      simp [components_index distinct, own]

theorem definition?_index (distinct : (c.map (·.component.id)).Nodup) (key : Text) :
    c.index.definition? key = (c.find? key).map (·.definition) := by
  rw [Index.definition?, component?_index distinct]
  cases hf : c.find? key with
  | none => rfl
  | some b =>
    simp [definitions_index distinct, byId?_of_mem distinct (mem_of_find? hf)]

/-! ## What keys lead to -/

/-- A catalog in which the components were built by a synthesizer from the reusable widgets beside
them, and each key leads to one component or to none. -/
structure Consistent (s : Synthesizer) (c : Catalog) : Prop where
  /-- No two components have one identifier. -/
  distinct : (c.map (·.component.id)).Nodup
  /-- Components stand beside the reusable widgets that they were built from. -/
  built : ∀ b ∈ c, ∃ run after, (s.build b.definition).Yields run b.component after
  /-- An identifier leads to its component. -/
  byId : ∀ b ∈ c, c.get b.component.id = .ok b
  /-- A name that is no identifier leads to the earliest component of the name. -/
  byName : ∀ (before : Catalog) (b : BuiltComponent) (after : Catalog), c = before ++ b :: after →
    (∀ a ∈ before, a.component.name ≠ b.component.name) →
    (∀ a ∈ c, a.component.id ≠ b.component.name) → c.get b.component.name = .ok b
  /-- Any other key is not found. -/
  unknown : ∀ key, (∀ b ∈ c, b.component.id ≠ key ∧ b.component.name ≠ key) →
    c.get key = .error (.design (.componentNotFound key))
  /-- An instance under a key that leads to a component is made exactly if the lengths of the usage
  have doubles near them, and it refers to that component. -/
  instances : ∀ key b, c.get key = .ok b → ∀ (usage : Widget) (run : Run),
    ((c.instantiate usage key).Returns run ↔ usage.instanceable = true) ∧
      ∀ n after, (c.instantiate usage key).Yields run n after →
        n.kind = .componentInstance ∧ n.properties.componentId = some b.component.id
  /-- The search comes to the same as the tables. -/
  indexed : ∀ key, c.index.component? key = (c.get key).toOption.map (·.component) ∧
    c.index.definition? key = (c.get key).toOption.map (·.definition)

theorem toOption_get (c : Catalog) (key : Text) : (c.get key).toOption = c.find? key := by
  rw [get]
  cases c.find? key <;> rfl

theorem get_of_first {before after : Catalog} (hc : c = before ++ b :: after)
    (first : ∀ a ∈ before, a.component.name ≠ b.component.name)
    (noId : ∀ a ∈ c, a.component.id ≠ b.component.name) : c.get b.component.name = .ok b := by
  rw [get_eq_ok_iff, find?_of_byId?_none (byId?_eq_none_iff.2 noId)]
  refine List.find?_eq_some_iff_append.2 ⟨beq_self_eq_true _, before, after, hc, fun a ha => ?_⟩
  simpa using first a ha

theorem get_of_unknown (h : ∀ b ∈ c, b.component.id ≠ key ∧ b.component.name ≠ key) :
    c.get key = .error (.design (.componentNotFound key)) := by
  have noId : c.byId? key = none := byId?_eq_none_iff.2 fun b hb => (h b hb).1
  have noName : c.byName? key = none := byName?_eq_none_iff.2 fun b hb => (h b hb).2
  rw [get, find?_of_byId?_none noId, noName]

theorem refers_of_instantiate {usage : Widget} {run after : Run} {n : Node}
    (hb : c.get key = .ok b) (h : (c.instantiate usage key).Yields run n after) :
    n.kind = .componentInstance ∧ n.properties.componentId = some b.component.id := by
  obtain ⟨p, hp, -, rfl⟩ := (yields_instantiate_of_get hb).1 h
  exact ⟨rfl, BuiltComponent.componentId_of_instanceProperties hp⟩

end Catalog

namespace Synthesizer

/-- **Which components the keys of a catalog lead to.** However a catalog was assembled, it is
consistent: its identifiers are distinct, they lead to the components that have them and to the
reusable widgets that these were built from, other names lead to the earliest components that have
them, and all other keys to none. Where a key leads to a component, an instance of a usage refers to
that component, and is made exactly if the width, the height and the share of the usage have
doubles near them. -/
theorem consistent_of_assembled {s : Synthesizer} {c : Catalog} {run : Run}
    (h : s.Assembled c run) : c.Consistent s where
  distinct := h.nodup_ids
  built := h.forall_built
  byId b hb :=
    Catalog.get_eq_ok_iff.2 (Catalog.find?_of_byId? (Catalog.byId?_of_mem h.nodup_ids hb))
  byName _ _ _ hc first noId := Catalog.get_of_first hc first noId
  unknown _ other := Catalog.get_of_unknown other
  instances _ _ hb _ _ :=
    ⟨Catalog.returns_instantiate_iff hb, fun _ _ made => Catalog.refers_of_instantiate hb made⟩
  indexed key := by
    rw [Catalog.toOption_get]
    exact ⟨Catalog.component?_index h.nodup_ids key, Catalog.definition?_index h.nodup_ids key⟩

/-- Two components of one name, and between them one whose building ends in a fault. -/
theorem consistent_of_assembled_panes :
    let pane : Definition := { widget := { id := "pane", kind := .container }, name := "Pane" }
    let label : Widget := { id := "label", kind := .text, children := [pane.widget] }
    let torn : Definition := { widget := label, name := "Pane" }
    let s : Synthesizer := { resolver := some {} }
    ∃ c run, s.Assembled c run ∧ ¬(s.build torn).Returns run ∧
      c.map (·.component.name) = ["Pane", "Pane"] ∧ c.Consistent s := by
  intro pane label torn s
  have made (run : Run) : (s.build pane).Returns run := by
    rw [returns_build_iff (r := {}) rfl (k := 16) rfl]
    unfold Widget.Makeable
    decide +kernel
  have tears (run : Run) : ¬(s.build torn).Returns run := by
    rw [returns_build_iff (r := {}) rfl (k := 16) rfl]
    intro all
    exact absurd (all _ List.mem_cons_self) (by unfold Widget.Makeable; decide +kernel)
  obtain ⟨first, mid, hf⟩ := made {}
  have one : s.Assembled [⟨pane, first⟩] mid := .built (.empty {}) (yields_addTo.2 ⟨first, hf, rfl⟩)
  have still : s.Assembled [⟨pane, first⟩] (runFrom mid (s.addTo [⟨pane, first⟩] torn)).2 := by
    cases hr : runFrom mid (s.addTo [⟨pane, first⟩] torn) with
    | mk result behind =>
      cases result with
      | error fault => exact one.failed hr
      | ok c =>
        obtain ⟨component, ht, -⟩ := yields_addTo.1 hr
        exact absurd ⟨component, behind, ht⟩ (tears mid)
  obtain ⟨second, after, hs⟩ := made (runFrom mid (s.addTo [⟨pane, first⟩] torn)).2
  have two : s.Assembled [⟨pane, first⟩, ⟨pane, second⟩] after :=
    still.built (yields_addTo.2 ⟨second, hs, rfl⟩)
  refine ⟨_, _, two, tears after, ?_, consistent_of_assembled two⟩
  rw [List.map_cons, List.map_singleton, name_of_build hf, name_of_build hs]
  decide +kernel

/-- No instance is made of a component that is found where the width of the usage has no double near
it. -/
theorem instantiate_beyond_doubles :
    let pane : Definition := { widget := { id := "pane", kind := .container }, name := "Pane" }
    let wide : Widget := {
      id := "wide", kind := .container, properties := { width := some (.int (10 ^ 309)) } }
    let s : Synthesizer := {}
    ∃ c run, (s.addTo [] pane).Yields {} c run ∧ (c.get "Pane").isOk = true ∧
      ¬(c.instantiate wide "Pane").Returns run := by
  intro pane wide s
  obtain ⟨c, run, hc, found⟩ := exists_yields_of_any (by decide +kernel :
    (runFrom {} (s.addTo [] pane)).1.toOption.any (fun c => (c.get "Pane").isOk) = true)
  refine ⟨c, run, hc, found, ?_⟩
  obtain ⟨b, hb⟩ := isOk_iff.1 found
  rw [Catalog.returns_instantiate_iff hb]
  decide +kernel

end Synthesizer

end DesignTree
