import DesignTree.Conversion.Usage
import DesignTree.Proofs.Component.Catalog
import DesignTree.Proofs.Lowering.Size
import DesignTree.Proofs.Tree.Topmost
import Mathlib.Data.List.Induction

/-! # Putting instances in the place of usages

A widget that several reusable widgets list is a usage of the last one of them (`get?_ofCatalog`).
In the tree of nodes the topmost usages become instances without children, and nothing else changes
(`Node.Replaced`). The identifiers of the instances are fresh, and the other ones were there before.
All this is one statement about what `placeInstances` yields (`places_of_yields`), by an induction
over the tree (`placeInstances_induct`); that it returns hangs on the topmost usages alone
(`returns_placeInstances_iff`).
-/

namespace DesignTree

open InRun

/-! ## Usages -/

/-- The component of the last of some reusable widgets that lists a widget. -/
def lastListing (ds : List Definition) (cs : List Component) (id : Text) : Option Component :=
  ((ds.zip cs).reverse.find? fun e => e.1.usageIds.contains id).map (·.2)

theorem lastListing_catalog (c : Catalog) (id : Text) :
    lastListing (c.map (·.definition)) (c.map (·.component)) id =
      (c.reverse.find? fun b => b.definition.usageIds.contains id).map (·.component) := by
  rw [lastListing, List.zip_map', ← List.map_reverse, List.find?_map, Option.map_map]
  rfl

theorem Entries.get?_foldl_set {α : Type} (names : List Text) (value : α) (es : Entries α)
    (name : Text) :
    ((names.map (·, value)).foldl (fun es e => es.set e.1 e.2) es).get? name =
      if names.contains name then some value else es.get? name := by
  induction names generalizing es with
  | nil => rfl
  | cons first rest ih =>
    rw [List.map_cons, List.foldl_cons, ih]
    by_cases hf : name = first
    · simp [hf, Entries.get?_set_self]
    · simp [hf, Entries.get?_set_of_ne _ hf]

/-- A widget is a usage of the last component whose reusable widget lists it. -/
theorem Usages.get?_ofCatalog (c : Catalog) (id : Text) :
    (Usages.ofCatalog c).get? id =
      (lastListing (c.map (·.definition)) (c.map (·.component)) id).map (·.id) := by
  rw [lastListing_catalog]
  induction c using List.reverseRecOn with
  | nil => rfl
  | append_singleton c b ih =>
    unfold ofCatalog at ih ⊢
    rw [List.flatMap_append, List.foldl_append, List.flatMap_singleton, Entries.get?_foldl_set, ih,
      List.reverse_append, List.reverse_singleton, List.singleton_append, List.find?_cons]
    cases b.definition.usageIds.contains id <;> rfl

theorem Usages.has_ofCatalog (c : Catalog) (id : Text) :
    (Usages.ofCatalog c).has id =
      (c.map (·.definition)).any fun d => d.usageIds.contains id := by
  rw [Entries.has, get?_ofCatalog, lastListing_catalog, Option.isSome_map, Option.isSome_map,
    Bool.eq_iff_iff, List.find?_isSome]
  simp

/-- Whatever is a usage is one of a component of a catalog. -/
def Usages.Within (us : Usages) (c : Catalog) : Prop :=
  ∀ id componentId, us.get? id = some componentId →
    ∃ b, c.get componentId = .ok b ∧ b.component.id = componentId

theorem Usages.within_ofCatalog (c : Catalog) : (Usages.ofCatalog c).Within c := by
  intro id componentId h
  rw [get?_ofCatalog, lastListing_catalog, Option.map_map] at h
  obtain ⟨b, hb, rfl⟩ := Option.map_eq_some_iff.1 h
  obtain ⟨found, -, hf, he⟩ :=
    Catalog.get_of_mem (List.mem_reverse.1 (List.mem_of_find?_eq_some hb))
  exact ⟨found, hf, he⟩

/-! ## Instances -/

namespace BuiltComponent

/-- The properties that an instance has before it takes the place of a node. -/
theorem eq_of_instanceProperties {b : BuiltComponent} {w : Widget} {p : NodeProperties}
    (h : b.instanceProperties w = .ok p) :
    p = { width := w.properties.width.map Number.asLength
          height := w.properties.height.map Number.asLength
          layoutGrow := (w.properties.flex.filter (!·.isZero)).map Number.asLength
          visible := some true
          locked := some false
          componentId := some b.component.id
          overrides := some (b.definition.overrides w) } := by
  unfold instanceProperties at h
  rw [orFault_eq_ok_iff, Decoded.seq_eq_ok_iff] at h
  obtain ⟨g, grow, hg, hgrow, rfl⟩ := h
  rw [Decoded.seq_eq_ok_iff] at hg
  obtain ⟨f, height, hf, hheight, rfl⟩ := hg
  cases hwidth : lengthIfAny "width" w.properties.width with
  | failed issues =>
    rw [hwidth] at hf
    cases hf
  | ok width =>
    rw [hwidth] at hf
    cases hf
    rw [← lengthIfAny_eq_ok hwidth, ← lengthIfAny_eq_ok hheight, ← lengthIfAny_eq_ok hgrow]

theorem componentId_of_instanceProperties {b : BuiltComponent} {w : Widget} {p : NodeProperties}
    (h : b.instanceProperties w = .ok p) : p.componentId = some b.component.id := by
  rw [eq_of_instanceProperties h]

theorem isOk_instanceProperties (b : BuiltComponent) (w : Widget) :
    (b.instanceProperties w).isOk =
      (w.properties.width.all Number.fitsDouble && w.properties.height.all Number.fitsDouble &&
        (w.properties.flex.filter (!·.isZero)).all Number.fitsDouble) := by
  simp [instanceProperties]

end BuiltComponent

/-! ## Replacing usages -/

/-- A node tree with instances in the place of its topmost usages. `U` has the components of which
widgets are usages. -/
inductive Node.Replaced (U : Text → Option Text) : Node → Node → Prop
  | usage {n : Node} {widgetId componentId id name : Text} {properties : NodeProperties} :
    n.widgetId = some widgetId → U widgetId = some componentId →
    properties.componentId = some componentId →
    Replaced U n { id, kind := .componentInstance, name, properties, widgetId }
  | other {n : Node} {widgetId : Text} {children : List Node} :
    n.widgetId = some widgetId → U widgetId = none →
    List.Forall₂ (Replaced U) n.children children → Replaced U n { n with children }

namespace Catalog

/-- What comes of putting instances in the place of usages: the new tree, where its identifiers are
from, and that nothing is recorded. -/
structure Places (U : Text → Option Text) (run : Run) (n m : Node) (after : Run) : Prop where
  replaced : n.Replaced U m
  ids : ∃ kept new, kept.Sublist n.ids ∧ Fresh run.issued after.issued new ∧
    m.ids.Perm (kept ++ new)
  diagnostics : after.diagnostics = run.diagnostics

variable {c : Catalog} {us : Usages} {run after : Run}

theorem placeInstances_eq (c : Catalog) (us : Usages) (w : Widget) (n : Node) :
    c.placeInstances us w n =
      match us.get? w.id with
      | some componentId => c.replace componentId w n
      | none => do
        return { n with children := ← c.placeInstancesAll us w.children n.children } := by
  cases w
  unfold placeInstances
  rfl

theorem yields_instantiate {key : Text} {w : Widget} {n : Node} :
    (c.instantiate w key).Yields run n after ↔
      ∃ b p, c.get key = .ok b ∧ b.instanceProperties w = .ok p ∧ after = run.counting ∧
        n = { id := nodeId (run.issued + 1), kind := .componentInstance,
              name := w.instanceName b.component.name, properties := p, widgetId := w.id } := by
  unfold instantiate BuiltComponent.instantiate
  simp only [yields_bind, yields_lift, yields_nextId, yields_pure]
  constructor
  · rintro ⟨b, _, ⟨hb, rfl⟩, p, _, ⟨hp, rfl⟩, _, _, ⟨rfl, rfl⟩, rfl, rfl⟩
    exact ⟨b, p, hb, hp, rfl, rfl⟩
  · rintro ⟨b, p, hb, hp, rfl, rfl⟩
    exact ⟨b, _, ⟨hb, rfl⟩, p, _, ⟨hp, rfl⟩, _, _, ⟨rfl, rfl⟩, rfl, rfl⟩

/-- The instance under a key that leads to a component. -/
theorem yields_instantiate_of_get {key : Text} {b : BuiltComponent} (hb : c.get key = .ok b)
    {w : Widget} {n : Node} :
    (c.instantiate w key).Yields run n after ↔
      ∃ p, b.instanceProperties w = .ok p ∧ after = run.counting ∧
        n = { id := nodeId (run.issued + 1), kind := .componentInstance,
              name := w.instanceName b.component.name, properties := p, widgetId := w.id } := by
  rw [yields_instantiate]
  constructor
  · rintro ⟨b', p, hb', made⟩
    obtain rfl : b' = b := by simpa [hb] using hb'.symm
    exact ⟨p, made⟩
  · rintro ⟨p, made⟩
    exact ⟨b, p, hb, made⟩

theorem yields_replace {componentId : Text} {w : Widget} {n m : Node} :
    (c.replace componentId w n).Yields run m after ↔
      ∃ b p, c.get componentId = .ok b ∧ b.instanceProperties w = .ok p ∧ after = run.counting ∧
        m = { id := nodeId (run.issued + 1), kind := .componentInstance,
              name := w.instanceName b.component.name, properties := p.inPlaceOf n.properties,
              widgetId := w.id } := by
  unfold replace
  simp only [yields_bind, yields_pure, yields_instantiate]
  constructor
  · rintro ⟨_, _, ⟨b, p, hb, hp, rfl, rfl⟩, rfl, rfl⟩
    exact ⟨b, p, hb, hp, rfl, rfl⟩
  · rintro ⟨b, p, hb, hp, rfl, rfl⟩
    exact ⟨_, _, ⟨b, p, hb, hp, rfl, rfl⟩, rfl, rfl⟩

theorem yields_placeInstancesAll_nil {ms : List Node} :
    (c.placeInstancesAll us [] []).Yields run ms after ↔ ms = [] ∧ after = run := by
  rw [placeInstancesAll, yields_pure]

theorem yields_placeInstancesAll_cons {w : Widget} {ws : List Widget} {n : Node}
    {ns ms : List Node} :
    (c.placeInstancesAll us (w :: ws) (n :: ns)).Yields run ms after ↔
      ∃ m mid others, (c.placeInstances us w n).Yields run m mid ∧
        (c.placeInstancesAll us ws ns).Yields mid others after ∧ ms = m :: others := by
  rw [placeInstancesAll]
  simp only [yields_bind, yields_pure]
  constructor
  · rintro ⟨m, mid, hm, others, _, ho, rfl, rfl⟩
    exact ⟨m, mid, others, hm, ho, rfl⟩
  · rintro ⟨m, mid, others, hm, ho, rfl⟩
    exact ⟨m, mid, hm, others, _, ho, rfl, rfl⟩

/-- Two lists that are each made of a kept and a new part are so together. -/
theorem perm_kept_append_new {α : Type} {as bs k₁ k₂ n₁ n₂ : List α} (ha : as.Perm (k₁ ++ n₁))
    (hb : bs.Perm (k₂ ++ n₂)) : (as ++ bs).Perm (k₁ ++ k₂ ++ (n₁ ++ n₂)) := by
  refine (ha.append hb).trans ?_
  rw [List.append_assoc, List.append_assoc]
  refine List.Perm.append_left k₁ ?_
  rw [← List.append_assoc, ← List.append_assoc]
  exact List.Perm.append_right n₂ List.perm_append_comm

/-- Siblings with their nodes, before and after, in a run that goes from one to the next. -/
inductive InTurn (p : Widget → Node → Node → Run → Run → Prop) :
    List Widget → List Node → List Node → Run → Run → Prop
  | nil {run : Run} : InTurn p [] [] [] run run
  | cons {w : Widget} {n m : Node} {ws : List Widget} {ns ms : List Node} {run mid after : Run} :
    p w n m run mid → InTurn p ws ns ms mid after →
      InTurn p (w :: ws) (n :: ns) (m :: ms) run after

/-- Siblings that are put in place in one run are so one after the other. -/
theorem inTurn_of_yields {p : Widget → Node → Node → Run → Run → Prop} {ws : List Widget}
    {ns ms : List Node} {run after : Run}
    (each : ∀ w ∈ ws, ∀ n m run after, n.labels Node.widgetId = w.labels (fun v => some v.id) →
      (c.placeInstances us w n).Yields run m after → p w n m run after)
    (hl : Node.labelsAll Node.widgetId ns = Widget.labelsAll (fun v => some v.id) ws)
    (h : (c.placeInstancesAll us ws ns).Yields run ms after) : InTurn p ws ns ms run after := by
  induction ws generalizing ns ms run with
  | nil =>
    obtain rfl : ns = [] := by
      cases ns with
      | nil => rfl
      | cons n ns => simp [Node.labelsAll, Widget.labelsAll] at hl
    obtain ⟨rfl, rfl⟩ := yields_placeInstancesAll_nil.1 h
    exact .nil
  | cons w ws ih =>
    cases ns with
    | nil => simp [Node.labelsAll, Widget.labelsAll] at hl
    | cons n ns =>
      rw [Node.labelsAll, Widget.labelsAll, List.cons.injEq] at hl
      obtain ⟨m, mid, others, hm, ho, rfl⟩ := yields_placeInstancesAll_cons.1 h
      have first := each w List.mem_cons_self n m run mid hl.1 hm
      exact .cons first (ih (fun v hv => each v (List.mem_cons_of_mem w hv)) hl.2 ho)

/-- An induction over what is yielded where each node has the identifier of its widget: what holds
of usages that are replaced, and of other nodes as soon as it holds of their children, holds of the
whole tree. -/
theorem placeInstances_induct {motive : Widget → Node → Node → Run → Run → Prop}
    (usage : ∀ w n m run after componentId, n.widgetId = some w.id →
      us.get? w.id = some componentId → (c.replace componentId w n).Yields run m after →
      motive w n m run after)
    (other : ∀ (w : Widget) (n : Node) ms run after, n.widgetId = some w.id →
      us.get? w.id = none → InTurn motive w.children n.children ms run after →
      motive w n { n with children := ms } run after)
    (w : Widget) {n m : Node} (hl : n.labels Node.widgetId = w.labels (fun v => some v.id))
    (h : (c.placeInstances us w n).Yields run m after) : motive w n m run after := by
  induction w using Widget.induct generalizing n m run after with
  | step w ih =>
    rw [Node.labels_eq, Widget.labels_eq, LabelTree.node.injEq] at hl
    rw [placeInstances_eq] at h
    cases hu : us.get? w.id with
    | some componentId =>
      rw [hu] at h
      exact usage w n m run after componentId hl.1 hu h
    | none =>
      rw [hu] at h
      simp only [yields_bind, yields_pure] at h
      obtain ⟨ms, _, hm, rfl, rfl⟩ := h
      have children := inTurn_of_yields (fun v hv _ _ _ _ hl h => ih v hv hl h) hl.2 hm
      exact other w n ms run _ hl.1 hu children

/-- The nodes of siblings are put in place one after the other. -/
theorem places_children {U : Text → Option Text} {ws : List Widget} {ns ms : List Node}
    (h : InTurn (fun _ n m run after => Places U run n m after) ws ns ms run after) :
    List.Forall₂ (Node.Replaced U) ns ms ∧
      (∃ kept new, kept.Sublist (ns.flatMap Node.ids) ∧ Fresh run.issued after.issued new ∧
        (ms.flatMap Node.ids).Perm (kept ++ new)) ∧
      after.diagnostics = run.diagnostics := by
  induction h with
  | nil => exact ⟨.nil, ⟨[], [], .slnil, .nil (Nat.le_refl _), .nil⟩, rfl⟩
  | cons first _ ih =>
    obtain ⟨hr, ⟨k₁, n₁, hk, hf, hp⟩, hd⟩ := first
    obtain ⟨hrs, ⟨k₂, n₂, hks, hfs, hps⟩, hds⟩ := ih
    exact ⟨.cons hr hrs, ⟨k₁ ++ k₂, n₁ ++ n₂, hk.append hks, hf.append hfs,
      perm_kept_append_new hp hps⟩, hds.trans hd⟩

/-- What is yielded where each node has the identifier of its widget. -/
theorem places_of_yields (hus : us.Within c) (w : Widget) {n m : Node}
    (hl : n.labels Node.widgetId = w.labels (fun v => some v.id))
    (h : (c.placeInstances us w n).Yields run m after) : Places us.get? run n m after := by
  refine placeInstances_induct (motive := fun _ n m run after => Places us.get? run n m after)
    ?_ ?_ w hl h
  · intro w n m run after componentId hid hu hm
    obtain ⟨b, p, hb, hp, rfl, rfl⟩ := yields_replace.1 hm
    have hcomponent : p.componentId = some componentId := by
      obtain ⟨found, hf, he⟩ := hus w.id componentId hu
      rw [BuiltComponent.componentId_of_instanceProperties hp, ← he]
      have : b = found := by simpa [hb] using hf
      rw [this]
    refine ⟨.usage hid hu hcomponent,
      ⟨[], [some (nodeId (run.issued + 1))], List.nil_sublist _, ?_, ?_⟩, rfl⟩
    · exact .singleton (hasNumber_nodeId _)
    · rw [Node.ids_eq]
      exact .refl _
  · intro w n ms run after hid hu hm
    obtain ⟨hr, ⟨kept, new, hk, hf, hp⟩, hd⟩ := places_children hm
    refine ⟨.other hid hu hr, ⟨n.id :: kept, new, ?_, hf, ?_⟩, hd⟩
    · rw [Node.ids_eq]
      exact hk.cons_cons n.id
    · rw [Node.ids_eq]
      exact hp.cons n.id

end Catalog

/-! ## Topmost usages -/

namespace Widget

/-- Whether an instance can be made for a usage. -/
def instanceable (w : Widget) : Bool :=
  w.properties.width.all Number.fitsDouble && w.properties.height.all Number.fitsDouble &&
    (w.properties.flex.filter (!·.isZero)).all Number.fitsDouble

/-- For a widget that can be made an instance can be made exactly if its share of the space has a
double near it. -/
theorem Makeable.instanceable_iff {w : Widget} (h : w.Makeable) :
    w.instanceable = true ↔ ∀ flex ∈ w.properties.flex, flex.fitsDouble := by
  have hl := h.1
  rw [lowerable_eq, List.all_append, ownLengths, List.all_append, List.all_append, all_toList,
    all_toList] at hl
  simp only [Bool.and_eq_true] at hl
  rw [instanceable, hl.1.1.1.1, hl.1.1.1.2, Bool.true_and, Bool.true_and]
  cases w.properties.flex with
  | none => simp
  | some flex =>
    cases hz : flex.isZero with
    | false => simp [Option.filter, hz]
    | true => simp [Option.filter, hz, Number.fitsDouble_of_isZero hz]

end Widget

namespace Catalog

variable {c : Catalog} {us : Usages}

/-- An instance of a component that is found is made exactly if its lengths have doubles near
them. -/
theorem returns_instantiate_iff {key : Text} {b : BuiltComponent} (hb : c.get key = .ok b)
    {w : Widget} {run : Run} :
    (c.instantiate w key).Returns run ↔ w.instanceable = true := by
  rw [Widget.instanceable, ← b.isOk_instanceProperties, isOk_iff]
  simp only [Returns, yields_instantiate_of_get hb]
  constructor
  · rintro ⟨n, after, p, hp, -⟩
    exact ⟨p, hp⟩
  · rintro ⟨p, hp⟩
    exact ⟨_, _, p, hp, rfl, rfl⟩

theorem returns_placeInstancesAll_iff {used : Text → Bool} {ws : List Widget} {ns : List Node}
    {run : Run}
    (ih : ∀ w ∈ ws, ∀ n run, n.shape = w.shape → ((c.placeInstances us w n).Returns run ↔
      ∀ v ∈ w.topmost used, v.instanceable = true))
    (hs : ns.map Node.shape = ws.map Widget.shape) :
    (c.placeInstancesAll us ws ns).Returns run ↔
      ∀ v ∈ ws.flatMap (Widget.topmost used), v.instanceable = true := by
  induction ws generalizing ns run with
  | nil =>
    obtain rfl : ns = [] := List.map_eq_nil_iff.1 hs
    rw [placeInstancesAll]
    exact iff_of_true (returns_pure _) fun v hv => absurd hv List.not_mem_nil
  | cons w ws ihr =>
    cases ns with
    | nil => simp at hs
    | cons n ns =>
      rw [List.map_cons, List.map_cons, List.cons.injEq] at hs
      have hrest (run : Run) : (c.placeInstancesAll us ws ns).Returns run ↔
          ∀ v ∈ ws.flatMap (Widget.topmost used), v.instanceable = true :=
        ihr (fun v hv => ih v (List.mem_cons_of_mem w hv)) hs.2
      rw [placeInstancesAll, List.flatMap_cons, List.forall_mem_append,
        ← ih w List.mem_cons_self n run hs.1]
      refine returns_bind_of fun m mid _ => ?_
      rw [bind_pure_comp, returns_map, hrest]

/-- Instances can be put in place exactly if one can be made for each topmost usage. -/
theorem returns_placeInstances_iff (hus : us.Within c) (w : Widget) {n : Node}
    (hs : n.shape = w.shape) (run : Run) :
    (c.placeInstances us w n).Returns run ↔
      ∀ v ∈ w.topmost us.has, v.instanceable = true := by
  induction w using Widget.induct generalizing n run with
  | step w ih =>
    rw [Node.shape_eq, Widget.shape_eq, LabelTree.node.injEq] at hs
    rw [placeInstances_eq, Widget.topmost_eq, Entries.has]
    cases hu : us.get? w.id with
    | some componentId =>
      obtain ⟨b, hb, -⟩ := hus w.id componentId hu
      simp only [Option.isSome_some, if_true, List.forall_mem_singleton]
      rw [replace, bind_pure_comp, returns_map, returns_instantiate_iff hb]
    | none =>
      simp only [Option.isSome_none, Bool.false_eq_true, if_false]
      rw [bind_pure_comp, returns_map,
        returns_placeInstancesAll_iff (fun v hv n run hs => ih v hv hs run) hs.2]

/-- Without usages a tree stays what it is. -/
theorem yields_placeInstances_nil (w : Widget) {n : Node} (hs : n.shape = w.shape) (run : Run) :
    (c.placeInstances [] w n).Yields run n run := by
  induction w using Widget.forest_induct
    (q := fun ws => ∀ ns : List Node, ns.map Node.shape = ws.map Widget.shape →
      (c.placeInstancesAll [] ws ns).Yields run ns run) generalizing n with
  | step w children =>
    rw [Node.shape_eq, Widget.shape_eq, LabelTree.node.injEq] at hs
    rw [placeInstances_eq, Entries.get?_nil]
    simp only [yields_bind, yields_pure]
    refine ⟨n.children, run, children n.children hs.2, ?_, rfl⟩
    cases n
    rfl
  | nil ns hs =>
    obtain rfl : ns = [] := List.map_eq_nil_iff.1 hs
    exact yields_placeInstancesAll_nil.2 ⟨rfl, rfl⟩
  | cons v rest first others ns hs =>
    cases ns with
    | nil => simp at hs
    | cons n ns =>
      rw [List.map_cons, List.map_cons, List.cons.injEq] at hs
      exact yields_placeInstancesAll_cons.2 ⟨n, run, ns, first hs.1, others ns hs.2, rfl⟩

end Catalog

end DesignTree
