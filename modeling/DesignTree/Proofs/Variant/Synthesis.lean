import DesignTree.Proofs.Lowering.Range
import DesignTree.Proofs.Style.Stack
import DesignTree.Variant.Synthesis

/-! # Making the trees of widgets and variants

A widget's tree is lowered, and then styled in lockstep with the widget tree. The two agree in shape
only where no text or image has children, so that making it returns exactly for widgets that can be
lowered and keep their children (`returns_lower_iff`). The nodes of a tree that is made have fresh
identifiers (`fresh_lower`), and what went wrong is recorded (`reported_of_lower`). The same follows
for all variants of a reusable widget.
-/

namespace DesignTree

/-- Whether a widget tree can be made: it can be lowered, and no text or image in it has
children. -/
def Widget.Makeable (w : Widget) : Prop :=
  w.lowerable = true ∧ ∀ v ∈ w.walk, v.isLeaf → v.children = []

namespace Widget.Makeable

theorem child {w c : Widget} (h : w.Makeable) (hc : c ∈ w.children) : c.Makeable := by
  refine ⟨?_, (forall_mem_walk.1 h.2).2 c hc⟩
  have hl := h.1
  rw [lowerable_eq, Bool.and_eq_true, Bool.or_eq_true] at hl
  have children : lowerableAll w w.children = true := by
    refine hl.2.resolve_left fun hleaf => ?_
    rw [h.2 w w.mem_walk_self hleaf] at hc
    exact List.not_mem_nil hc
  exact (lowerableAll_iff.1 children c hc).1

theorem of_mem_walk {w v : Widget} (h : w.Makeable) (hv : v ∈ w.walk) : v.Makeable := by
  induction w using Widget.induct with
  | step w ih =>
    rw [walk_eq, List.mem_cons, mem_walkAll] at hv
    rcases hv with rfl | ⟨c, hc, hv⟩
    · exact h
    · exact ih c hc (h.child hc) hv

end Widget.Makeable

/-- What a resolver and lowering have to say about a widget tree is among `ds`. -/
def Resolver.Reported (r : Resolver) (ds : Diagnostics) (w : Widget) : Prop :=
  w.noted ⊆ ds ∧
    ∃ run node after, w.lower.Yields run node after ∧ records (styleTree r w node).2.1 ⊆ ds

theorem Resolver.Reported.mono {r : Resolver} {ds es : Diagnostics} {w : Widget}
    (h : r.Reported ds w) (hs : ds ⊆ es) : r.Reported es w := by
  obtain ⟨hn, run, node, after, hy, hr⟩ := h
  exact ⟨List.Subset.trans hn hs, run, node, after, hy, List.Subset.trans hr hs⟩

namespace Node

/-- The identifiers of a tree. -/
def ids (n : Node) : List (Option Text) := n.walk.map (·.id)

theorem ids_eq (n : Node) : n.ids = n.id :: n.children.flatMap ids := by
  rw [ids, walk_eq, List.map_cons, walkAll_eq_flatMap, List.map_flatMap]
  rfl

theorem ids_styleTree (r : Resolver) (w : Widget) (n : Node) : (r.styleTree w n).1.ids = n.ids := by
  have h := r.labels_styleTree (f := Node.id) (fun _ _ _ _ _ _ => rfl) w n
  have := congrArg LabelTree.toList h
  rwa [toList_labels, toList_labels] at this

end Node

namespace Synthesizer

open InRun

variable {s : Synthesizer} {d : Definition} {run after : Run}

/-! ## Trees -/

/-- A limit from zero on is cut down to the greatest one. -/
theorem limitOf_ofNat (n : Nat) : limitOf (.ofNat n) = .ok ((min n ceiling : Nat) : Count) := by
  have h : limitOf (.ofNat n) = .ok (Count.min (n : Nat) (ceiling : Nat)) := rfl
  rw [h, Count.min, Count.toNumber, Count.toNumber, Number.less_int]
  by_cases hn : n ≤ ceiling
  · rw [Nat.min_eq_left hn, if_neg (by simpa using hn)]
  · rw [Nat.min_eq_right (Nat.le_of_not_le hn), if_pos (by simpa using hn)]

/-- A tree that is made is the lowered one, styled where styles are resolved. -/
theorem yields_lower {w : Widget} {m : Node} :
    (s.lower w).Yields run m after ↔
      ∃ n lowered, w.lower.Yields run n lowered ∧
        match s.resolver with
        | some r => n.shape = w.shape ∧ m = (r.styleTree w n).1 ∧
            after = lowered.noting (Resolver.records (r.styleTree w n).2.1)
        | none => m = n ∧ after = lowered := by
  unfold lower
  cases s.resolver with
  | none => simp only [yields_bind, yields_pure]
  | some r =>
    simp only [yields_bind, yields_pure, Prod.exists, Resolver.yields_applyTree]
    constructor
    · rintro ⟨n, lowered, hn, m, _, _, ⟨hs, rfl, -, rfl⟩, rfl, rfl⟩
      exact ⟨n, lowered, hn, hs, rfl, rfl⟩
    · rintro ⟨n, lowered, hn, hs, rfl, rfl⟩
      exact ⟨n, lowered, hn, _, _, _, ⟨hs, rfl, rfl, rfl⟩, rfl, rfl⟩

/-- The nodes of a tree that is made have fresh identifiers. -/
theorem fresh_lower {w : Widget} {m : Node} (h : (s.lower w).Yields run m after) :
    Fresh run.issued after.issued m.ids := by
  obtain ⟨n, lowered, hn, hm⟩ := yields_lower.1 h
  have mirrors := w.mirrors_of_yields hn
  have fresh : Fresh run.issued lowered.issued n.ids := by
    rw [Node.ids, mirrors.ids, mirrors.after]
    exact fresh_nodeIds _ _
  cases hr : s.resolver with
  | none =>
    rw [hr] at hm
    obtain ⟨rfl, rfl⟩ := hm
    exact fresh
  | some r =>
    rw [hr] at hm
    obtain ⟨-, rfl, rfl⟩ := hm
    rw [Node.ids_styleTree]
    exact fresh

/-- A tree that is made has the widgets' identifiers and the kinds of nodes that belong to them, but
for the children of texts and images. -/
theorem labels_lower_pruned {w : Widget} {m : Node} (h : (s.lower w).Yields run m after) :
    m.labels Node.origin = w.pruned.labels Widget.origin := by
  obtain ⟨n, lowered, hn, hm⟩ := yields_lower.1 h
  have mirrors := w.mirrors_of_yields hn
  cases hr : s.resolver with
  | none =>
    rw [hr] at hm
    rw [hm.1, mirrors.labels]
  | some r =>
    rw [hr] at hm
    rw [hm.2.1, r.labels_styleTree (fun _ _ _ _ _ _ => rfl), mirrors.labels]

/-- A styled tree has the identifiers and the kinds of all widgets. -/
theorem labels_lower {r : Resolver} (hr : s.resolver = some r) {w : Widget} {m : Node}
    (h : (s.lower w).Yields run m after) : m.labels Node.origin = w.labels Widget.origin := by
  obtain ⟨n, lowered, hn, hm⟩ := yields_lower.1 h
  rw [hr] at hm
  have shape := hm.1
  rw [(w.mirrors_of_yields hn).shape_eq] at shape
  rw [labels_lower_pruned h, Widget.pruned_eq_self (w.shape_pruned_iff.1 shape)]

/-- No widget becomes an instance when it is lowered. -/
theorem kind_ne_of_lower {r : Resolver} (hr : s.resolver = some r) {w : Widget} {m : Node}
    (h : (s.lower w).Yields run m after) : ∀ v ∈ m.walk, v.kind ≠ .componentInstance := by
  intro v hv
  have origins := congrArg LabelTree.toList (labels_lower hr h)
  rw [Node.toList_labels, Widget.toList_labels] at origins
  have hm : v.origin ∈ w.walk.map Widget.origin := origins ▸ List.mem_map_of_mem hv
  obtain ⟨u, -, hu⟩ := List.mem_map.1 hm
  have kind : u.kind.nodeKind = v.kind := congrArg Prod.snd hu
  rw [← kind]
  exact u.kind.nodeKind_ne_componentInstance

theorem shape_lower {r : Resolver} (hr : s.resolver = some r) {w : Widget} {m : Node}
    (h : (s.lower w).Yields run m after) : m.shape = w.shape :=
  Node.shape_of_widget_labels (labels_lower hr h)

theorem noted_of_lower {w : Widget} {m : Node} (h : (s.lower w).Yields run m after) :
    run.diagnostics ++ w.noted <+: after.diagnostics := by
  obtain ⟨n, lowered, hn, hm⟩ := yields_lower.1 h
  have mirrors := w.mirrors_of_yields hn
  cases hr : s.resolver with
  | none =>
    rw [hr] at hm
    obtain ⟨-, rfl⟩ := hm
    rw [mirrors.after]
    exact List.prefix_rfl
  | some r =>
    rw [hr] at hm
    obtain ⟨-, -, rfl⟩ := hm
    rw [mirrors.after]
    exact List.prefix_append _ _

theorem grown_of_lower {w : Widget} {m : Node} (h : (s.lower w).Yields run m after) :
    run.diagnostics ⊆ after.diagnostics := by
  intro x hx
  exact (noted_of_lower h).subset (List.mem_append_left _ hx)

/-- Making a tree records what there is to say about it. -/
theorem reported_of_lower {r : Resolver} (hr : s.resolver = some r) {w : Widget} {m : Node}
    (h : (s.lower w).Yields run m after) : r.Reported after.diagnostics w := by
  have hp := (noted_of_lower h).subset
  obtain ⟨n, lowered, hn, hm⟩ := yields_lower.1 h
  rw [hr] at hm
  obtain ⟨-, -, rfl⟩ := hm
  refine ⟨fun x hx => hp (List.mem_append_right _ hx), run, n, lowered, hn, fun x hx => ?_⟩
  exact List.mem_append_right _ hx

/-- A tree is made exactly for widgets that can be lowered and of which no text or image has
children. -/
theorem returns_lower_iff {r : Resolver} (hr : s.resolver = some r) (w : Widget) (run : Run) :
    (s.lower w).Returns run ↔ w.Makeable := by
  simp only [Returns, yields_lower, hr]
  constructor
  · rintro ⟨m, after, n, lowered, hn, hs, -, -⟩
    refine ⟨(w.returns_lower_iff run).1 ⟨n, lowered, hn⟩, ?_⟩
    rw [← w.shape_pruned_iff, ← (w.mirrors_of_yields hn).shape_eq]
    exact hs
  · rintro ⟨hl, hc⟩
    obtain ⟨n, lowered, hn⟩ := (w.returns_lower_iff run).2 hl
    refine ⟨_, _, n, lowered, hn, ?_, rfl, rfl⟩
    rw [(w.mirrors_of_yields hn).shape_eq]
    exact w.shape_pruned_iff.2 hc

end Synthesizer

/-! ## Widgets of variants -/

namespace Definition

/-- The widget that the variant of a configuration is made of: the base where the configuration is
one that it cannot take. -/
def widgetFor (d : Definition) (c : Configuration) : Widget :=
  match d.configured c with
  | .ok w => w
  | .error _ => d.widget

/-- What is recorded about a configuration: that the base cannot take it. -/
def unfitNotes (d : Definition) (c : Configuration) : Diagnostics :=
  match d.configured c with
  | .ok _ => []
  | .error r => [Synthesizer.unfitWarning d (d.configurationName c) r]

/-- The configurations of which variants are made, up to a limit. -/
def configurations (d : Definition) (limit : Nat) : List Configuration :=
  (PropertyMatrix.ofDefinition d).leading limit

/-- The widgets that trees of a component are made of. -/
def made (d : Definition) (limit : Nat) : List Widget :=
  d.widget :: (d.configurations limit).map d.widgetFor

end Definition

namespace Synthesizer

open InRun

variable {s : Synthesizer} {d : Definition} {run after : Run}

theorem yields_variantWidget {c : Configuration} {w : Widget} :
    (variantWidget d c).Yields run w after ↔
      w = d.widgetFor c ∧ after = run.noting (d.unfitNotes c) := by
  unfold variantWidget Definition.widgetFor Definition.unfitNotes
  cases d.configured c with
  | ok v => simp
  | error r =>
    simp only [yields_bind, yields_record, yields_pure]
    constructor
    · rintro ⟨_, _, rfl, rfl, rfl⟩
      exact ⟨rfl, rfl⟩
    · rintro ⟨rfl, rfl⟩
      exact ⟨(), _, rfl, rfl, rfl⟩

theorem yields_variant {c : Configuration} {v : ComponentVariant} :
    (s.variant d c).Yields run v after ↔
      ∃ m, (s.lower (d.widgetFor c)).Yields (run.noting (d.unfitNotes c)) m after ∧
        v = { name := d.configurationName c, properties := c, nodeSpec := m } := by
  unfold variant
  simp only [yields_bind, yields_variantWidget, yields_pure]
  constructor
  · rintro ⟨_, _, ⟨rfl, rfl⟩, m, _, hm, rfl, rfl⟩
    exact ⟨m, hm, rfl⟩
  · rintro ⟨m, hm, rfl⟩
    exact ⟨_, _, ⟨rfl, rfl⟩, m, after, hm, rfl, rfl⟩

/-- Without properties that vary there is one variant; else there is one for each configuration up
to the limit. -/
theorem yields_variants {vs : List ComponentVariant} :
    (s.variants d).Yields run vs after ↔
      if (PropertyMatrix.ofDefinition d).isEmpty then
        ∃ m, (s.lower d.widget).Yields run m after ∧
          vs = [{ name := Variant.defaultName,
                  properties := [(Variant.placeholderKey, .text "default")], nodeSpec := m }]
      else ∃ k, s.limit.toNat = .ok k ∧
        ((d.configurations k).mapM (s.variant d)).Yields run vs after := by
  unfold variants
  simp only
  split
  · unfold onlyVariant
    simp only [yields_bind, yields_pure]
    constructor
    · rintro ⟨_, _, ⟨m, _, hm, rfl, rfl⟩, rfl, rfl⟩
      exact ⟨m, hm, rfl⟩
    · rintro ⟨m, hm, rfl⟩
      exact ⟨_, _, ⟨m, _, hm, rfl, rfl⟩, rfl, rfl⟩
  · simp only [yields_bind, yields_lift]
    constructor
    · rintro ⟨k, _, ⟨hk, rfl⟩, hv⟩
      exact ⟨k, hk, hv⟩
    · rintro ⟨k, hk, hv⟩
      exact ⟨k, run, ⟨hk, rfl⟩, hv⟩

/-! ## All variants -/

/-- The tree of each variant is made of the widget itself, or of the one for a configuration. -/
theorem exists_lower_of_variants {vs : List ComponentVariant}
    (h : (s.variants d).Yields run vs after) {v : ComponentVariant} (hv : v ∈ vs) :
    ∃ w, (w = d.widget ∨ ∃ c, w = d.widgetFor c) ∧
      ∃ before behind, (s.lower w).Yields before v.nodeSpec behind := by
  rw [yields_variants] at h
  split at h
  · obtain ⟨m, hm, rfl⟩ := h
    obtain rfl := List.mem_singleton.1 hv
    exact ⟨d.widget, .inl rfl, run, after, hm⟩
  · obtain ⟨k, -, hy⟩ := h
    obtain ⟨c, -, before, behind, hc⟩ := exists_of_mem_mapM hy hv
    obtain ⟨m, hm, rfl⟩ := yields_variant.1 hc
    exact ⟨d.widgetFor c, .inr ⟨c, rfl⟩, _, behind, hm⟩

/-- What holds of all trees that are made holds of the trees of variants. -/
theorem forall_nodeSpec_of_variants {p : Node → Prop}
    (hp : ∀ w run m after, (s.lower w).Yields run m after → p m) {vs : List ComponentVariant}
    (h : (s.variants d).Yields run vs after) : ∀ v ∈ vs, p v.nodeSpec := by
  intro v hv
  obtain ⟨w, -, before, behind, made⟩ := exists_lower_of_variants h hv
  exact hp w before v.nodeSpec behind made

/-- The nodes of all variants of a widget have fresh identifiers. -/
theorem fresh_variants {vs : List ComponentVariant} (h : (s.variants d).Yields run vs after) :
    Fresh run.issued after.issued (vs.flatMap (·.nodeSpec.ids)) := by
  rw [yields_variants] at h
  split at h
  · obtain ⟨m, hm, rfl⟩ := h
    simpa using fresh_lower hm
  · obtain ⟨k, -, hv⟩ := h
    refine fresh_mapM (fun c _ run v after hy => ?_) hv
    obtain ⟨m, hm, rfl⟩ := yields_variant.1 hy
    have fresh := fresh_lower hm
    rwa [Run.issued_noting] at fresh

/-- What there is to say about a configuration and about its widget is among `ds`. -/
def Reported (r : Resolver) (d : Definition) (ds : Diagnostics) (c : Configuration) : Prop :=
  d.unfitNotes c ⊆ ds ∧ r.Reported ds (d.widgetFor c)

theorem Reported.mono {r : Resolver} {ds es : Diagnostics} {c : Configuration}
    (h : Reported r d ds c) (hs : ds ⊆ es) : Reported r d es c :=
  ⟨List.Subset.trans h.1 hs, h.2.mono hs⟩

theorem reported_of_variants {r : Resolver} (hr : s.resolver = some r) {k : Nat}
    (hk : s.limit.toNat = .ok k) {vs : List ComponentVariant}
    (h : (s.variants d).Yields run vs after) :
    run.diagnostics ⊆ after.diagnostics ∧
      ∀ c ∈ d.configurations k, Reported r d after.diagnostics c := by
  rw [yields_variants] at h
  split at h
  · next he =>
    obtain ⟨m, hm, -⟩ := h
    refine ⟨grown_of_lower hm, ?_⟩
    rw [Definition.configurations, PropertyMatrix.leading, if_pos he]
    exact fun c hc => absurd hc List.not_mem_nil
  · obtain ⟨k', hk', hv⟩ := h
    obtain rfl : k' = k := by simpa [hk'] using hk
    refine recorded_mapM (p := fun c ds => Reported r d ds c) ?_ ?_ hv
    · exact fun c ds es hs hc => hc.mono hs
    · intro c _ run v after hy
      obtain ⟨m, hm, -⟩ := yields_variant.1 hy
      have grown := grown_of_lower hm
      refine ⟨fun x hx => grown ?_, fun x hx => grown ?_, reported_of_lower hr hm⟩
      · exact List.mem_append_left _ hx
      · exact List.mem_append_right _ hx

/-- All variants and the base of a widget are made exactly if each widget can be made. -/
theorem returns_variants_and_base_iff {r : Resolver} (hr : s.resolver = some r) {k : Nat}
    (hk : s.limit.toNat = .ok k) (d : Definition) (run : Run) :
    ((s.variants d).Returns run ∧ d.widget.Makeable) ↔ ∀ w ∈ d.made k, w.Makeable := by
  rw [Definition.made, List.forall_mem_cons, and_comm, List.forall_mem_map]
  refine and_congr_right fun hb => ?_
  unfold variants Definition.configurations
  simp only
  split
  · next he =>
    rw [PropertyMatrix.leading, if_pos he]
    refine iff_of_true ?_ fun c hc => absurd hc List.not_mem_nil
    rw [onlyVariant, bind_pure_comp, returns_map, bind_pure_comp, returns_map]
    exact (returns_lower_iff hr d.widget run).2 hb
  · rw [hk, lift_ok, pure_bind]
    refine returns_mapM fun c _ run => ?_
    rw [← returns_lower_iff hr (d.widgetFor c) (run.noting (d.unfitNotes c))]
    simp only [Returns, yields_variant]
    constructor
    · rintro ⟨v, after, m, hm, -⟩
      exact ⟨m, after, hm⟩
    · rintro ⟨m, after, hm⟩
      exact ⟨_, after, m, hm, rfl⟩

end Synthesizer

end DesignTree
