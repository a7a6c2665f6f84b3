import DesignTree.Proofs.Conversion.Basic
import DesignTree.Proofs.Tree.Along

/-! # Conversions along their widgets

All trees of a conversion go along with widget trees: the converted tree with the one that it was
made from, up to its instances, and the trees of a component with the widgets of its base and its
variants (`Conversion.Along`). What the steps of a conversion make of single nodes then holds all
over these trees (`Converter.along_of_convert`): lowering, styling, the name of a component, and an
instance in the place of a node.
-/

namespace DesignTree

/-- Whatever the children of a widget and its node are, it makes no difference to `q`. -/
structure Shallow (q : Widget → Node → Prop) : Prop where
  widget : ∀ w n ws, q w n → q { w with children := ws } n
  node : ∀ w n ms, q w n → q w { n with children := ms }

namespace Widget

mutual

/-- A widget tree without the children of those whose identifiers `used` tells. -/
def cutAt (used : Text → Bool) : Widget → Widget
  | ⟨id, kind, sourceType, properties, children, styling, layout, position⟩ =>
    ⟨id, kind, sourceType, properties, if used id then [] else cutAllAt used children, styling,
      layout, position⟩

def cutAllAt (used : Text → Bool) : List Widget → List Widget
  | [] => []
  | w :: rest => w.cutAt used :: cutAllAt used rest

end

theorem cutAllAt_eq_map (used : Text → Bool) (ws : List Widget) :
    cutAllAt used ws = ws.map (cutAt used) := by
  induction ws with
  | nil => rfl
  | cons w rest ih => rw [cutAllAt, ih, List.map_cons]

theorem cutAt_eq (used : Text → Bool) (w : Widget) :
    w.cutAt used =
      { w with children := if used w.id then [] else w.children.map (cutAt used) } := by
  cases w
  rw [cutAt, cutAllAt_eq_map]

end Widget

namespace Along

variable {p q : Widget → Node → Prop} {w : Widget} {n : Node}

theorem shape_eq (h : Along q w n) : n.shape = w.shape := by
  induction w using Widget.induct generalizing n with
  | step w ih =>
    have children := (List.forall₂_and_left _ _).2 ⟨ih, h.children⟩
    rw [Node.shape_eq, Widget.shape_eq]
    congr 1
    exact (map_eq_of_forall₂ (children.imp fun c m ⟨hc, hm⟩ => (hc hm).symm)).symm

/-- What styling makes of single nodes holds all over a styled tree. -/
theorem styleTree {r : Resolver} (shallow : Shallow q)
    (styled : ∀ w n, p w n → q w (r.style w n).node) (h : Along p w n) :
    Along q w (r.styleTree w n).1 := by
  induction w using Widget.induct generalizing n with
  | step w ih =>
    have siblings {ws : List Widget} {ns : List Node} (hs : List.Forall₂ (fun v m =>
        (∀ {m}, Along p v m → Along q v (r.styleTree v m).1) ∧ Along p v m) ws ns) :
        List.Forall₂ (Along q) ws (r.styleAll ws ns).1 := by
      induction hs with
      | nil => exact .nil
      | @cons v m ws ns hv _ ihs =>
        rw [Resolver.styleAll_cons, if_pos ((r.complete_styleTree_iff v m).2 hv.2.shape_eq)]
        exact .cons (hv.1 hv.2) ihs
    have children := (List.forall₂_and_left _ _).2 ⟨ih, h.children⟩
    rw [Resolver.styleTree_eq, if_pos h.children.length_eq]
    exact .intro (shallow.node w _ _ (styled w n h.root)) (siblings children)

/-- The name and the description of a component concern the root alone. -/
theorem asComponent {name description : Text} (named : q w n → q w (n.asComponent name description))
    (h : Along q w n) : Along q w (n.asComponent name description) :=
  .intro (named h.root) h.children

end Along

namespace Catalog

open InRun

variable {q : Widget → Node → Prop} {c : Catalog} {us : Usages} {run after : Run}

/-- What an instance in the place of a node keeps holds all over the tree with the instances. -/
theorem along_of_placeInstances (shallow : Shallow q)
    (replaced : ∀ (b : BuiltComponent) w n own id name, b.instanceProperties w = .ok own → q w n →
      q w { id, kind := .componentInstance, name, properties := own.inPlaceOf n.properties,
            widgetId := some w.id })
    (w : Widget) {n m : Node} (hl : n.labels Node.widgetId = w.labels (fun v => some v.id))
    (hn : Along q w n) (h : (c.placeInstances us w n).Yields run m after) :
    Along q (w.cutAt us.has) m := by
  refine placeInstances_induct (motive := fun w n m _ _ => Along q w n → Along q (w.cutAt us.has) m)
    ?_ ?_ w hl h hn
  · intro w n m run after componentId hid hu hm hn
    obtain ⟨b, own, -, hp, -, rfl⟩ := yields_replace.1 hm
    have cut : w.cutAt us.has = { w with children := [] } := by
      rw [Widget.cutAt_eq, Entries.has, hu]
      rfl
    rw [cut]
    exact .intro (shallow.widget w _ [] (replaced b w n own _ _ hp hn.root)) .nil
  · intro w n ms run after hid hu hm hn
    have cut : w.cutAt us.has = { w with children := w.children.map (Widget.cutAt us.has) } := by
      rw [Widget.cutAt_eq, Entries.has, hu]
      rfl
    have siblings {ws : List Widget} {ns ms : List Node} {run after : Run}
        (hm : InTurn (fun w n m _ _ => Along q w n → Along q (w.cutAt us.has) m) ws ns ms run after)
        (hs : List.Forall₂ (Along q) ws ns) :
        List.Forall₂ (Along q) (ws.map (Widget.cutAt us.has)) ms := by
      induction hm with
      | nil => exact .nil
      | cons first _ ih =>
        obtain ⟨hn, hns⟩ := List.forall₂_cons.1 hs
        exact .cons (first hn) (ih hns)
    rw [cut]
    refine .intro (shallow.widget w _ _ (shallow.node w n ms hn.root)) ?_
    exact siblings hm hn.children

end Catalog

/-- The widget that the variant of a configuration is made of. Without properties that vary it is
the widget itself. -/
def Definition.sourceOf (d : Definition) (c : Configuration) : Widget :=
  if (PropertyMatrix.ofDefinition d).isEmpty then d.widget else d.widgetFor c

/-- A component whose trees go along with the widgets that they are made of. -/
structure Component.Along (q : Widget → Node → Prop) (d : Definition) (c : Component) : Prop where
  base : ∀ n ∈ c.nodeSpec, DesignTree.Along q d.widget n
  variants : ∀ v ∈ c.variants, DesignTree.Along q (d.sourceOf v.properties) v.nodeSpec

/-- A conversion all of whose trees go along with the widgets that they are made of. -/
structure Conversion.Along (q : Widget → Node → Prop) (root : Widget) (ds : List Definition)
    (r : Conversion) : Prop where
  tree : DesignTree.Along q (root.cutAt fun id => ds.any fun d => d.usageIds.contains id) r.root
  components : List.Forall₂ (Component.Along q) ds r.components

/-- What holds along a conversion holds of each of its nodes with some widget. -/
theorem Conversion.Along.exists_widget {q : Widget → Node → Prop} {root : Widget}
    {ds : List Definition} {r : Conversion} (h : r.Along q root ds) :
    ∀ t ∈ r.root :: r.components.flatMap Component.nodeSpecs, ∀ n ∈ t.walk, ∃ w, q w n := by
  have tree {w : Widget} {t : Node} (ht : DesignTree.Along q w t) : ∀ n ∈ t.walk, ∃ w, q w n := by
    intro n hn
    obtain ⟨v, -, hv⟩ := exists_of_mem_forall₂ ht.walks hn
    exact ⟨v, hv⟩
  intro t ht
  rcases List.mem_cons.1 ht with rfl | ht
  · exact tree h.tree
  · obtain ⟨component, hc, ht⟩ := List.mem_flatMap.1 ht
    obtain ⟨d, -, along⟩ := exists_of_mem_forall₂ h.components hc
    rcases List.mem_append.1 ht with ht | ht
    · obtain ⟨v, hv, rfl⟩ := List.mem_map.1 ht
      exact tree (along.variants v hv)
    · exact tree (along.base t (Option.mem_toList.1 ht))

namespace Synthesizer

open InRun

variable {p q : Widget → Node → Prop} {limit : Count} {r : Resolver} {run after : Run}

/-- What lowering and styling make of nodes holds all over a tree that is made. -/
theorem along_of_lower (shallow : Shallow q)
    (lowered : ∀ (w : Widget) run n after, w.lower.Yields run n after →
      DesignTree.Along p w.pruned n)
    (styled : ∀ w n, p w n → q w (r.style w n).node) {w : Widget} {m : Node}
    (h : (lower ⟨limit, some r⟩ w).Yields run m after) : DesignTree.Along q w m := by
  obtain ⟨n, _, hn, hs, rfl, -⟩ := yields_lower.1 h
  rw [(w.mirrors_of_yields hn).shape_eq] at hs
  have along := lowered w run n _ hn
  rw [Widget.pruned_eq_self (w.shape_pruned_iff.1 hs)] at along
  exact along.styleTree shallow styled

theorem along_of_variants {s : Synthesizer} {d : Definition}
    (made : ∀ w run m after, (s.lower w).Yields run m after → DesignTree.Along q w m)
    {vs : List ComponentVariant} (h : (s.variants d).Yields run vs after) :
    ∀ v ∈ vs, DesignTree.Along q (d.sourceOf v.properties) v.nodeSpec := by
  intro v hv
  unfold Definition.sourceOf
  rw [yields_variants] at h
  split at h
  · next hm =>
    obtain ⟨m, hm', rfl⟩ := h
    obtain rfl := List.mem_singleton.1 hv
    rw [if_pos hm]
    exact made _ _ _ _ hm'
  · next hm =>
    obtain ⟨k, -, hy⟩ := h
    obtain ⟨c, -, before, behind, hc⟩ := exists_of_mem_mapM hy hv
    obtain ⟨m, hm', rfl⟩ := yields_variant.1 hc
    rw [if_neg hm]
    exact made _ _ _ _ hm'

end Synthesizer

namespace Converter

open InRun

/-- What the steps of a conversion make of single nodes holds all over its trees. -/
theorem along_of_convert {p q : Widget → Node → Prop} (shallow : Shallow q)
    (lowered : ∀ (w : Widget) run n after, w.lower.Yields run n after →
      DesignTree.Along p w.pruned n)
    (styled : ∀ (r : Resolver) w n, p w n → q w (r.style w n).node)
    (named : ∀ w n name description, n.kind ≠ .componentInstance → q w n →
      q w (n.asComponent name description))
    (replaced : ∀ (b : BuiltComponent) w n own id name, b.instanceProperties w = .ok own → q w n →
      q w { id, kind := .componentInstance, name, properties := own.inPlaceOf n.properties,
            widgetId := some w.id })
    {c : Converter} {root : Widget} {theme : Option Theme} {ds : List Definition}
    {modes : Entries Theme} {r : Conversion} (h : c.convert root theme ds modes = .ok r) :
    r.Along q root ds := by
  obtain ⟨tokens, node, catalog, after, library, -, hy, -, rfl⟩ := convert_eq_ok_iff.1 h
  obtain ⟨limit, tree, made, built, -, hs, hb, hp⟩ := yields_convertTree.1 hy
  have along (w : Widget) run m after
      (h : (Synthesizer.lower ⟨limit, some (c.resolver tokens)⟩ w).Yields run m after) :
      DesignTree.Along q w m :=
    Synthesizer.along_of_lower shallow lowered (styled _) h
  constructor
  · have labels := labels_widgetId (Synthesizer.labels_lower rfl hs)
    rw [← has_ofCatalog_of_buildAll hb]
    exact Catalog.along_of_placeInstances shallow replaced root labels (along _ _ _ _ hs) hp
  · refine List.forall₂_map_right_iff.2 ((Synthesizer.forall₂_buildAll hb).imp ?_)
    rintro d b ⟨-, before, behind, hc⟩
    obtain ⟨vs, mid, base, _, hv, hbase, -, component⟩ := Synthesizer.yields_build.1 hc
    rw [component]
    refine ⟨?_, Synthesizer.along_of_variants along hv⟩
    rintro n ⟨⟩
    have kinds := Synthesizer.kind_ne_of_lower rfl hbase
    rw [Node.walk_eq, List.forall_mem_cons] at kinds
    exact (along _ _ _ _ hbase).asComponent (named _ _ _ _ kinds.1)

end Converter

end DesignTree
