import DesignTree.Proofs.Lowering.Place
import DesignTree.Proofs.Tree.Along

/-! # How lowered nodes arrange their children

A stack puts its children one above the other, each in a layer of its own; another frame that has a
layout hint lays its children out along an axis. No node does both, and the layer of a node tells
its place among its siblings (`arranges_of_lower`).

That goes by `along_of_yields`, for statements about nodes with their children: what a node is
before its parent places it, what it is with its children placed, and that its own place changes
nothing about the latter. Texts and images lose their children, and lowering does not look at these
(`lower_pruned`), so that such statements are about the widget tree without them.
-/

namespace DesignTree

/-- The direction of an automatic layout along an axis. -/
def Axis.mode : Axis → LayoutMode
  | .horizontal => .horizontal
  | .vertical => .vertical

theorem Axis.mode_ne_none (axis : Axis) : axis.mode ≠ .none := by
  cases axis <;> decide

namespace Layout

theorem mode_eq (l : Layout) : l.mode = (Widget.layoutAxis l).elim .none Axis.mode := by
  unfold mode
  cases Widget.layoutAxis l with
  | none => rfl
  | some axis => cases axis <;> rfl

/-- The automatic layout for a layout hint, with its lengths as doubles. -/
theorem eq_of_toAutoLayout {l : Layout} {auto : AutoLayout} (h : l.toAutoLayout = .ok auto) :
    auto = {
      layoutMode := l.mode
      primaryAxisSizingMode := if l.primarySize.isSome then .fixed else .auto
      counterAxisSizingMode := if l.isCounterFixed then .fixed else .auto
      primaryAxisAlignItems := l.mainAlign
      counterAxisAlignItems := l.crossAlign
      paddingLeft := (l.padding.getD {}).left.asLength
      paddingRight := (l.padding.getD {}).right.asLength
      paddingTop := (l.padding.getD {}).top.asLength
      paddingBottom := (l.padding.getD {}).bottom.asLength
      itemSpacing := (l.gap?.getD 0).asLength } := by
  rw [toAutoLayout] at h
  simp only [orFault_eq_ok_iff, Decoded.seq_eq_ok_iff, Decoded.map_eq_ok_iff] at h
  obtain ⟨_, gap, ⟨_, bottom, ⟨_, top, ⟨_, right, ⟨left, hl, rfl⟩, hr, rfl⟩, ht, rfl⟩, hb, rfl⟩, hg,
    rfl⟩ := h
  rw [← lengthAs_eq_ok hl, ← lengthAs_eq_ok hr, ← lengthAs_eq_ok ht, ← lengthAs_eq_ok hb,
    ← lengthAs_eq_ok hg]

end Layout

namespace Widget

open InRun

/-! ## Children that are not shown -/

/-- The children of texts and images make no difference to lowering. -/
theorem lower_pruned (w : Widget) : w.pruned.lower = w.lower := by
  induction w using Widget.forest_induct (q := fun cs => ∀ parent index,
    lowerChildren (pruned parent) index (cs.map pruned) = lowerChildren parent index cs) with
  | step w children =>
    have own : w.pruned.ownProperties = w.ownProperties := by
      rw [pruned_eq]
      rfl
    have inner : w.pruned.lowerInner = w.lowerInner := by
      have leaf : w.pruned.isLeaf = w.isLeaf := by rw [pruned_eq]; rfl
      unfold lowerInner
      rw [leaf, children_pruned]
      split
      · rfl
      · exact children w 0
    have node : w.pruned.assemble = w.assemble := by
      rw [pruned_eq]
      rfl
    rw [lower_eq_assemble, lower_eq_assemble, own, inner, node]
  | nil => rfl
  | cons c rest first others parent index =>
    have placed : placeChild parent.pruned index c.pruned = placeChild parent index c := by
      rw [pruned_eq, pruned_eq]
      rfl
    rw [List.map_cons, lowerChildren, lowerChildren, first, placed, others]

theorem childless_pruned (w : Widget) : ∀ v ∈ w.pruned.walk, v.isLeaf → v.children = [] := by
  induction w using Widget.induct with
  | step w ih =>
    have leaf : w.pruned.isLeaf = w.isLeaf := by rw [pruned_eq]; rfl
    rw [forall_mem_walk, leaf, children_pruned]
    by_cases hl : w.isLeaf
    · simp [hl]
    · simpa [hl] using ih

/-! ## Nodes with their children -/

/-- A child's node as its parent has placed it, where `r` holds of the node before. The child comes
with its index. -/
def PlacedAt (r : Widget → Node → Prop) (parent : Widget) (child : Widget × Nat)
    (n : Node) : Prop :=
  ∃ node p, r child.1 node ∧
    placedProperties parent child.2 child.1 node.properties = .ok p ∧
    n = { node with properties := p }

theorem placedAt_of_yields {r : Widget → Node → Prop} {parent : Widget} {cs : List Widget}
    (hr : ∀ c ∈ cs, ∀ run n after, c.lower.Yields run n after → r c n) {index : Nat}
    {run after : Run} {ns : List Node} (h : (lowerChildren parent index cs).Yields run ns after) :
    List.Forall₂ (PlacedAt r parent) (cs.zipIdx index) ns := by
  induction cs generalizing index run ns with
  | nil =>
    rw [(yields_lowerChildren_nil.1 h).1]
    exact .nil
  | cons child rest ih =>
    obtain ⟨node, lowered, p, others, hn, hp, ho, rfl⟩ := yields_lowerChildren_cons.1 h
    have first := hr child List.mem_cons_self run node lowered hn
    have hrest := ih (fun c hc => hr c (List.mem_cons_of_mem child hc)) ho
    exact .cons ⟨node, p, first, hp, rfl⟩ hrest

/-- What the steps of lowering make of nodes holds all over the tree: `r` of nodes before they are
placed, and `q` of nodes whose children are placed, wherever they are placed themselves. -/
theorem along_of_yields {r q : Widget → Node → Prop}
    (made : ∀ w p id ms n, w.ownProperties.outcome = .ok p → w.assemble id p ms = .ok n → r w n)
    (around : ∀ w n, r w n → List.Forall₂ (PlacedAt r w) w.children.zipIdx n.children → q w n)
    (moved : ∀ parent index w n p, placedProperties parent index w n.properties = .ok p → q w n →
      q w { n with properties := p })
    (w : Widget) {run after : Run} {n : Node} (h : w.lower.Yields run n after) :
    r w.pruned n ∧ Along q w.pruned n := by
  have shown (w : Widget) (hw : ∀ v ∈ w.walk, v.isLeaf → v.children = []) {run after : Run}
      {n : Node} (h : w.lower.Yields run n after) : r w n ∧ Along q w n := by
    induction w using Widget.induct generalizing run n after with
    | step w ih =>
      obtain ⟨leaf, below⟩ := forall_mem_walk.1 hw
      obtain ⟨p, children, hp, hc, hn⟩ := yields_lower.1 h
      have placed : List.Forall₂ (PlacedAt (fun c m => r c m ∧ Along q c m) w) w.children.zipIdx
          n.children := by
        rw [(isNodeOf_of_assemble hn).children]
        unfold lowerInner at hc
        by_cases hl : w.isLeaf
        · rw [if_pos hl, leaf hl]
          exact .nil
        · rw [if_neg hl] at hc ⊢
          exact placedAt_of_yields (fun c hm run n after => ih c hm (below c hm)) hc
      have alone := made w p _ children n hp hn
      refine ⟨alone, .intro (around w n alone (placed.imp ?_)) ?_⟩
      · rintro c m ⟨node, p, ⟨hr, -⟩, hp, rfl⟩
        exact ⟨node, p, hr, hp, rfl⟩
      · rw [← List.zipIdx_map_fst 0 w.children, List.forall₂_map_left_iff]
        refine placed.imp ?_
        rintro c m ⟨node, p, ⟨-, hq⟩, hp, rfl⟩
        exact .intro (moved w c.2 c.1 node p hp hq.root) hq.children
  rw [← lower_pruned] at h
  exact shown w.pruned w.childless_pruned h

/-- What holds of nodes whatever their children are. -/
theorem along_of_made {q : Widget → Node → Prop}
    (made : ∀ w p id ms n, w.ownProperties.outcome = .ok p → w.assemble id p ms = .ok n → q w n)
    (moved : ∀ parent index w n p, placedProperties parent index w n.properties = .ok p → q w n →
      q w { n with properties := p })
    (w : Widget) {run after : Run} {n : Node} (h : w.lower.Yields run n after) :
    Along q w.pruned n :=
  (along_of_yields made (fun _ _ hn _ => hn) moved w h).2

/-! ## Stacks and automatic layouts -/

/-- The axis of a widget that is no stack is that of its layout hint. -/
theorem exists_mainAxis {w : Widget} {l : Layout} (hl : w.layout = some l)
    (hs : w.isStack = false) : ∃ axis, w.mainAxis = some axis ∧ l.mode = axis.mode := by
  have stackless : l.kind ≠ .stack := by
    intro hk
    rw [isStack, hl, Option.map_some, hk] at hs
    simp at hs
  have axis : w.mainAxis = layoutAxis l := by rw [mainAxis, hl]
  rw [axis, l.mode_eq]
  cases ha : layoutAxis l with
  | none =>
    unfold layoutAxis at ha
    cases hk : l.kind <;> simp_all
  | some axis => exact ⟨axis, rfl, rfl⟩

/-- A frame has an automatic layout if it has a layout hint and is no stack. -/
theorem autoLayout?_cases {w : Widget} {o : Option AutoLayout} (h : w.autoLayout? = .ok o) :
    (∃ l auto, w.isLeaf = false ∧ w.isStack = false ∧ w.layout = some l ∧
        l.toAutoLayout = .ok auto ∧ o = some auto) ∨
      (w.isLeaf = true ∨ w.isStack = true ∨ w.layout = none) ∧ o = none := by
  unfold autoLayout? at h
  by_cases hw : w.isLeaf || w.isStack
  · rw [if_pos hw] at h
    cases h
    rw [Bool.or_eq_true] at hw
    exact .inr ⟨hw.imp_right .inl, rfl⟩
  · rw [if_neg hw] at h
    rw [Bool.or_eq_true, not_or, Bool.not_eq_true, Bool.not_eq_true] at hw
    cases hl : w.layout with
    | none =>
      rw [hl] at h
      cases h
      exact .inr ⟨.inr (.inr rfl), rfl⟩
    | some l =>
      rw [hl] at h
      obtain ⟨auto, ha, rfl⟩ := map_eq_ok_iff.1 h
      exact .inl ⟨l, auto, hw.1, hw.2, rfl, ha, rfl⟩

/-- What a node has from the layout of its widget: a stack has no automatic layout, and says so; the
automatic layout of another frame goes along the axis of the widget. -/
structure LaidOut (w : Widget) (n : Node) : Prop where
  automatic : n.autoLayout.isSome = true ↔
    w.isLeaf = false ∧ w.layout.isSome = true ∧ w.isStack = false
  axis : ∀ auto, n.autoLayout = some auto →
    auto.layoutMode ≠ .none ∧ w.mainAxis.map Axis.mode = some auto.layoutMode
  mode : n.properties.layoutMode = if !w.isLeaf && w.isStack then some .none else none

theorem layoutMode_arranged (w : Widget) (p : NodeProperties) :
    (w.arranged p).layoutMode = if !w.isLeaf && w.isStack then some .none else p.layoutMode := by
  unfold arranged
  cases w.isLeaf with
  | true => rfl
  | false =>
    cases w.isStack with
    | true => rfl
    | false =>
      cases w.layout with
      | none => rfl
      | some l => by_cases hk : l.kind = .wrap <;> simp [Layout.applyWrap, Layout.applyBounds, hk]

theorem laidOut_of_assemble {w : Widget} {p : NodeProperties} {id : Text} {ms : List Node}
    {n : Node} (hp : w.ownProperties.outcome = .ok p) (hn : w.assemble id p ms = .ok n) :
    w.LaidOut n := by
  obtain ⟨⟨description, properties⟩, auto⟩ := parts_of_assemble hn
  have unset : p.layoutMode = none := congrArg NodeFlow.layoutMode (sized_of_ownProperties hp).2.1
  have mode : n.properties.layoutMode = if !w.isLeaf && w.isStack then some .none else none := by
    rw [properties, ← unset]
    exact w.layoutMode_arranged p
  rcases autoLayout?_cases auto with ⟨l, a, leaf, stack, hl, ha, layout⟩ | ⟨without, layout⟩
  · refine ⟨?_, fun b hb => ?_, mode⟩
    · simp [layout, leaf, stack, hl]
    · obtain rfl : a = b := Option.some.inj (layout.symm.trans hb)
      obtain ⟨axis, hx, hm⟩ := exists_mainAxis hl stack
      rw [Layout.eq_of_toAutoLayout ha, hx, hm]
      exact ⟨axis.mode_ne_none, rfl⟩
  · refine ⟨?_, fun b hb => ?_, mode⟩
    · rw [layout]
      rcases without with h | h | h <;> simp [h]
    · rw [layout] at hb
      cases hb

theorem unlayered_of_assemble {w : Widget} {p : NodeProperties} {id : Text} {ms : List Node}
    {n : Node} (hp : w.ownProperties.outcome = .ok p) (hn : w.assemble id p ms = .ok n) :
    n.properties.zIndex = none := by
  have layer : (w.bounded p).zIndex = p.zIndex := by
    unfold bounded
    cases w.isLeaf with
    | true => rfl
    | false => cases w.layout <;> rfl
  rw [(bounded_of_assemble hn).1, layer, (sized_of_ownProperties hp).1]

/-- How a node arranges its children: all in layers, or none of them. -/
structure Arranges (w : Widget) (n : Node) : Prop extends LaidOut w n where
  layers : ∀ (i : Nat) k, n.children[i]? = some k →
    k.properties.zIndex = if w.isStack then some (i : Int) else none

/-- A node that lays its children out arranges them, if none of them was in a layer before. -/
theorem LaidOut.arranges {w : Widget} {n : Node} (h : w.LaidOut n)
    (placed : List.Forall₂ (PlacedAt (fun _ m => m.properties.zIndex = none) w) w.children.zipIdx
      n.children) : w.Arranges n := by
  refine ⟨h, fun i k hk => ?_⟩
  obtain ⟨hi, rfl⟩ := List.getElem?_eq_some_iff.1 hk
  have hc : i < w.children.zipIdx.length := placed.length_eq ▸ hi
  obtain ⟨node, p, unlayered, hp, hn⟩ := placed.get hc hi
  have layer := layer_of_placedProperties hp
  rw [unlayered, List.get_eq_getElem, List.getElem_zipIdx, Nat.zero_add] at layer
  rw [List.get_eq_getElem] at hn
  rw [hn]
  exact layer

/-- The place that a parent gives a node changes nothing about how the node arranges its own
children. -/
theorem Arranges.placed {parent w : Widget} {index : Nat} {n : Node} {p : NodeProperties}
    (hp : placedProperties parent index w n.properties = .ok p) (h : w.Arranges n) :
    w.Arranges { n with properties := p } := by
  obtain ⟨_, _, _, flow⟩ := exists_flow_of_placedProperties hp
  have same : p.layoutMode = n.properties.layoutMode := by rw [flow]
  exact ⟨⟨h.automatic, h.axis, same.trans h.mode⟩, h.layers⟩

/-- **Stacks and automatic layouts exclude each other.** A widget tree is lowered, if its numbers
allow it, to a node for each widget that is not below a text or an image. A frame has an automatic
layout exactly if its widget has a layout hint and is no stack, and then it goes along the axis of
the widget. The children of a stack, and no other nodes, are in layers, each in that of its
index. -/
theorem arranges_of_lower (w : Widget) (run : Run) :
    (w.lower.Returns run ↔ w.lowerable = true) ∧
    ∀ n after, runFrom run w.lower = (.ok n, after) →
      n.properties.zIndex = none ∧
        Along (fun v m => m.widgetId = some v.id ∧ v.Arranges m) w.pruned n := by
  refine ⟨w.returns_lower_iff run, fun n after h => ?_⟩
  have lowered := along_of_yields
    (r := fun v m => m.widgetId = some v.id ∧ v.LaidOut m ∧ m.properties.zIndex = none)
    (q := fun v m => m.widgetId = some v.id ∧ v.Arranges m) ?_ ?_ ?_ w h
  · exact ⟨lowered.1.2.2, lowered.2⟩
  · intro v p id ms m hp hm
    exact ⟨(isNodeOf_of_assemble hm).widgetId, laidOut_of_assemble hp hm,
      unlayered_of_assemble hp hm⟩
  · rintro v m ⟨hid, laidOut, -⟩ placed
    refine ⟨hid, laidOut.arranges (placed.imp ?_)⟩
    rintro c k ⟨node, p, ⟨-, -, unlayered⟩, hp, rfl⟩
    exact ⟨node, p, unlayered, hp, rfl⟩
  · rintro parent index v m p hp ⟨hid, arranges⟩
    exact ⟨hid, arranges.placed hp⟩

theorem arranges_of_lower_deck :
    let bar : Widget := { id := "bar", kind := .container, layout := some { kind := .row },
                          children := [{ id := "title", kind := .text }] }
    let deck : Widget := { id := "deck", kind := .container, layout := some { kind := .stack },
                           children := [bar, { id := "badge", kind := .image }] }
    ∃ n after, runFrom {} deck.lower = (.ok n, after) ∧ n.properties.zIndex = none ∧
      Along (fun v m => m.widgetId = some v.id ∧ v.Arranges m) deck.pruned n := by
  intro bar deck
  obtain ⟨n, after, h⟩ := (arranges_of_lower deck {}).1.2 (by decide +kernel)
  exact ⟨n, after, h, (arranges_of_lower deck {}).2 n after h⟩

end Widget

end DesignTree
