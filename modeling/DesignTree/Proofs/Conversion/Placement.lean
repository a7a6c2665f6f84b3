import DesignTree.Proofs.Conversion.Basic

/-! # The placement of instances

An instance takes the spot of the node that it stands for: its coordinates, its layer, its pins and
its sizings. Its size and its share of the space are those of the node only where the usage has none
of its own (`Swap.Sits`). The place and the layout of a usage go over its own size when it is
lowered, but not when it is replaced. So an instance keeps the whole placement of its node exactly
if the usage asks for nothing else than it is given (`convert_keeps_placement_iff`).
-/

namespace DesignTree

open InRun

/-! ## Extents -/

theorem rel_orElse_iff {α : Type} {r : α → α → Prop} (hr : ∀ x, r x x) (a b : Option α) :
    Option.Rel r (a <|> b) b ↔ ∀ x ∈ a, ∃ y ∈ b, r x y := by
  have self : Option.Rel r b b := by
    cases b with
    | none => exact .none
    | some y => exact .some (hr y)
  cases a with
  | none => exact iff_of_true self fun x hx => nomatch hx
  | some x =>
    constructor
    · intro h x' hx'
      cases hx'
      cases h with
      | some hxy => exact ⟨_, rfl, hxy⟩
    · intro h
      obtain ⟨y, hy, hxy⟩ := h x rfl
      cases hy
      exact .some hxy

/-- Where a value is put under one that is given, it can differ from the outcome only as it differs
from the given one. -/
theorem forall_exists_orElse_iff {α : Type} {r : α → α → Prop} (hr : ∀ x, r x x)
    (given own : Option α) :
    (∀ x ∈ own, ∃ y ∈ given <|> own, r x y) ↔ ∀ x ∈ own, ∀ y ∈ given, r x y := by
  cases given with
  | none => exact iff_of_true (fun x hx => ⟨x, hx, hr x⟩) fun x _ y hy => nomatch hy
  | some g =>
    refine forall_congr' fun x => forall_congr' fun _ => ?_
    constructor
    · rintro ⟨y, hy, hxy⟩ z hz
      cases hy
      cases hz
      exact hxy
    · intro h
      exact ⟨g, rfl, h g rfl⟩

/-- Extents of the same lengths. -/
structure Extent.Same (a b : Extent) : Prop where
  width : a.width.Rel Number.SameLength b.width
  height : a.height.Rel Number.SameLength b.height
  grow : a.grow.Rel Number.SameLength b.grow

namespace Widget

/-- The size and the share of the space that a usage asks for. A share of zero asks for none. -/
def askedExtent (w : Widget) : Extent :=
  { w.ownExtent with grow := (w.properties.flex.filter (!·.isZero)).map Number.asLength }

/-- A usage asks for nothing else than it is given by its layout and its parent. -/
structure AsksAsGiven (parent : Option Widget) (w : Widget) : Prop where
  width : ∀ own ∈ w.askedExtent.width, ∀ given ∈ (givenExtent parent w).width, own.SameLength given
  height : ∀ own ∈ w.askedExtent.height, ∀ given ∈ (givenExtent parent w).height,
    own.SameLength given
  grow : ∀ own ∈ w.askedExtent.grow, ∃ given ∈ (givenExtent parent w).grow, own.SameLength given

/-- What a widget asks for is the extent of its node, put over it, exactly if it asks for nothing
else than it is given. -/
theorem same_askedExtent_iff (parent : Option Widget) (w : Widget) :
    (w.askedExtent.above (loweredExtent parent w)).Same (loweredExtent parent w) ↔
      w.AsksAsGiven parent := by
  have self (n : Number) : n.SameLength n := .inl rfl
  have alone : (loweredExtent parent w).grow = (givenExtent parent w).grow := by
    show ((givenExtent parent w).grow <|> none) = (givenExtent parent w).grow
    cases (givenExtent parent w).grow <;> rfl
  constructor
  · rintro ⟨hw, hh, hg⟩
    have width := (forall_exists_orElse_iff self _ _).1 ((rel_orElse_iff self _ _).1 hw)
    have height := (forall_exists_orElse_iff self _ _).1 ((rel_orElse_iff self _ _).1 hh)
    have grow := (rel_orElse_iff self _ _).1 hg
    rw [alone] at grow
    exact ⟨width, height, grow⟩
  · rintro ⟨hw, hh, hg⟩
    have width := (rel_orElse_iff self _ _).2 ((forall_exists_orElse_iff self _ _).2 hw)
    have height := (rel_orElse_iff self _ _).2 ((forall_exists_orElse_iff self _ _).2 hh)
    rw [← alone] at hg
    exact ⟨width, height, (rel_orElse_iff self _ _).2 hg⟩

end Widget

/-- Properties with the same coordinates, the same layer, the same pins and the same sizings. -/
structure NodeProperties.SameSpot (p q : NodeProperties) : Prop where
  x : p.x = q.x
  y : p.y = q.y
  zIndex : p.zIndex = q.zIndex
  constraints : p.constraints = q.constraints
  horizontal : p.layoutSizingHorizontal = q.layoutSizingHorizontal
  vertical : p.layoutSizingVertical = q.layoutSizingVertical

/-- Properties with the same placement as a whole. -/
structure NodeProperties.SamePlacement (p q : NodeProperties) : Prop extends p.SameSpot q where
  extent : p.extent.Same q.extent

theorem NodeProperties.PlacedAlike.extent {p q : NodeProperties} (h : p.PlacedAlike q) :
    q.extent = p.extent := by
  obtain ⟨geometry, flow⟩ := h
  unfold NodeProperties.extent
  rw [geometry, flow]

/-- In a styled tree all nodes are as large as their widgets are given to be. -/
theorem Synthesizer.sized_of_lower {s : Synthesizer} {r : Resolver} (hr : s.resolver = some r)
    {w : Widget} {run after : Run} {m : Node} (h : (s.lower w).Yields run m after) :
    Widget.Sized none w m := by
  obtain ⟨n, lowered, hn, hm⟩ := yields_lower.1 h
  rw [hr] at hm
  obtain ⟨hs, rfl, -⟩ := hm
  have sized := w.sized_of_yields hn hs
  unfold Widget.Sized at sized ⊢
  rw [r.labels_styleTree fun n p _ _ _ hp => congrArg (Prod.mk n.widgetId) hp.extent]
  exact sized

/-! ## Swaps -/

/-- A usage and its parent, the node that it was lowered to, and the instance in the place of that
node. -/
structure Swap where
  parent : Option Widget
  usage : Widget
  lowered : Node
  placed : Node

namespace Swap

/-- The instance of a swap sits where the node was. Its extent is that of the node where the usage
asks for none. -/
structure Sits (s : Swap) : Prop where
  kind : s.placed.kind = .componentInstance
  spot : s.placed.properties.SameSpot s.lowered.properties
  extent : s.placed.properties.extent = s.usage.askedExtent.above s.lowered.properties.extent

/-- The swaps that lead from one tree of nodes to another one: one for each topmost usage, from left
to right. -/
structure Listed (used : Text → Bool) (parent : Option Widget) (w : Widget) (n m : Node)
    (swaps : List Swap) : Prop where
  sites : swaps.map (fun s => (s.parent, s.usage)) = w.sites used parent
  lowered : swaps.map (·.lowered) = n.topmost used
  placed : swaps.map (·.placed) = m.topmost used

theorem Sits.samePlacement_iff {s : Swap} (h : s.Sits)
    (hl : s.lowered.properties.extent = s.usage.loweredExtent s.parent) :
    s.placed.properties.SamePlacement s.lowered.properties ↔ s.usage.AsksAsGiven s.parent := by
  have extent : s.placed.properties.extent.Same s.lowered.properties.extent ↔
      s.usage.AsksAsGiven s.parent := by
    rw [h.extent, hl, Widget.same_askedExtent_iff]
  constructor
  · intro same
    exact extent.1 same.extent
  · intro asks
    exact ⟨h.spot, extent.2 asks⟩

end Swap

namespace Catalog

variable {c : Catalog} {us : Usages} {run after : Run}

/-- The instance in the place of a node. -/
theorem sits_of_replace {componentId : Text} (parent : Option Widget) {w : Widget} {n m : Node}
    (h : (c.replace componentId w n).Yields run m after) : Swap.Sits ⟨parent, w, n, m⟩ := by
  obtain ⟨b, p, -, hp, -, rfl⟩ := yields_replace.1 h
  obtain rfl := BuiltComponent.eq_of_instanceProperties hp
  exact ⟨rfl, ⟨rfl, rfl, rfl, rfl, rfl, rfl⟩, rfl⟩

/-- The swaps of siblings stand one after the other. -/
theorem swaps_children {used : Text → Bool} (parent : Widget) {ws : List Widget}
    {ns ms : List Node}
    (h : InTurn (fun w n m _ _ => ∀ parent, ∃ swaps, Swap.Listed used parent w n m swaps ∧
      ∀ s ∈ swaps, s.Sits) ws ns ms run after) :
    ∃ swaps : List Swap,
      swaps.map (fun s => (s.parent, s.usage)) = ws.flatMap (Widget.sites used (some parent)) ∧
      swaps.map (·.lowered) = ns.flatMap (Node.topmost used) ∧
      swaps.map (·.placed) = ms.flatMap (Node.topmost used) ∧ ∀ s ∈ swaps, s.Sits := by
  induction h with
  | nil => exact ⟨[], rfl, rfl, rfl, fun s hs => absurd hs List.not_mem_nil⟩
  | cons first _ ih =>
    obtain ⟨one, listed, sits⟩ := first (some parent)
    obtain ⟨others, sites, lowered, placed, otherSits⟩ := ih
    refine ⟨one ++ others, ?_, ?_, ?_, List.forall_mem_append.2 ⟨sits, otherSits⟩⟩
    · rw [List.map_append, List.flatMap_cons, listed.sites, sites]
    · rw [List.map_append, List.flatMap_cons, listed.lowered, lowered]
    · rw [List.map_append, List.flatMap_cons, listed.placed, placed]

/-- What is yielded where each node has the identifier of its widget: one swap for each topmost
usage. -/
theorem swaps_of_yields (parent : Option Widget) (w : Widget) {n m : Node}
    (hl : n.labels Node.widgetId = w.labels (fun v => some v.id))
    (h : (c.placeInstances us w n).Yields run m after) :
    ∃ swaps, Swap.Listed us.has parent w n m swaps ∧ ∀ s ∈ swaps, s.Sits := by
  refine placeInstances_induct (motive := fun w n m _ _ => ∀ parent, ∃ swaps,
    Swap.Listed us.has parent w n m swaps ∧ ∀ s ∈ swaps, s.Sits) ?_ ?_ w hl h parent
  · intro w n m run after componentId hid hu hm parent
    have used : us.has w.id = true := by rw [Entries.has, hu, Option.isSome_some]
    have sits := sits_of_replace parent hm
    obtain ⟨b, p, -, -, -, rfl⟩ := yields_replace.1 hm
    refine ⟨[_], ⟨?_, ?_, ?_⟩, List.forall_mem_singleton.2 sits⟩
    · rw [Widget.sites_eq, if_pos used]
      rfl
    · rw [Node.topmost_eq, hid, Option.any_some, if_pos used]
      rfl
    · rw [Node.topmost_eq, Option.any_some, if_pos used]
      rfl
  · intro w n ms run after hid hu hm parent
    have unused : ¬us.has w.id = true := by
      rw [Entries.has, hu]
      exact Bool.false_ne_true
    obtain ⟨swaps, sites, lowered, placed, sits⟩ := swaps_children w hm
    refine ⟨swaps, ⟨?_, ?_, ?_⟩, sits⟩
    · rw [Widget.sites_eq, if_neg unused, sites]
    · rw [Node.topmost_eq, hid, Option.any_some, if_neg unused, lowered]
    · rw [Node.topmost_eq, hid, Option.any_some, if_neg unused, placed]

end Catalog

namespace Converter

/-! ## Placement -/

/-- **Which instances keep their placement.** Against the conversion without reusable widgets each
topmost usage has an instance in the spot of its node. The instance has the placement of the node as
a whole exactly if the usage asks for nothing else than it is given by its layout and its parent. -/
theorem convert_keeps_placement_iff (c : Converter) (root : Widget) (theme : Option Theme)
    (ds : List Definition) (modes : Entries Theme) (r : Conversion)
    (h : c.convert root theme ds modes = .ok r) :
    ∃ plain swaps, c.convert root theme [] modes = .ok plain ∧
      Swap.Listed (fun id => ds.any fun d => d.usageIds.contains id) none root plain.root r.root
        swaps ∧
      ∀ s ∈ swaps, s.Sits ∧ (s.placed.properties.SamePlacement s.lowered.properties ↔
        s.usage.AsksAsGiven s.parent) := by
  obtain ⟨tokens, node, catalog, after, library, ht, hy, hl, rfl⟩ := convert_eq_ok_iff.1 h
  obtain ⟨limit, styled, lowered, built, hlimit, hs, hb, hp⟩ := yields_convertTree.1 hy
  obtain ⟨plain, hplain, rfl⟩ := exists_convert_nil ht hlimit hs hl
  obtain ⟨swaps, listed, sits⟩ := Catalog.swaps_of_yields none root
    (labels_widgetId (Synthesizer.labels_lower rfl hs)) hp
  have extents := Node.map_topmost_of_labels (Synthesizer.sized_of_lower rfl hs)
    (Usages.ofCatalog catalog).has
  rw [← listed.lowered, ← listed.sites, List.map_map, List.map_map, List.map_inj_left] at extents
  have husages : (Usages.ofCatalog catalog).has = fun id =>
      ds.any fun d => d.usageIds.contains id := by
    funext id
    rw [Usages.has_ofCatalog, Synthesizer.definitions_buildAll hb]
  rw [husages] at listed
  refine ⟨plain, swaps, hplain, listed, fun s hs => ⟨sits s hs, ?_⟩⟩
  exact (sits s hs).samePlacement_iff (extents s hs)

theorem convert_keeps_placement_iff_stack :
    let save : Widget := { id := "save", kind := .button,
                           position := some { right := some 10, width := some 50 } }
    let next : Widget := { id := "next", kind := .button, properties := { width := some 100 },
                           position := some { right := some 10, width := some 50 } }
    let stack : Widget := { id := "stack", kind := .stack, children := [save, next] }
    let button : Definition := { widget := save, name := "Button", usageIds := ["save", "next"] }
    ∃ r plain swaps, (⟨{}, .ofNat 4, .text "Library", .text "1"⟩ : Converter).convert stack none
        [button] = .ok r ∧
      (⟨{}, .ofNat 4, .text "Library", .text "1"⟩ : Converter).convert stack none [] = .ok plain ∧
      Swap.Listed (fun id => [button].any fun d => d.usageIds.contains id) none stack plain.root
        r.root swaps ∧
      ∀ s ∈ swaps, s.Sits ∧ (s.placed.properties.SamePlacement s.lowered.properties ↔
        s.usage.AsksAsGiven s.parent) := by
  intro save next stack button
  obtain ⟨r, h⟩ := isOk_iff.1 (by decide +kernel :
    ((⟨{}, .ofNat 4, .text "Library", .text "1"⟩ : Converter).convert stack none [button]).isOk)
  obtain ⟨plain, swaps, hplain, listed, sits⟩ :=
    convert_keeps_placement_iff _ stack none [button] [] r h
  exact ⟨r, plain, swaps, h, hplain, listed, sits⟩

/-- A usage that is placed in a stack with a width, and has another width of its own: its instance
keeps the place that was reckoned from the former, but has the latter. -/
theorem convert_placed_usage_of_own_width :
    let save : Widget := { id := "save", kind := .button, properties := { width := some 100 },
                           position := some { right := some 10, width := some 50 } }
    let stack : Widget := { id := "stack", kind := .stack, children := [save] }
    let button : Definition := { widget := save, name := "Button", usageIds := ["save"] }
    let c : Converter := ⟨{}, .ofNat 4, .text "Library", .text "1"⟩
    let placement (n : Node) := (n.kind, n.properties.x, n.properties.width)
    ∃ r plain, c.convert stack none [button] = .ok r ∧ c.convert stack none [] = .ok plain ∧
      plain.root.children.map placement = [(.component, some (.int (-60)), some 50)] ∧
      r.root.children.map placement =
        [(.componentInstance, some (.int (-60)), some (.float (.ofInt 100)))] := by
  intro save stack button c placement
  have lowered : (c.convert stack none []).toOption.any fun plain =>
      plain.root.children.map placement = [(.component, some (.int (-60)), some 50)] := by
    decide +kernel
  have placed : (c.convert stack none [button]).toOption.any fun r =>
      r.root.children.map placement =
        [(.componentInstance, some (.int (-60)), some (.float (.ofInt 100)))] := by
    decide +kernel
  obtain ⟨plain, hplain, hlowered⟩ := exists_of_any lowered
  obtain ⟨r, hr, hplaced⟩ := exists_of_any placed
  exact ⟨r, plain, hr, hplain, of_decide_eq_true hlowered, of_decide_eq_true hplaced⟩

end Converter

end DesignTree
