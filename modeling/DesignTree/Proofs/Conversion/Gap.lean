import DesignTree.Proofs.Conversion.Along
import DesignTree.Proofs.Lowering.Arrangement
import DesignTree.Proofs.Style.Ending

/-! # The gap of frames that wrap

A frame whose children go on in new lines has the gap between them twice: in its properties, and in
its automatic layout. Lowering takes both from the layout of the widget. Styling approximates a
margin by the gap of the automatic layout, and leaves the other one as it was. So the two are one
number exactly if there is no margin, or its widest edge is the gap of the layout
(`Converter.wraps_of_convert`).
-/

namespace DesignTree

namespace Widget

/-- The gap between the children of a frame whose layout lets them go on in new lines. -/
def wrapGap? (w : Widget) : Option Number :=
  if w.isLeaf || w.isStack then none
  else (w.layout.filter (·.kind = .wrap)).map fun l => l.gap?.getD 0

/-- The margin of a widget. -/
def margin? (w : Widget) : Option EdgeInsets := w.styling.spacing.bind (·.margin)

/-- The gap of an automatic layout after styling: the widest edge of the margin, if there is one. -/
def styledGap (w : Widget) (gap : Number) : Number :=
  (w.margin?.map EdgeInsets.maxEdge).getD gap.asLength

/-- A node has a gap in its properties, if it has one, and its automatic layout has what `spacing`
makes of it. -/
structure Gapped (gap? : Option Number) (spacing : Number → Number) (n : Node) : Prop where
  wrap : n.properties.layoutWrap = gap?.map fun _ => ("WRAP" : Text)
  gap : n.properties.itemSpacing = gap?
  automatic : ∀ gap, gap? = some gap →
    ∃ auto, n.autoLayout = some auto ∧ auto.itemSpacing = spacing gap

/-- A node wraps if its widget does, unless it is an instance. It has then the gap of its widget's
layout in its properties, and that of the styled widget in its automatic layout. -/
structure Wraps (w : Widget) (n : Node) : Prop where
  wrap : n.properties.layoutWrap = some "WRAP" ↔
    n.kind ≠ .componentInstance ∧ w.wrapGap?.isSome = true
  gap : n.properties.layoutWrap = some "WRAP" → ∃ gap auto, w.wrapGap? = some gap ∧
    n.properties.itemSpacing = some gap ∧ n.autoLayout = some auto ∧
    auto.itemSpacing = w.styledGap gap ∧
    (auto.itemSpacing.SameLength gap ↔
      (∀ m, w.margin? = some m → m.maxEdge.SameLength gap) ∧
      (w.margin? = none → gap.asLength.SameLength gap))

theorem wraps_of_gapped {w : Widget} {n : Node} (hk : n.kind ≠ .componentInstance)
    (h : Gapped w.wrapGap? w.styledGap n) : w.Wraps n := by
  have wrap := h.wrap
  have spacing := h.gap
  cases hg : w.wrapGap? with
  | none =>
    rw [hg] at wrap
    refine ⟨?_, fun hw => ?_⟩
    · simp [wrap, hg]
    · cases wrap.symm.trans hw
  | some gap =>
    rw [hg] at wrap spacing
    obtain ⟨auto, ha, styled⟩ := h.automatic gap hg
    refine ⟨by simp [wrap, hg, hk], fun _ => ⟨gap, auto, hg, spacing, ha, styled, ?_⟩⟩
    rw [styled, styledGap]
    cases w.margin? <;> simp

/-! ## Lowering -/

theorem wrap_arranged (w : Widget) {p : NodeProperties} (wrap : p.layoutWrap = none)
    (spacing : p.itemSpacing = none) :
    (w.arranged p).layoutWrap = w.wrapGap?.map (fun _ => ("WRAP" : Text)) ∧
      (w.arranged p).itemSpacing = w.wrapGap? := by
  unfold arranged bounded wrapGap?
  cases w.isLeaf with
  | true => exact ⟨wrap, spacing⟩
  | false =>
    cases hs : w.isStack <;> cases w.layout with
    | none => exact ⟨wrap, spacing⟩
    | some l =>
      by_cases hk : l.kind = .wrap <;>
        simp [Layout.applyWrap, Layout.applyBounds, hk, wrap, spacing, Option.filter]

theorem gapped_of_assemble {w : Widget} {p : NodeProperties} {id : Text} {ms : List Node}
    {n : Node} (hp : w.ownProperties.outcome = .ok p) (hn : w.assemble id p ms = .ok n) :
    Gapped w.wrapGap? Number.asLength n := by
  obtain ⟨⟨description, properties⟩, auto⟩ := parts_of_assemble hn
  have flow := (sized_of_ownProperties hp).2.1
  obtain ⟨wrap, spacing⟩ := w.wrap_arranged (p := p) (by rw [flow]) (by rw [flow])
  refine ⟨by rw [properties, wrap], by rw [properties, spacing], fun gap hg => ?_⟩
  unfold wrapGap? at hg
  rcases autoLayout?_cases auto with ⟨l, a, leaf, stack, hl, ha, layout⟩ | ⟨without, -⟩
  · refine ⟨a, layout, ?_⟩
    rw [leaf, stack, hl] at hg
    obtain ⟨m, hm, rfl⟩ := Option.map_eq_some_iff.1 hg
    obtain rfl : l = m := Option.some.inj (Option.filter_eq_some_iff.1 hm).1
    rw [Layout.eq_of_toAutoLayout ha]
  · rcases without with h | h | h <;> simp [h, Option.filter] at hg

theorem gapped_of_yields (w : Widget) {run after : Run} {n : Node}
    (h : w.lower.Yields run n after) :
    Along (fun v m => m.kind = v.kind.nodeKind ∧ Gapped v.wrapGap? Number.asLength m) w.pruned
      n := by
  refine along_of_made ?_ ?_ w h
  · exact fun _ _ _ _ _ hp hm => ⟨(isNodeOf_of_assemble hm).kind, gapped_of_assemble hp hm⟩
  · rintro parent index v m p hp ⟨kind, wrap, gap, automatic⟩
    obtain ⟨_, _, _, flow⟩ := exists_flow_of_placedProperties hp
    exact ⟨kind, by rw [flow]; exact wrap, by rw [flow]; exact gap, automatic⟩

end Widget

/-! ## Styling -/

namespace Resolver

/-- On a node that is no text and has an automatic layout a styling writes its margin. -/
theorem margin_stylingAccount (r : Resolver) {t : Node.Traits} {s : Styling}
    (ht : t.kind ≠ .text) (hl : t.laidOut = true) :
    (r.stylingAccount t s).edit.margin = s.spacing.bind (·.margin) := by
  have spacing : (s.spacing.elim .nothing (spacingAccount t.laidOut) : Account).edit.margin =
      s.spacing.bind (·.margin) := by
    rw [hl]
    cases s.spacing <;> rfl
  obtain ⟨_, _, _, _, _, _, edits, -⟩ := r.edits_aspectAccounts t s
  simp only [aspectAccounts, List.map_cons, List.map_nil, List.cons.injEq, and_true] at edits
  obtain ⟨colors, -, -, borders, shadows⟩ := edits
  rw [edit_stylingAccount ht, colors, borders, shadows, ← spacing]
  simp

/-- A styling leaves the gap in the properties of a node as it was. -/
theorem gapped_style (r : Resolver) (w : Widget) {n : Node} (hk : n.kind = w.kind.nodeKind)
    (h : Widget.Gapped w.wrapGap? Number.asLength n) :
    (r.style w n).node.kind = n.kind ∧
      Widget.Gapped w.wrapGap? w.styledGap (r.style w n).node := by
  have node : (r.style w n).node = _ := r.node_applyStyles w.styling n
  rw [node]
  refine ⟨rfl, h.wrap, h.gap, fun gap hg => ?_⟩
  obtain ⟨auto, ha, spacing⟩ := h.automatic gap hg
  have frame : n.traits.kind ≠ .text := by
    intro text
    have leaf : w.isLeaf = true := by
      rw [w.isLeaf_eq, ← hk, show n.kind = .text from text]
      rfl
    rw [Widget.wrapGap?, leaf] at hg
    cases hg
  have margin := r.margin_stylingAccount (s := w.styling) frame
    (show n.autoLayout.isSome = true by rw [ha]; rfl)
  have automatic : (clearPaints w.styling n).autoLayout = some auto := ha
  refine ⟨_, congrArg (Option.map _) automatic, ?_⟩
  rw [Edit.itemSpacing_layout, margin, spacing]
  rfl

end Resolver

/-! ## Conversions -/

namespace Converter

/-- **Styling moves one of the two gaps of a frame that wraps.** All over the trees of a conversion
the nodes that wrap are those whose widgets do, but for instances. Their properties have the gap of
the layout. Their automatic layouts have it, too, but with a margin the widest edge of that. So the
two are one length exactly if the edge is, or without a margin if the gap has an exact double. -/
theorem wraps_of_convert (c : Converter) (root : Widget) (theme : Option Theme)
    (ds : List Definition) (modes : Entries Theme) (r : Conversion)
    (h : c.convert root theme ds modes = .ok r) : r.Along Widget.Wraps root ds := by
  refine along_of_convert ⟨fun _ _ _ hn => ⟨hn.wrap, hn.gap⟩, fun _ _ _ hn => ⟨hn.wrap, hn.gap⟩⟩
    (fun w _ _ _ hn => w.gapped_of_yields hn) ?_ ?_ ?_ h
  · rintro r w n ⟨hk, hg⟩
    obtain ⟨kind, gapped⟩ := r.gapped_style w hk hg
    refine Widget.wraps_of_gapped ?_ gapped
    rw [kind, hk]
    exact w.kind.nodeKind_ne_componentInstance
  · intro w n name description hk hn
    refine ⟨hn.wrap.trans (and_congr_left fun _ => iff_of_true hk ?_), hn.gap⟩
    exact nofun
  · intro b w n own id name hp hn
    have unset : (own.inPlaceOf n.properties).layoutWrap = none := by
      rw [BuiltComponent.eq_of_instanceProperties hp]
      rfl
    refine ⟨iff_of_false ?_ fun hw => hw.1 rfl, fun hw => ?_⟩
    · exact fun hw => nomatch unset.symm.trans hw
    · exact nomatch unset.symm.trans hw

theorem wraps_of_convert_tags :
    let tag : Widget := { id := "tag", kind := .button }
    let tags : Widget := { id := "tags", kind := .container,
                           layout := some { kind := .wrap, spacing := some 8 },
                           styling := {
                             givenSpacing := some (some { margin := some { top := 4 } }) },
                           children := [tag] }
    let button : Definition := { widget := tag, name := "Tag", usageIds := ["tag"] }
    let c : Converter := ⟨{}, .ofNat 4, .text "Library", .text "1"⟩
    ∃ r, c.convert tags none [button] = .ok r ∧ r.Along Widget.Wraps tags [button] := by
  intro tag tags button c
  obtain ⟨r, h⟩ := isOk_iff.1 (by decide +kernel : (c.convert tags none [button]).isOk)
  exact ⟨r, h, wraps_of_convert c tags none [button] [] r h⟩

/-- A frame that wraps and has a margin: the gap in its properties is still that of its layout. -/
theorem convert_wrapped_with_margin :
    let tags : Widget := { id := "tags", kind := .container,
                           layout := some { kind := .wrap, spacing := some 8 },
                           styling := {
                             givenSpacing := some (some { margin := some { top := 4 } }) } }
    let c : Converter := ⟨{}, .ofNat 4, .text "Library", .text "1"⟩
    ∃ r auto, c.convert tags none [] = .ok r ∧ r.root.properties.layoutWrap = some "WRAP" ∧
      r.root.properties.itemSpacing = some 8 ∧ r.root.autoLayout = some auto ∧
      auto.itemSpacing = 4 ∧ ¬ auto.itemSpacing.SameLength 8 := by
  intro tags c
  have gaps : (c.convert tags none []).toOption.any fun r =>
      (r.root.properties.layoutWrap, r.root.properties.itemSpacing,
        r.root.autoLayout.map (·.itemSpacing)) = (some ("WRAP" : Text), some 8, some 4) := by
    decide +kernel
  obtain ⟨r, h, hg⟩ := exists_of_any gaps
  simp only [decide_eq_true_eq, Prod.mk.injEq, Option.map_eq_some_iff] at hg
  obtain ⟨wrap, spacing, auto, ha, moved⟩ := hg
  refine ⟨r, auto, h, wrap, spacing, ha, moved, ?_⟩
  rw [moved, Number.SameLength]
  decide

end Converter

end DesignTree
