import DesignTree.Proofs.Run.Outcome
import DesignTree.Proofs.Style.Change
import DesignTree.Proofs.Tree.Basic
import DesignTree.Style.Tree

/-! # What styling looks at and what it leaves alone

Styling a node looks at nothing of it but its kind, its properties and its automatic layout, and
changes the latter two (`Restyles`), though not the place of the node, its size or how it arranges
its children (`NodeProperties.PlacedAlike`); at the end it adds bindings (`applyStyles_restyle`).

A whole tree is styled here by a recursion over it (`styleTree`); that the walk with a stack does
the same is shown in `DesignTree.Proofs.Style.Stack`. A styled tree has the labels of the tree
before, for labels that look at nothing else (`labels_styleTree`), and styling a tree completes
exactly if it has the shape of the widget tree (`complete_styleTree_iff`).
-/

namespace DesignTree

/-- Properties that give a node one place and size and arrange its children in one way. -/
def NodeProperties.PlacedAlike (p q : NodeProperties) : Prop :=
  p.toNodeGeometry = q.toNodeGeometry ∧ p.toNodeFlow = q.toNodeFlow

namespace NodeProperties.PlacedAlike

theorem refl (p : NodeProperties) : p.PlacedAlike p := ⟨rfl, rfl⟩

theorem trans {p q r : NodeProperties} (h : p.PlacedAlike q) (g : q.PlacedAlike r) :
    p.PlacedAlike r :=
  ⟨h.1.trans g.1, h.2.trans g.2⟩

end NodeProperties.PlacedAlike

namespace Node

/-- A node with other properties and another automatic layout. -/
def restyle (n : Node) (p : NodeProperties) (layout : Option AutoLayout) : Node :=
  { n with properties := p, autoLayout := layout }

@[simp]
theorem kind_restyle (n : Node) (p : NodeProperties) (layout : Option AutoLayout) :
    (n.restyle p layout).kind = n.kind := rfl

@[simp]
theorem restyle_self (n : Node) : n.restyle n.properties n.autoLayout = n := by
  cases n
  rfl

/-- A node with other properties that place it alike, another automatic layout and other
bindings. -/
def Restyled (n m : Node) : Prop :=
  ∃ properties autoLayout bindings, n.properties.PlacedAlike properties ∧
    m = { n with properties, autoLayout, bindings }

end Node

namespace Resolver

/-! ## Changes that restyle -/

/-- On the nodes of a kind with these properties and this automatic layout a change has one result,
and changes nothing but the latter two. -/
def RestylesFrom {α : Type} (c : Change α) (kind : NodeKind) (p : NodeProperties)
    (layout : Option AutoLayout) : Prop :=
  ∃ result q other, p.PlacedAlike q ∧ ∀ n : Node, n.kind = kind →
    StateT.run (ExceptT.run c) (n.restyle p layout) = (result, n.restyle q other)

/-- A change whose result hangs on the kind, the properties and the automatic layout of a node
alone, and which changes nothing but the latter two. -/
def Restyles {α : Type} (c : Change α) : Prop := ∀ kind p layout, RestylesFrom c kind p layout

variable {α β : Type}

theorem restyles_pure (a : α) : Restyles (pure a : Change α) :=
  fun _ p layout => ⟨.ok a, p, layout, .refl p, fun _ _ => rfl⟩

theorem restyles_throw (e : Rejection) : Restyles (throw e : Change α) :=
  fun _ p layout => ⟨.error e, p, layout, .refl p, fun _ _ => rfl⟩

theorem RestylesFrom.bind {c : Change α} {f : α → Change β} {kind : NodeKind} {p : NodeProperties}
    {layout : Option AutoLayout} (hc : RestylesFrom c kind p layout) (hf : ∀ a, Restyles (f a)) :
    RestylesFrom (c >>= f) kind p layout := by
  obtain ⟨rejection | a, q, other, hq, h⟩ := hc
  · refine ⟨.error rejection, q, other, hq, fun n hn => ?_⟩
    rw [ExceptT.run_bind, StateT.run_bind, h n hn]
    rfl
  · obtain ⟨result, q', other', hq', h'⟩ := hf a kind q other
    refine ⟨result, q', other', hq.trans hq', fun n hn => ?_⟩
    rw [ExceptT.run_bind, StateT.run_bind, h n hn]
    exact h' n hn

theorem Restyles.bind {c : Change α} {f : α → Change β} (hc : Restyles c)
    (hf : ∀ a, Restyles (f a)) : Restyles (c >>= f) :=
  fun kind p layout => (hc kind p layout).bind hf

/-- What comes after a look at the node has to hang on what styling looks at. -/
theorem restyles_get_bind {f : Node → Change β}
    (hf : ∀ n, RestylesFrom (f n) n.kind n.properties n.autoLayout)
    (hl : ∀ (n m : Node) (p : NodeProperties) (layout : Option AutoLayout), n.kind = m.kind →
      f (n.restyle p layout) = f (m.restyle p layout)) : Restyles (get >>= f) := by
  intro kind p layout
  let sample : Node := { kind, name := "" }
  obtain ⟨result, q, other, hq, h⟩ := hf (sample.restyle p layout)
  refine ⟨result, q, other, hq, fun n hn => ?_⟩
  exact (congrArg (fun c => StateT.run (ExceptT.run c) _) (hl n sample p layout hn)).trans
    (h n hn)

theorem restylesFrom_modifyProperties {f : NodeProperties → NodeProperties} (kind : NodeKind)
    {p : NodeProperties} (layout : Option AutoLayout) (h : p.PlacedAlike (f p)) :
    RestylesFrom (modifyProperties f) kind p layout :=
  ⟨.ok (), f p, layout, h, fun _ _ => rfl⟩

theorem restyles_modifyProperties {f : NodeProperties → NodeProperties}
    (h : ∀ p : NodeProperties, p.PlacedAlike (f p)) : Restyles (modifyProperties f) :=
  fun kind p layout => restylesFrom_modifyProperties kind layout (h p)

theorem restyles_applyLiteral (c : ColorEntry) : Restyles (applyLiteral c) := by
  unfold applyLiteral
  simp only
  split
  · exact restyles_pure _
  next add hadd =>
    split
    · refine (restyles_modifyProperties fun p => ?_).bind fun _ => restyles_pure _
      split at hadd
      · cases hadd
        exact ⟨rfl, rfl⟩
      · rw [Option.ite_none_right_eq_some, Option.some.injEq] at hadd
        rw [← hadd.2]
        exact ⟨rfl, rfl⟩
    · exact restyles_pure _

theorem restyles_applyColor (r : Resolver) (c : ColorEntry) : Restyles (r.applyColor c) := by
  unfold applyColor
  split
  · refine (restyles_applyLiteral c).bind fun result => ?_
    cases result <;> exact restyles_pure _
  · split
    · exact restyles_pure _
    · split
      · refine (restyles_applyLiteral c).bind fun result => ?_
        cases result <;> exact restyles_pure _
      · exact restyles_pure _

theorem restyles_applyColors (r : Resolver) (cs : List ColorEntry) :
    Restyles (r.applyColors cs) := by
  induction cs with
  | nil => exact restyles_pure _
  | cons c rest ih =>
    exact (r.restyles_applyColor c).bind fun _ => ih.bind fun _ => restyles_pure _

theorem placedAlike_setText {v : TextValue} {p q : NodeProperties} (h : setText v p = .ok q) :
    p.PlacedAlike q := by
  cases v with
  | fontSize n | fontFamily s | fontWeight s =>
    cases h
    exact ⟨rfl, rfl⟩
  | lineHeight n =>
    obtain ⟨m, -, rfl⟩ := map_eq_ok_iff.1 h
    exact ⟨rfl, rfl⟩
  | letterSpacing n =>
    obtain ⟨m, -, rfl⟩ := map_eq_ok_iff.1 h
    exact ⟨rfl, rfl⟩

theorem restyles_applyTextLiteral (v : TextValue) : Restyles (applyTextLiteral v) := by
  refine restyles_get_bind (fun n => ?_) fun _ _ _ _ _ => rfl
  split
  · next q hq =>
    refine (restylesFrom_modifyProperties n.kind n.autoLayout ?_).bind fun _ => restyles_pure _
    exact placedAlike_setText hq
  · exact restyles_throw _ n.kind n.properties n.autoLayout

theorem restyles_applyTextValues (r : Resolver) (path : Option Text) (vs : List TextValue) :
    Restyles (r.applyTextValues path vs) := by
  have single (v : TextValue) : Restyles (r.applyTextValue path v) := by
    unfold applyTextValue
    split
    · exact restyles_applyTextLiteral v
    · split
      · exact restyles_pure _
      · split
        · exact (restyles_applyTextLiteral v).bind fun _ => restyles_pure _
        · exact restyles_pure _
  induction vs with
  | nil => exact restyles_pure _
  | cons v rest ih => exact (single v).bind fun _ => ih.bind fun _ => restyles_pure _

theorem restyles_applyTypography (r : Resolver) (t : Typography) :
    Restyles (r.applyTypography t) := by
  refine restyles_get_bind (fun n => ?_) fun n m p layout hk => ?_
  · split
    · exact restyles_pure _ n.kind n.properties n.autoLayout
    · exact (r.restyles_applyTextValues _ _).bind (fun _ =>
        (r.restyles_applyColors _).bind fun _ => restyles_pure _) n.kind n.properties n.autoLayout
  · cases n
    cases m
    cases hk
    rfl

theorem restyles_applySpacing (s : Spacing) : Restyles (applySpacing s) := by
  refine restyles_get_bind (fun n => ?_) fun _ _ _ _ _ => rfl
  split
  · exact restyles_pure _ n.kind n.properties n.autoLayout
  · exact RestylesFrom.bind ⟨.ok (), _, _, .refl _, fun _ _ => rfl⟩ fun _ => restyles_pure _

theorem placedAlike_setRadius (radius : BorderRadius) (p : NodeProperties) :
    p.PlacedAlike (setRadius radius p) := by
  unfold setRadius
  split <;> exact ⟨rfl, rfl⟩

theorem restyles_applyBorders (b : Border) : Restyles (applyBorders b) := by
  have stroke : Restyles (applyStroke b) := by
    unfold applyStroke
    split
    · exact restyles_pure _
    · split
      · refine (restyles_modifyProperties fun p => ?_).bind fun _ => restyles_pure _
        exact ⟨rfl, rfl⟩
      · exact restyles_pure _
  have radius : Restyles (applyRadius b) := by
    unfold applyRadius
    split
    · exact restyles_pure _
    · next radius _ =>
      exact (restyles_modifyProperties (placedAlike_setRadius radius)).bind fun _ => restyles_pure _
  exact stroke.bind fun _ => radius.bind fun _ => restyles_pure _

theorem restyles_applyShadows (shadows : List Shadow) : Restyles (applyShadows shadows) := by
  unfold applyShadows
  split
  · exact restyles_throw _
  · exact restyles_pure _
  · refine (restyles_modifyProperties fun p => ?_).bind fun _ => restyles_pure _
    exact ⟨rfl, rfl⟩

/-! ## Whole stylings -/

theorem restyles_of_mem_aspects {r : Resolver} {kind : NodeKind} {s : Styling}
    {c : Change StyleResult} (h : c ∈ r.aspects kind s) : Restyles c :=
  forall_aspects r.restyles_applyColors r.restyles_applyTypography restyles_applySpacing
    restyles_applyBorders restyles_applyShadows kind s c h

theorem applyAspects_restyle {cs : List (Change StyleResult)} (h : ∀ c ∈ cs, Restyles c)
    (kind : NodeKind) (p : NodeProperties) (layout : Option AutoLayout) (total : StyleResult) :
    ∃ q other outcome, p.PlacedAlike q ∧ ∀ n : Node, n.kind = kind →
      applyAspects (n.restyle p layout) total cs = (n.restyle q other, outcome) := by
  induction cs generalizing p layout total with
  | nil => exact ⟨p, layout, (total, none), .refl p, fun _ _ => rfl⟩
  | cons c rest ih =>
    obtain ⟨rejection | own, q, other, hq, hc⟩ := h c List.mem_cons_self kind p layout
    · refine ⟨q, other, (total, some rejection), hq, fun n hn => ?_⟩
      rw [applyAspects, hc n hn]
    · obtain ⟨q', other', outcome, hq', hrest⟩ :=
        ih (fun d hd => h d (List.mem_cons_of_mem c hd)) q other (total.merge own)
      refine ⟨q', other', outcome, hq.trans hq', fun n hn => ?_⟩
      rw [applyAspects, hc n hn]
      exact hrest n hn

/-- What comes of a styling hangs on the kind, the properties and the automatic layout of a node
alone. The styling changes the latter two, and adds bindings of its result. -/
theorem applyStyles_restyle (r : Resolver) (s : Styling) (kind : NodeKind) (p : NodeProperties)
    (layout : Option AutoLayout) :
    ∃ q other result added, p.PlacedAlike q ∧ added ⊆ result.bindings ∧ ∀ n : Node,
      n.kind = kind → r.applyStyles (n.restyle p layout) s =
        ({ n.restyle q other with bindings := n.bindings ++ added }, result) := by
  have aspects : ∀ c ∈ r.aspects kind s, Restyles c := fun c hc => restyles_of_mem_aspects hc
  have cleared : ∃ p', p.PlacedAlike p' ∧ ∀ n : Node, n.kind = kind →
      clearPaints s (n.restyle p layout) = n.restyle p' layout := by
    refine ⟨(clearPaints s { kind, name := "", properties := p }).properties, ⟨rfl, rfl⟩,
      fun n hn => ?_⟩
    subst hn
    rfl
  obtain ⟨p', hp', hp⟩ := cleared
  obtain ⟨q, other, ⟨total, _ | rejection⟩, hq, h⟩ :=
    applyAspects_restyle aspects kind p' layout {}
  · refine ⟨q, other, total.settled, total.bindings, hp'.trans hq, List.Subset.refl _,
      fun n hn => ?_⟩
    rw [applyStyles, hp n hn, Node.kind_restyle, hn, h n hn]
    rfl
  · let failed : StyleResult := { total with
      errors := total.errors ++ ["Failed to apply styles: " ++ rejection.headline] }
    refine ⟨q, other, failed.settled, [], hp'.trans hq, List.nil_subset _, fun n hn => ?_⟩
    rw [applyStyles, hp n hn, Node.kind_restyle, hn, h n hn, List.append_nil]
    rfl

/-- A styling changes nothing of a node but its properties, its layout and its bindings, and nothing
of its place. -/
theorem restyled_applyStyles (r : Resolver) (n : Node) (s : Styling) :
    n.Restyled (r.applyStyles n s).1 := by
  obtain ⟨q, other, result, added, hq, -, h⟩ :=
    r.applyStyles_restyle s n.kind n.properties n.autoLayout
  have hn := h n rfl
  rw [Node.restyle_self] at hn
  exact ⟨q, other, n.bindings ++ added, hq, congrArg Prod.fst hn⟩

/-! ## Whole trees -/

mutual

/-- A tree of nodes styled by a tree of widgets: the tree, the results in the order of its walk, and
whether every widget had its node. Where children are missing the walk ends, and what comes after
stays as it was. -/
def styleTree (r : Resolver) (w : Widget) : Node → Node × List Styled × Bool
  | ⟨id, kind, name, properties, autoLayout, bindings, children, widgetId⟩ =>
    let n : Node := ⟨id, kind, name, properties, autoLayout, bindings, children, widgetId⟩
    let own := r.style w n
    if w.children.length = children.length then
      let (children, others, complete) := styleAll r w.children children
      ({ own.node with children }, own :: others, complete)
    else (own.node, [own], false)

/-- Sibling nodes styled by sibling widgets, one after the other. -/
def styleAll (r : Resolver) : List Widget → List Node → List Node × List Styled × Bool
  | w :: ws, n :: ns =>
    match styleTree r w n with
    | (node, results, true) =>
      let (nodes, others, complete) := styleAll r ws ns
      (node :: nodes, results ++ others, complete)
    | (node, results, false) => (node :: ns, results, false)
  | _, ns => (ns, [], true)

end

theorem restyled_style (r : Resolver) (w : Widget) (n : Node) : n.Restyled (r.style w n).node :=
  r.restyled_applyStyles n w.styling

theorem styleTree_eq (r : Resolver) (w : Widget) (n : Node) :
    styleTree r w n =
      if w.children.length = n.children.length then
        ({ (r.style w n).node with children := (styleAll r w.children n.children).1 },
          r.style w n :: (styleAll r w.children n.children).2.1,
          (styleAll r w.children n.children).2.2)
      else ((r.style w n).node, [r.style w n], false) := by
  cases n
  rfl

theorem styleAll_cons (r : Resolver) (w : Widget) (ws : List Widget) (n : Node) (ns : List Node) :
    styleAll r (w :: ws) (n :: ns) =
      if (styleTree r w n).2.2 then
        ((styleTree r w n).1 :: (styleAll r ws ns).1,
          (styleTree r w n).2.1 ++ (styleAll r ws ns).2.1, (styleAll r ws ns).2.2)
      else ((styleTree r w n).1 :: ns, (styleTree r w n).2.1, false) := by
  rw [styleAll]
  rcases styleTree r w n with ⟨node, results, _ | _⟩ <;> rfl

/-- Labels that look at what styling leaves alone are those of the tree before, also where styling
does not complete. -/
theorem labels_styleTree (r : Resolver) {f : Node → α}
    (hf : ∀ (n : Node) properties autoLayout bindings children,
      n.properties.PlacedAlike properties →
        f { n with properties, autoLayout, bindings, children } = f n) (w : Widget) (n : Node) :
    (styleTree r w n).1.labels f = n.labels f := by
  induction n using Node.forest_induct
    (q := fun ns => ∀ ws, Node.labelsAll f (styleAll r ws ns).1 = Node.labelsAll f ns)
    generalizing w with
  | step n children =>
    obtain ⟨p, a, b, hp, hs⟩ := r.restyled_style w n
    rw [styleTree_eq, hs]
    split
    · rw [Node.labels_eq, Node.labels_eq, children]
      exact congrArg (LabelTree.node · _) (hf n p a b _ hp)
    · rw [Node.labels_eq, Node.labels_eq]
      exact congrArg (LabelTree.node · _) (hf n p a b _ hp)
  | nil ws => cases ws <;> rfl
  | cons m rest first others ws =>
    cases ws with
    | nil => rfl
    | cons v ws =>
      rw [styleAll_cons]
      split <;> simp only [Node.labelsAll, first, others]

/-- Styling completes exactly if the trees have one shape. -/
theorem complete_styleTree_iff (r : Resolver) (w : Widget) (n : Node) :
    (styleTree r w n).2.2 = true ↔ n.shape = w.shape := by
  induction n using Node.forest_induct
    (q := fun ns => ∀ ws : List Widget, ws.length = ns.length →
      ((styleAll r ws ns).2.2 = true ↔ ns.map Node.shape = ws.map Widget.shape))
    generalizing w with
  | step n children =>
    rw [styleTree_eq, Node.shape_eq, Widget.shape_eq, LabelTree.node.injEq]
    split
    · next hl => simp [children w.children hl]
    · next hl =>
      simp only [Bool.false_eq_true, true_and, false_iff]
      intro h
      exact hl (by simpa using (congrArg List.length h).symm)
  | nil ws hl =>
    obtain rfl := List.eq_nil_of_length_eq_zero hl
    exact iff_of_true rfl rfl
  | cons m rest first others ws hl =>
    cases ws with
    | nil => simp at hl
    | cons v ws =>
      have hrest := others ws (by simpa using hl)
      rw [styleAll_cons, List.map_cons, List.map_cons, List.cons.injEq, ← first, ← hrest]
      split <;> simp_all

end Resolver

end DesignTree
