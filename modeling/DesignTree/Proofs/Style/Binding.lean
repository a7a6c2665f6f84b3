import DesignTree.Proofs.Lowering.Shape
import DesignTree.Proofs.Style.Frame

/-! # Where bindings come from

A binding that a styling adds to a node is one that the resolver found a token for
(`provides_applyStyles`). Lowered nodes have no bindings, so that in a styled tree every binding is
of this kind (`binds_of_lower`). Where references into the theme do not count there is none
(`Binds.bindings_eq_nil`).
-/

namespace DesignTree.Resolver

/-! ## Bindings of results -/

/-- A binding to a token that the resolver finds. -/
def Provides (r : Resolver) (b : Binding) : Prop :=
  r.config.useVariables = true ∧ ∃ part name target, r.binding? part name target = some b

/-- All bindings of a result are to tokens that the resolver finds. -/
def Backs (r : Resolver) (result : StyleResult) : Prop := ∀ b ∈ result.bindings, r.Provides b

section

variable {r : Resolver}

theorem Backs.of_nil {result : StyleResult} (h : result.bindings = []) : r.Backs result := by
  intro b hb
  rw [h] at hb
  exact absurd hb List.not_mem_nil

theorem Backs.merge {a b : StyleResult} (ha : r.Backs a) (hb : r.Backs b) : r.Backs (a.merge b) :=
  List.forall_mem_append.2 ⟨ha, hb⟩

/-- Something is looked up only where references into the theme count. -/
theorem useVariables_of_activePath {isThemeReference : Bool} {path : Option Text} {active : Text}
    (h : r.activePath isThemeReference path = some active) : r.config.useVariables = true := by
  unfold activePath at h
  by_contra hu
  simp [hu] at h

theorem Backs.of_binding {isThemeReference : Bool} {path : Option Text} {active : Text}
    (ha : r.activePath isThemeReference path = some active) {part : Token.Section}
    {name target property : Text} {b : Binding} (hb : r.binding? part name target = some b) :
    r.Backs (.ofBinding property b) :=
  List.forall_mem_singleton.2 ⟨useVariables_of_activePath ha, part, name, target, hb⟩

/-- A literal value binds nothing. -/
theorem ensures_applyLiteral (c : ColorEntry) :
    Ensures (fun e => ∀ result, e = .ok result → result.bindings = []) (applyLiteral c) := by
  unfold applyLiteral
  simp only
  split
  · refine ensures_pure fun result h => ?_
    cases h
    rfl
  · split
    · refine ensures_bind fun _ => ensures_pure fun result h => ?_
      cases h
      rfl
    · exact ensures_pure fun result h => nomatch h

theorem backs_applyColor (r : Resolver) (c : ColorEntry) : Ensures r.Backs (r.applyColor c) := by
  unfold applyColor
  split
  · refine (ensures_applyLiteral c).bind fun e he => ?_
    cases e with
    | ok result => exact ensures_pure (.of_nil (he result rfl))
    | error e => exact ensures_pure (.of_nil rfl)
  · next path hp =>
    split
    · next b hb => exact ensures_pure (.of_binding hp hb)
    · split
      · refine (ensures_applyLiteral c).bind fun e he => ?_
        cases e with
        | ok result => exact ensures_pure (.merge (.of_nil (he result rfl)) (.of_nil rfl))
        | error e => exact ensures_pure (.of_nil rfl)
      · exact ensures_pure (.of_nil rfl)

theorem backs_applyColors (r : Resolver) (cs : List ColorEntry) :
    Ensures r.Backs (r.applyColors cs) := by
  induction cs with
  | nil => exact ensures_pure (.of_nil rfl)
  | cons c rest ih =>
    exact (r.backs_applyColor c).bind fun _ hc => ih.bind fun _ hrest =>
      ensures_pure (hc.merge hrest)

theorem backs_applyTextLiteral (v : TextValue) : Ensures r.Backs (applyTextLiteral v) := by
  refine ensures_get_bind fun n => ?_
  split
  · exact ensures_bind fun _ => ensures_pure (.of_nil rfl)
  · exact ensures_throw _

theorem backs_applyTextValues (r : Resolver) (t : Typography) (vs : List TextValue) :
    Ensures r.Backs (r.applyTextValues (r.activePath t.isThemeReference t.themePath) vs) := by
  have single (v : TextValue) : Ensures r.Backs
      (r.applyTextValue (r.activePath t.isThemeReference t.themePath) v) := by
    unfold applyTextValue
    split
    · exact backs_applyTextLiteral v
    · next path hp =>
      split
      · next b hb => exact ensures_pure (.of_binding hp hb)
      · split
        · exact (backs_applyTextLiteral v).bind fun _ h => ensures_pure (h.merge (.of_nil rfl))
        · exact ensures_pure (.of_nil rfl)
  induction vs with
  | nil => exact ensures_pure (.of_nil rfl)
  | cons v rest ih =>
    exact (single v).bind fun _ hv => ih.bind fun _ hrest => ensures_pure (hv.merge hrest)

theorem backs_applyTypography (r : Resolver) (t : Typography) :
    Ensures r.Backs (r.applyTypography t) := by
  refine ensures_get_bind fun n => ?_
  split
  · exact ensures_pure (.of_nil rfl)
  · exact (r.backs_applyTextValues t _).bind fun _ hv => (r.backs_applyColors _).bind fun _ hc =>
      ensures_pure (hv.merge hc)

theorem backs_applySpacing (s : Spacing) : Ensures r.Backs (applySpacing s) := by
  refine ensures_get_bind fun n => ?_
  split
  · exact ensures_pure (.of_nil rfl)
  · exact ensures_bind fun _ => ensures_pure (.of_nil rfl)

theorem backs_applyBorders (b : Border) : Ensures r.Backs (applyBorders b) := by
  have stroke : Ensures r.Backs (applyStroke b) := by
    unfold applyStroke
    split
    · exact ensures_pure (.of_nil rfl)
    · split
      · exact ensures_bind fun _ => ensures_pure (.of_nil rfl)
      · exact ensures_pure (.of_nil rfl)
  have radius : Ensures r.Backs (applyRadius b) := by
    unfold applyRadius
    split
    · exact ensures_pure (.of_nil rfl)
    · exact ensures_bind fun _ => ensures_pure (.of_nil rfl)
  exact stroke.bind fun _ hs => radius.bind fun _ hr => ensures_pure (hs.merge hr)

theorem backs_applyShadows (shadows : List Shadow) : Ensures r.Backs (applyShadows shadows) := by
  unfold applyShadows
  split
  · exact ensures_throw _
  · exact ensures_pure (.of_nil rfl)
  · exact ensures_bind fun _ => ensures_pure (.of_nil rfl)

end

/-! ## Bindings of nodes -/

theorem backs_of_mem_aspects {r : Resolver} {kind : NodeKind} {s : Styling}
    {c : Change StyleResult} (h : c ∈ r.aspects kind s) : Ensures r.Backs c :=
  forall_aspects r.backs_applyColors r.backs_applyTypography backs_applySpacing backs_applyBorders
    backs_applyShadows kind s c h

theorem backs_applyAspects {r : Resolver} {cs : List (Change StyleResult)}
    (h : ∀ c ∈ cs, Ensures r.Backs c) (n : Node) (total : StyleResult) (ht : r.Backs total) :
    r.Backs (applyAspects n total cs).2.1 := by
  induction cs generalizing n total with
  | nil => exact ht
  | cons c rest ih =>
    rw [applyAspects]
    rcases hr : StateT.run (ExceptT.run c) n with ⟨rejection | own, m⟩
    · exact ht
    · have hown := h c List.mem_cons_self n own m hr
      exact ih (fun d hd => h d (List.mem_cons_of_mem c hd)) m _ (ht.merge hown)

theorem backs_applyStyles (r : Resolver) (n : Node) (s : Styling) :
    r.Backs (r.applyStyles n s).2 := by
  have aspects : ∀ c ∈ r.aspects n.kind s, Ensures r.Backs c := fun c hc => backs_of_mem_aspects hc
  have applied := backs_applyAspects aspects (clearPaints s n) {} (.of_nil rfl)
  unfold applyStyles
  rcases hr : applyAspects (clearPaints s n) {} (r.aspects n.kind s) with
    ⟨m, result, _ | rejection⟩ <;> rw [hr] at applied <;> exact applied

/-- The bindings of a styled node are those that it had, and bindings that the resolver provides. -/
theorem provides_applyStyles (r : Resolver) (n : Node) (s : Styling) :
    ∀ b ∈ (r.applyStyles n s).1.bindings, b ∈ n.bindings ∨ r.Provides b := by
  intro b hb
  obtain ⟨q, other, result, added, -, hadded, h⟩ :=
    r.applyStyles_restyle s n.kind n.properties n.autoLayout
  have hn := h n rfl
  rw [Node.restyle_self] at hn
  rw [hn, List.mem_append] at hb
  refine hb.imp_right fun hm => ?_
  have backs := r.backs_applyStyles n s
  rw [hn] at backs
  exact backs b (hadded hm)

/-! ## Bindings of trees -/

/-- All bindings of a node tree are to tokens that the resolver finds. -/
def Binds (r : Resolver) (n : Node) : Prop := ∀ m ∈ n.walk, ∀ b ∈ m.bindings, r.Provides b

theorem binds_iff {r : Resolver} {n : Node} :
    r.Binds n ↔ (∀ b ∈ n.bindings, r.Provides b) ∧ ∀ c ∈ n.children, r.Binds c := by
  unfold Binds
  rw [Node.walk_eq, List.forall_mem_cons, Node.walkAll_eq_flatMap, List.forall_mem_flatMap]

/-- Where references into the theme do not count nothing is bound. -/
theorem Binds.bindings_eq_nil {r : Resolver} {n : Node} (h : r.Binds n)
    (hu : r.config.useVariables = false) : ∀ m ∈ n.walk, m.bindings = [] := by
  intro m hm
  refine List.eq_nil_iff_forall_not_mem.2 fun b hb => ?_
  have used := (h m hm b hb).1
  rw [hu] at used
  cases used

theorem Binds.styleTree {r : Resolver} {n : Node} (h : r.Binds n) (w : Widget) :
    r.Binds (r.styleTree w n).1 := by
  induction n using Node.induct generalizing w with
  | step n ih =>
    obtain ⟨hn, hchildren⟩ := binds_iff.1 h
    have children (ws : List Widget) : ∀ c ∈ (styleAll r ws n.children).1, r.Binds c := by
      generalize n.children = ns at ih hchildren
      induction ns generalizing ws with
      | nil => cases ws <;> exact fun c hc => absurd hc List.not_mem_nil
      | cons m rest ihr =>
        have hrest (ws : List Widget) := ihr ws (fun k hk => ih k (List.mem_cons_of_mem m hk))
          fun k hk => hchildren k (List.mem_cons_of_mem m hk)
        cases ws with
        | nil => exact hchildren
        | cons v ws =>
          have hm := ih m List.mem_cons_self (hchildren m List.mem_cons_self) v
          rw [styleAll_cons]
          split
          · exact List.forall_mem_cons.2 ⟨hm, hrest ws⟩
          · exact List.forall_mem_cons.2 ⟨hm, fun k hk => hchildren k (List.mem_cons_of_mem m hk)⟩
    have own : ∀ b ∈ (r.style w n).node.bindings, r.Provides b := fun b hb =>
      (r.provides_applyStyles n w.styling b hb).elim (hn b) id
    obtain ⟨p, a, bs, -, hs⟩ := r.restyled_style w n
    rw [styleTree_eq]
    split
    · exact binds_iff.2 ⟨own, children w.children⟩
    · refine binds_iff.2 ⟨own, ?_⟩
      rw [hs]
      exact hchildren

open InRun Widget in
/-- Lowered nodes have no bindings. -/
theorem binds_of_yields_lower (r : Resolver) (w : Widget) {run after : Run} {n : Node}
    (h : w.lower.Yields run n after) : r.Binds n := by
  have children (parent : Widget) (cs : List Widget) (ms : List Node)
      (hc : List.Forall₂ (PlacedFrom (fun _ n => r.Binds n) parent) cs ms) :
      ∀ m ∈ ms, r.Binds m := by
    induction hc with
    | nil => exact fun m hm => absurd hm List.not_mem_nil
    | cons placed _ ih =>
      obtain ⟨node, index, q, hb, -, rfl⟩ := placed
      have unplaced := binds_iff.1 hb
      have first : r.Binds { node with properties := q } := binds_iff.2 unplaced
      exact List.forall_mem_cons.2 ⟨first, ih⟩
  refine lower_induct (motive := fun _ n => r.Binds n) (fun w p id ms n _ hc hn => ?_) w h
  have hnode := isNodeOf_of_assemble hn
  refine binds_iff.2 ⟨?_, ?_⟩
  · rw [hnode.bindings]
    exact fun b hb => absurd hb List.not_mem_nil
  · rw [hnode.children]
    split
    · exact fun m hm => absurd hm List.not_mem_nil
    · exact children w _ ms hc

end DesignTree.Resolver
