import DesignTree.Proofs.Style.Paints

/-! # Styling twice

A styling that is applied again leaves the node that it left (`applyStyles_again`). The lists that
it adds to are emptied before, all else is set to the same again, and values of a text may be set in
any order, so that the last ones do not undo what the first ones set.
-/

namespace DesignTree

/-! ## Writes that do not get in each other's way -/

section

variable {σ β : Type} {f : σ → β → σ}

/-- A write may be made before others that it commutes with. -/
theorem foldl_write {v : β} {vs : List β} (comm : ∀ w ∈ vs, ∀ s, f (f s v) w = f (f s w) v)
    (s : σ) : f (vs.foldl f s) v = vs.foldl f (f s v) := by
  induction vs generalizing s with
  | nil => rfl
  | cons w rest ih =>
    obtain ⟨hw, hrest⟩ := List.forall_mem_cons.1 comm
    rw [List.foldl_cons, List.foldl_cons, ih hrest, hw]

/-- A write that was made before and commutes with the others changes nothing. -/
theorem foldl_write_of_mem {v : β} {vs : List β} (hv : v ∈ vs)
    (comm : ∀ w ∈ vs, ∀ s, f (f s v) w = f (f s w) v) (twice : ∀ s, f (f s v) v = f s v) (s : σ) :
    f (vs.foldl f s) v = vs.foldl f s := by
  induction vs generalizing s with
  | nil => cases hv
  | cons w rest ih =>
    obtain ⟨-, hrest⟩ := List.forall_mem_cons.1 comm
    rcases List.mem_cons.1 hv with rfl | hv
    · rw [List.foldl_cons, foldl_write hrest, twice]
    · rw [List.foldl_cons, ih hv hrest]

/-- Writes that commute, and each of which is the same made twice, are the same all made twice. -/
theorem foldl_foldl {vs : List β} (comm : ∀ v ∈ vs, ∀ w ∈ vs, ∀ s, f (f s v) w = f (f s w) v)
    (twice : ∀ v ∈ vs, ∀ s, f (f s v) v = f s v) (s : σ) :
    vs.foldl f (vs.foldl f s) = vs.foldl f s := by
  have again {us : List β} (h : ∀ v ∈ us, f (vs.foldl f s) v = vs.foldl f s) :
      us.foldl f (vs.foldl f s) = vs.foldl f s := by
    induction us with
    | nil => rfl
    | cons u rest ih =>
      obtain ⟨hu, hrest⟩ := List.forall_mem_cons.1 h
      rw [List.foldl_cons, hu, ih hrest]
  exact again fun v hv => foldl_write_of_mem hv (comm v hv) (twice v hv) s

end

/-! ## Text properties -/

theorem FontWeight.isEmpty_styleName (weight : Option Text) :
    (FontWeight.styleName weight).isEmpty = false := by
  have named : ∀ e ∈ FontWeight.styles, e.2.isEmpty = false := by decide
  unfold FontWeight.styleName
  cases h : weight.bind FontWeight.styles.get? with
  | none => rfl
  | some style =>
    obtain ⟨w, -, hw⟩ := Option.bind_eq_some_iff.1 h
    exact named (w, style) (Entries.mem_of_get? hw)

namespace Resolver

theorem orIfEmpty_of_filled {s : Text} (h : s.isEmpty = false) (default : Text) :
    orIfEmpty s default = s := by
  rw [orIfEmpty, h]
  rfl

theorem orIfEmpty_orIfEmpty (s default : Text) :
    orIfEmpty (orIfEmpty s default) default = orIfEmpty s default := by
  unfold orIfEmpty
  split <;> simp_all

namespace TextValue

section

variable (t : NodeText)

theorem write_lineHeight (n : Number) :
    (lineHeight n).write t =
      { t with lineHeight := (Resolver.lineHeight n).toOption.or t.lineHeight } := by
  unfold write
  simp only [setText]
  cases Resolver.lineHeight n <;> rfl

theorem write_letterSpacing (n : Number) :
    (letterSpacing n).write t =
      { t with letterSpacing := (Resolver.letterSpacing n).toOption.or t.letterSpacing } := by
  unfold write
  simp only [setText]
  cases Resolver.letterSpacing n <;> rfl

/-- A family that is not empty and a weight keep each other's half of the font. -/
theorem write_fontFamily_fontWeight {family : Text} (h : family.isEmpty = false) (weight : Text) :
    (fontWeight weight).write ((fontFamily family).write t) =
      (fontFamily family).write ((fontWeight weight).write t) := by
  have style := orIfEmpty_of_filled (FontWeight.isEmpty_styleName (some weight)) "Regular"
  have font : FontName.mk (orIfEmpty family "Inter") (FontWeight.styleName (some weight)) =
      ⟨family, orIfEmpty (FontWeight.styleName (some weight)) "Regular"⟩ := by
    rw [orIfEmpty_of_filled h, style]
  exact congrArg (fun font => { t with fontName := some font }) font

end

/-- What a typography gives for the property of a value is that value, and no empty family. -/
def GivenBy (ty : Typography) : TextValue → Prop
  | .fontSize n => ty.fontSize = some n
  | .fontFamily family => ty.fontFamily = some family ∧ family.isEmpty = false
  | .fontWeight weight => ty.fontWeight = some weight
  | .lineHeight n => ty.lineHeight = some n
  | .letterSpacing n => ty.letterSpacing = some n

theorem givenBy_of_mem_textValues {ty : Typography} {v : TextValue} (h : v ∈ textValues ty) :
    v.GivenBy ty := by
  unfold textValues at h
  cases v <;> simp_all [GivenBy, Option.filter_eq_some_iff]

/-- The values of a typography may be set in any order. -/
theorem write_comm {ty : Typography} {v w : TextValue} (hv : v.GivenBy ty) (hw : w.GivenBy ty)
    (t : NodeText) : w.write (v.write t) = v.write (w.write t) := by
  cases v <;> cases w <;> try simp only [write_lineHeight, write_letterSpacing]
  -- values of one property are the same, and only family and weight share a part of the text
  all_goals first
    | (cases hv.symm.trans hw; rfl)
    | (cases hv.1.symm.trans hw.1; rfl)
    | rfl
    | exact write_fontFamily_fontWeight t hv.2 _
    | exact (write_fontFamily_fontWeight t hw.2 _).symm

theorem write_write (v : TextValue) (t : NodeText) : v.write (v.write t) = v.write t := by
  cases v with
  | fontSize n => rfl
  | fontFamily family =>
    exact congrArg (fun style => { t with fontName := some ⟨family, style⟩ })
      (orIfEmpty_orIfEmpty _ _)
  | fontWeight weight =>
    exact congrArg
      (fun family => { t with fontName := some ⟨family, FontWeight.styleName (some weight)⟩ })
      (orIfEmpty_orIfEmpty _ _)
  | lineHeight n => rw [write_lineHeight, write_lineHeight, ← Option.or_assoc, Option.or_self]
  | letterSpacing n =>
    rw [write_letterSpacing, write_letterSpacing, ← Option.or_assoc, Option.or_self]

end TextValue

end Resolver

/-! ## Edits made twice -/

namespace Edit

open Resolver (TextValue clearPaints replacesFills replacesStrokes)

variable {e : Edit} {kind : NodeKind} {s : Styling}

theorem layout_layout (e : Edit) (a : AutoLayout) : e.layout (e.layout a) = e.layout a := by
  rw [← layout_append]
  unfold layout
  rw [padding_append, margin_append, Option.or_self, Option.or_self]

theorem text_text (h : e.KeepsTo kind s) (t : NodeText) : e.text (e.text t) = e.text t := by
  have given : ∀ v ∈ e.texts, ∃ ty, s.typography = some ty ∧ v.GivenBy ty := fun v hv => by
    obtain ⟨ty, hty, hv⟩ := h.texts v hv
    exact ⟨ty, hty, TextValue.givenBy_of_mem_textValues hv⟩
  refine foldl_foldl (fun v hv w hw t => ?_) (fun v _ t => v.write_write t) t
  obtain ⟨ty, hty, hv⟩ := given v hv
  obtain ⟨ty', hty', hw⟩ := given w hw
  cases hty.symm.trans hty'
  exact TextValue.write_comm hv hw t

/-- A list that is emptied before it is added to, or that is not added to, stays as it is. -/
theorem extend_again {α : Type} {replaces : Bool} {old after : Option (List α)} {new : List α}
    (h : replaces = false → new = [])
    (ha : after = extend (if replaces then some [] else old) new) :
    extend (if replaces then some [] else after) new = after := by
  subst ha
  cases replaces with
  | true => rfl
  | false =>
    rw [h rfl]
    rfl

/-- Paints that an edit left stay as they are under it if it finds lists that it makes the same. -/
theorem paints_paints (e : Edit) (p : NodePaints) {fills strokes : Option (List Paint)}
    {effects : Option (List Effect)} (hf : extend fills e.fills = (e.paints p).fills)
    (hs : extend strokes e.strokes = (e.paints p).strokes)
    (he : extend effects e.effects = (e.paints p).effects) :
    e.paints ((e.paints p).withLists fills strokes effects (e.paints p).strokeWeight) =
      e.paints p := by
  have strokeWeight : e.strokeWeight.or (e.paints p).strokeWeight = (e.paints p).strokeWeight := by
    rw [strokeWeight_paints, ← Option.or_assoc, Option.or_self]
  calc e.paints ((e.paints p).withLists fills strokes effects (e.paints p).strokeWeight)
    _ = ((e.paints p).withLists (extend fills e.fills) (extend strokes e.strokes)
          (extend effects e.effects) (e.strokeWeight.or (e.paints p).strokeWeight)).rounded
            e.radius := rfl
    _ = (e.paints p).rounded e.radius := by rw [hf, hs, he, strokeWeight]; rfl
    _ = e.paints p := by rw [paints, NodePaints.rounded_rounded, Option.or_self]

/-- An edit that keeps to a styling, made again where the styling takes the place of the paints that
it left, changes nothing. -/
theorem apply_again {n : Node} (h : e.KeepsTo n.kind s) :
    e.apply (clearPaints s (e.apply (clearPaints s n))) = e.apply (clearPaints s n) := by
  have paints : e.paints (clearPaints s (e.apply (clearPaints s n))).properties.toNodePaints =
      e.paints (clearPaints s n).properties.toNodePaints := by
    have kept (old : Option (List Effect)) : (if s.shadows.isEmpty then old else some []) =
        if !s.shadows.isEmpty then some [] else old := by
      cases s.shadows <;> rfl
    have unshadowed (hs : (!s.shadows.isEmpty) = false) : e.effects = [] :=
      h.effects (by simpa using hs)
    refine e.paints_paints _ (extend_again h.fills (fills_paints _ _))
      (extend_again h.strokes (strokes_paints _ _)) ?_
    rw [kept]
    exact extend_again unshadowed
      ((effects_paints _ _).trans (congrArg (extend · e.effects) (kept n.properties.effects)))
  have text := text_text h n.properties.toNodeText
  have layout : (n.autoLayout.map e.layout).map e.layout = n.autoLayout.map e.layout := by
    rw [Option.map_map, (funext e.layout_layout : e.layout ∘ e.layout = e.layout)]
  let after := e.apply (clearPaints s n)
  calc e.apply (clearPaints s after)
    _ = { after with
          properties := { after.properties with
            toNodePaints := e.paints (clearPaints s after).properties.toNodePaints
            toNodeText := e.text (e.text n.properties.toNodeText) }
          autoLayout := (n.autoLayout.map e.layout).map e.layout } := rfl
    _ = after := by rw [paints, text, layout]; rfl

end Edit

namespace Resolver

/-- **Styling twice is styling once.** A styling applied again to the node that it left reports the
same and leaves that node, with more bindings; so too where a rejection ended it midway. -/
theorem applyStyles_again (r : Resolver) (n : Node) (s : Styling) :
    let first := r.applyStyles n s
    let second := r.applyStyles first.1 s
    second.2 = first.2 ∧
      ∃ more, second.1 = { first.1 with bindings := first.1.bindings ++ more } := by
  intro first second
  let a := r.stylingAccount n.traits s
  have node : first.1 =
      { a.edit.apply (clearPaints s n) with bindings := first.1.bindings } := r.node_applyStyles s n
  have traits : first.1.traits = n.traits := by
    rw [node]
    exact a.edit.traits_apply (clearPaints s n)
  have fixed : a.edit.apply (clearPaints s first.1) = first.1 := by
    have again := Edit.apply_again (r.keepsTo_stylingAccount n.traits s)
    rw [node]
    exact congrArg (fun m : Node => { m with bindings := first.1.bindings }) again
  obtain ⟨more, added⟩ : ∃ more, second.1.bindings = first.1.bindings ++ more :=
    ⟨_, r.bindings_applyStyles first.1 s⟩
  have reported : second.2 = first.2 := by
    rw [result_applyStyles, result_applyStyles, traits]
  have node' : second.1 = { first.1 with bindings := second.1.bindings } := by
    have styled := r.node_applyStyles s first.1
    rwa [traits, fixed] at styled
  refine ⟨reported, more, ?_⟩
  rw [← added]
  exact node'

end Resolver

end DesignTree
