import DesignTree.Proofs.Lowering.Paints
import DesignTree.Proofs.Lowering.Range
import DesignTree.Proofs.Style.Target

/-! # Styling the fills that were lowered

Lowering reads the colour entries of a widget once, and styling the lowered node reads them again.
On frames and rectangles both take all entries for fills, in order. On a text lowering takes the
first entry for `color` alone, while styling makes no difference between kinds of nodes; where the
entries are plain colours, this is all that they differ in (`Resolver.fills_of_lowered_iff`).

Both record what is wrong with an entry, entry by entry and before all else. They differ in one
value, `transparent`, which lowering passes over (`Resolver.malformed_of_lowered_iff`).
-/

namespace DesignTree

open InRun Resolver

/-! ## Fills -/

namespace Styling

variable {s : Styling}

theorem fillEntries_eq_nil_iff :
    s.fillEntries = [] ↔
      (s.colors.any fun c => Widget.fillProperties.contains c.property) = false := by
  rw [fillEntries, List.filter_eq_nil_iff, List.any_eq_false]

/-- The fills of a styling are plain colours: no entry for a fill refers to the theme, each of them
is a colour, and no text gets one by its typography. -/
structure FillsPlainly (s : Styling) : Prop where
  literal : ∀ c ∈ s.fillEntries, c.isThemeReference = false
  good : ∀ c ∈ s.fillEntries, Rgb.ofHex? c.value ≠ none
  uncolored : Widget.isFilled (s.typography.bind (·.color)) = false

/-- The fills of the entries of a styling, in order. -/
def entryFills (s : Styling) : List Paint := s.fillEntries.filterMap fun c => paint? c.value

theorem length_entryFills (plain : s.FillsPlainly) :
    s.entryFills.length = s.fillEntries.length := by
  refine List.filterMap_length_eq_length.2 fun c hc => ?_
  rw [paint?, Option.isSome_map, Option.isSome_iff_ne_none]
  exact plain.good c hc

/-- A single entry fills as it fills a text exactly if it is for `color`, or black. -/
theorem FillsPlainly.entryFills_eq_iff (plain : s.FillsPlainly) {c : ColorEntry}
    (h : s.fillEntries = [c]) :
    s.entryFills = [.solid (((s.fillEntries.find? fun c : ColorEntry =>
        c.property = "color").bind fun c => Rgb.ofHex? c.value).getD .black)] ↔
      c.property = "color" ∨ Rgb.ofHex? c.value = some .black := by
  have only : c ∈ s.fillEntries := h ▸ List.mem_singleton_self c
  obtain ⟨color, hv⟩ := Option.ne_none_iff_exists'.1 (plain.good c only)
  have fills : s.entryFills = [.solid color] := by
    rw [entryFills, h, List.filterMap_cons, paint?, hv]
    rfl
  rw [fills, h, List.find?_singleton]
  by_cases hp : c.property = "color"
  · simp [hp, hv]
  · simp [hp, hv, Paint.solid]

end Styling

/-! ### Fills by lowering -/

namespace Widget

variable {w : Widget}

theorem ofHex?_transparent : Rgb.ofHex? "transparent" = none := by decide +kernel

/-- Where the fills of a widget are plain colours, all entries for fills can be seen. -/
theorem paints_entryPaints_of_plain (plain : w.styling.FillsPlainly) :
    (entryPaints w.id w.styling.colors).1 = w.styling.entryFills := by
  rw [paints_entryPaints]
  refine congrArg (List.filterMap fun c : ColorEntry => paint? c.value)
    (List.filter_congr fun c hc => ?_)
  cases hf : fillProperties.contains c.property with
  | false => rw [isFillEntry, hf, Bool.false_and]
  | true =>
    have entry : c ∈ w.styling.fillEntries := List.mem_filter.2 ⟨hc, hf⟩
    have seen : c.value ≠ "transparent" := fun hv =>
      plain.good c entry (hv ▸ ofHex?_transparent)
    rw [isFillEntry, hf, Bool.true_and, bne_iff_ne]
    exact seen

/-- The fill of a text is that of its first entry for `color`, or black. -/
theorem textFill_eq (w : Widget) :
    w.textFill.1 = .solid (((w.styling.fillEntries.find? fun c : ColorEntry =>
      c.property = "color").bind fun c => Rgb.ofHex? c.value).getD .black) := by
  have first : w.styling.fillEntries.find? (fun c : ColorEntry => c.property = "color") =
      w.styling.colors.find? fun c : ColorEntry => c.property = "color" := by
    rw [Styling.fillEntries, List.find?_filter]
    refine congrArg (List.find? · _) (funext fun c => decide_eq_decide.2 ?_)
    rw [decide_eq_true_eq]
    refine and_iff_right_of_imp fun hc => ?_
    rw [hc]
    decide
  rw [first, textFill]
  cases w.styling.colors.find? fun c : ColorEntry => c.property = "color" with
  | none => rfl
  | some c =>
    simp only [readColor_eq]
    rfl

end Widget

/-! ### Fills by styling -/

namespace Resolver

theorem takesLiteral_of_literal (r : Resolver) {c : ColorEntry} (h : c.isThemeReference = false) :
    r.takesLiteral c = true :=
  takesLiteral_iff.2 fun _ refers => absurd (h.symm.trans refers.1) Bool.false_ne_true

theorem paintsFor_fillProperties (r : Resolver) {s : Styling} (plain : s.FillsPlainly) :
    r.paintsFor Widget.fillProperties s.colors = s.entryFills := by
  refine congrArg (List.filterMap fun c : ColorEntry => paint? c.value)
    (List.filter_congr fun c hc => ?_)
  cases hf : Widget.fillProperties.contains c.property with
  | false => rfl
  | true =>
    have entry : c ∈ s.fillEntries := List.mem_filter.2 ⟨hc, hf⟩
    rw [r.takesLiteral_of_literal (plain.literal c entry)]
    rfl

/-- Entries that are plain colours take the place of all fills, if there are any. -/
theorem fills_applyStyles_of_plain (r : Resolver) {s : Styling} (plain : s.FillsPlainly)
    (n : Node) :
    (r.applyStyles n s).1.properties.fills =
      if s.fillEntries = [] then n.properties.fills else some s.entryFills := by
  have uncolored : colorsText n.kind s = false := by
    rw [colorsText, plain.uncolored, Bool.and_false]
  have reached : r.reachedColors n.kind s = s.colors := by
    rw [reachedColors, textColors_eq_nil s uncolored, ite_self, List.append_nil]
  have written : (r.stylingAccount n.traits s).edit.fills = s.entryFills := by
    rw [paints_stylingAccount.1, show n.traits.kind = n.kind from rfl, reached,
      r.paintsFor_fillProperties plain]
  rw [(r.lists_applyStyles s n).1, written, replacesFills, uncolored, Bool.false_or]
  by_cases he : s.fillEntries = []
  · have none : s.entryFills = [] := by rw [Styling.entryFills, he]; rfl
    rw [if_pos he, Styling.fillEntries_eq_nil_iff.1 he, none]
    rfl
  · have some := mt Styling.fillEntries_eq_nil_iff.2 he
    rw [if_neg he, if_pos (Bool.not_eq_false _ ▸ some), extend_some]
    rfl

/-- **Lowering and styling agree on plain fills, but for texts.** Where the fills of a widget are
plain colours, its styling leaves the fills of the node lowered from it as they are, unless the
widget is a text. The node of a text has one fill, that of the first entry for `color` or else
black, while its styling gives it one for each entry. These are the same exactly if there is no
entry for a fill, or a single one that is for `color` or black anyway. -/
theorem fills_of_lowered_iff (r : Resolver) {w : Widget} (plain : w.styling.FillsPlainly)
    {run after : Run} {n : Node} (h : w.lower.Yields run n after) :
    (r.applyStyles n w.styling).1.properties.fills = n.properties.fills ↔
      (w.kind = .text → w.styling.fillEntries = [] ∨ ∃ c, w.styling.fillEntries = [c] ∧
        (c.property = "color" ∨ Rgb.ofHex? c.value = some .black)) := by
  have length := Styling.length_entryFills plain
  rw [r.fills_applyStyles_of_plain plain]
  by_cases he : w.styling.fillEntries = []
  · exact iff_of_true (if_pos he) fun _ => .inl he
  rw [if_neg he]
  by_cases ht : w.kind = .text
  · rw [Widget.fills_of_yields_text ht h, Option.some_inj, Widget.textFill_eq]
    simp only [ht, he, false_or, forall_const]
    constructor
    · intro same
      rw [same, List.length_singleton] at length
      obtain ⟨c, hc⟩ := List.length_eq_one_iff.1 length.symm
      exact ⟨c, hc, (plain.entryFills_eq_iff hc).1 same⟩
    · rintro ⟨c, hc, alike⟩
      exact (plain.entryFills_eq_iff hc).2 alike
  · obtain ⟨fills, hf, painted⟩ := (Widget.yields_painted ht h).1.fills
    rw [Widget.paints_entryPaints_of_plain plain] at painted
    have filled : w.styling.entryFills ≠ [] := fun none => he <|
      List.length_eq_zero_iff.1 (length.symm.trans (congrArg List.length none))
    rw [hf, painted filled]
    exact iff_of_true rfl fun h => absurd h ht

theorem fills_of_lowered_iff_title :
    let r : Resolver := {}
    let entry (property value : Text) : ColorEntry := { property, value }
    let colors := [entry "borderColor" "#00F", entry "color" "6750A4"]
    let w : Widget := { id := "title", kind := .text, styling := { givenColors := some colors } }
    w.styling.FillsPlainly ∧ ∃ n after, w.lower.Yields {} n after ∧
      ((r.applyStyles n w.styling).1.properties.fills = n.properties.fills ↔
        (w.kind = .text → w.styling.fillEntries = [] ∨ ∃ c, w.styling.fillEntries = [c] ∧
          (c.property = "color" ∨ Rgb.ofHex? c.value = some .black))) := by
  intro r entry colors w
  have plain : w.styling.FillsPlainly := ⟨by decide +kernel, by decide +kernel, rfl⟩
  obtain ⟨n, after, h⟩ := (w.returns_lower_iff {}).2 (by decide +kernel)
  exact ⟨plain, n, after, h, r.fills_of_lowered_iff plain h⟩

/-- A text with a white background is lowered to a black text, which its styling makes white. -/
theorem fills_of_text_with_background :
    let r : Resolver := {}
    let colors : List ColorEntry := [{ property := "backgroundColor", value := "#FFFFFF" }]
    let w : Widget := { id := "t", kind := .text, properties := { data := some "Hi" },
                        styling := { givenColors := some colors } }
    w.styling.FillsPlainly ∧ ∃ n after, w.lower.Yields {} n after ∧
      n.properties.fills = some [.solid .black] ∧
      (r.applyStyles n w.styling).1.properties.fills = some [.solid .white] ∧
      (r.applyStyles n w.styling).1.properties.fills ≠ n.properties.fills := by
  intro r colors w
  have plain : w.styling.FillsPlainly := ⟨by decide +kernel, by decide +kernel, rfl⟩
  obtain ⟨n, after, h⟩ := (w.returns_lower_iff {}).2 (by decide +kernel)
  have before : n.properties.fills = some [.solid .black] := Widget.fills_of_yields_text rfl h
  have styled : (r.applyStyles n w.styling).1.properties.fills = some [.solid .white] := by
    rw [r.fills_applyStyles_of_plain plain, if_neg (by decide)]
    decide +kernel
  refine ⟨plain, n, after, h, before, styled, ?_⟩
  rw [before, styled]
  decide +kernel

/-! ## Malformed fills -/

/-- The errors that are reported about a single colour entry on a node. -/
def entryErrors (r : Resolver) (n : Node) (c : ColorEntry) : List Text :=
  (r.applyStyles n { givenColors := some [c] }).2.errors

theorem entryErrors_eq (r : Resolver) (n : Node) (c : ColorEntry) :
    r.entryErrors n c = (r.colorAccount c).result.errors := by
  have texts : r.textsAccount n.traits { givenColors := some [c] } = .nothing :=
    r.textsAccount_eq_nothing _ _ (ite_self none)
  have boxes : Account.all (boxAccounts n.traits { givenColors := some [c] }) = .nothing := rfl
  have alone : r.stylingAccount n.traits { givenColors := some [c] } = r.colorAccount c := by
    rw [stylingAccount_eq, texts, boxes, Account.nothing_andThen, Account.andThen_nothing]
    exact Account.andThen_nothing _
  rw [entryErrors, result_applyStyles, alone, r.rejection_colorAccount c]

theorem errors_colorsAccount (r : Resolver) (n : Node) (cs : List ColorEntry) :
    (r.colorsAccount cs).result.errors = cs.flatMap (r.entryErrors n) := by
  have complete := r.rejection_colorsAccount cs
  unfold colorsAccount at complete ⊢
  rw [Account.result_all complete, List.flatMap_map]
  exact congrArg (List.flatMap · cs) (funext fun c => (r.entryErrors_eq n c).symm)

/-- The errors about the colour entries of a styling come first, one entry after the other. -/
theorem entryErrors_prefix (r : Resolver) (n : Node) (s : Styling) :
    s.colors.flatMap (r.entryErrors n) <+: (r.applyStyles n s).2.errors := by
  have split : (r.colorsAccount s.colors).result.errors <+:
      (r.stylingAccount n.traits s).result.errors := by
    rw [stylingAccount_eq, Account.result_andThen (r.rejection_colorsAccount _)]
    exact List.prefix_append _ _
  rw [← r.errors_colorsAccount n, result_applyStyles]
  cases (r.stylingAccount n.traits s).rejection with
  | none => exact split
  | some rejection => exact split.trans (List.prefix_append _ _)

/-- The only error about a literal entry is that it is malformed. -/
theorem entryErrors_of_literal (r : Resolver) (n : Node) {c : ColorEntry}
    (h : c.isThemeReference = false) :
    r.entryErrors n c = if isMalformed c then [malformedMessage c] else [] := by
  have literal : r.colorAccount c = literalAccount c := by
    unfold colorAccount activePath
    rw [h]
    rfl
  rw [entryErrors_eq, literal]
  cases hm : isMalformed c with
  | false => exact (errors_literalAccount c).2 hm
  | true =>
    rw [literalAccount_of_malformed hm]
    rfl

/-- **Lowering and styling agree on what a malformed fill is, but for `transparent`.** For a widget
that is no text lowering records first what there is about its colour entries, one after the other,
and so does its styling on the node with errors. Of a literal entry for a fill lowering has a
malformed colour on record if and only if the styling reports an error, which says so too, exactly
if the value of the entry is not `transparent`: this one is passed over by lowering alone. -/
theorem malformed_of_lowered_iff (r : Resolver) {w : Widget} (ht : w.kind ≠ .text)
    {run after : Run} {n : Node} (h : w.lower.Yields run n after) :
    run.diagnostics ++ w.styling.colors.flatMap (Widget.entryNotes w.id) <+: after.diagnostics ∧
      w.styling.colors.flatMap (r.entryErrors n) <+: (r.applyStyles n w.styling).2.errors ∧
      ∀ c ∈ w.styling.colors, c.property ∈ Widget.fillProperties → c.isThemeReference = false →
        (∀ e ∈ r.entryErrors n c, e = malformedMessage c) ∧
        ((Widget.malformedWarning w.id c.value ∈ Widget.entryNotes w.id c ↔
          r.entryErrors n c ≠ []) ↔ c.value ≠ "transparent") := by
  refine ⟨(Widget.yields_painted ht h).2, r.entryErrors_prefix n w.styling, ?_⟩
  intro c _ fills literal
  have contains := List.contains_iff_mem.2 fills
  have painted : isMalformed c = (Rgb.ofHex? c.value).isNone := by
    rw [isMalformed, painting?, if_pos contains]
    rfl
  rw [r.entryErrors_of_literal n literal, painted, Widget.entryNotes_eq, Widget.isFillEntry,
    contains, literal]
  by_cases ho : Rgb.ofHex? c.value = none
  · by_cases hv : c.value = "transparent"
    · simp [hv, Widget.ofHex?_transparent]
    · simp [ho, hv]
  · have colour : c.value ≠ "transparent" := fun hv => ho (hv ▸ Widget.ofHex?_transparent)
    simp [ho, colour]

theorem malformed_of_lowered_iff_card :
    let r : Resolver := {}
    let entry (property value : Text) : ColorEntry := { property, value }
    let w : Widget := { id := "card", kind := .card, styling := {
      givenColors := some [entry "backgroundColor" "#FFF", entry "color" "#12345"] } }
    w.kind ≠ .text ∧ ∃ n after, w.lower.Yields {} n after ∧
      w.styling.colors.flatMap (Widget.entryNotes w.id) <+: after.diagnostics ∧
      w.styling.colors.flatMap (r.entryErrors n) <+: (r.applyStyles n w.styling).2.errors ∧
      ∀ c ∈ w.styling.colors, c.property ∈ Widget.fillProperties → c.isThemeReference = false →
        (∀ e ∈ r.entryErrors n c, e = malformedMessage c) ∧
        ((Widget.malformedWarning w.id c.value ∈ Widget.entryNotes w.id c ↔
          r.entryErrors n c ≠ []) ↔ c.value ≠ "transparent") := by
  intro r entry w
  have ht : w.kind ≠ .text := by decide
  obtain ⟨n, after, h⟩ := (w.returns_lower_iff {}).2 (by decide +kernel)
  exact ⟨ht, n, after, h, r.malformed_of_lowered_iff ht h⟩

/-- A container with a transparent background is lowered without a record, and its styling fails. -/
theorem malformed_of_transparent :
    let r : Resolver := {}
    let c : ColorEntry := { property := "backgroundColor", value := "transparent" }
    let w : Widget := { id := "c", kind := .container, styling := { givenColors := some [c] } }
    ∃ n after, w.lower.Yields {} n after ∧ after.diagnostics = [] ∧
      Widget.malformedWarning w.id c.value ∉ Widget.entryNotes w.id c ∧
      r.entryErrors n c =
        ["Failed to apply color backgroundColor: Invalid hex color format: transparent"] := by
  intro r c w
  obtain ⟨n, after, h⟩ := (w.returns_lower_iff {}).2 (by decide +kernel)
  have silent : after.diagnostics = [] := by
    rw [(w.mirrors_of_yields h).after, Run.diagnostics_advanced]
    decide +kernel
  have error : r.entryErrors n c =
      ["Failed to apply color backgroundColor: Invalid hex color format: transparent"] := by
    rw [r.entryErrors_of_literal n rfl]
    decide +kernel
  exact ⟨n, after, h, silent, by decide +kernel, error⟩

end Resolver

end DesignTree
