import DesignTree.Proofs.Run.Append
import DesignTree.Proofs.Style.Stack
import Mathlib.Data.List.Forall2

/-! # What the switches of styling make different

Whether literal values are taken for missing tokens makes a difference only where a token is
missing, which is an error if they are not. So a styling without errors is the same if they are
(`applyStyles_of_noErrors`).

Where references into the theme do not count, no token is looked up, and the tokens make no
difference (`applyStyles_of_useVariables_false`).

Both carry over from a node to the styling of a tree in a run (`agrees_applyTree`,
`applyTree_of_useVariables_false`).
-/

namespace DesignTree.Resolver

/-! ## Literal values for missing tokens -/

/-- A resolver that does, or does not, take literal values for missing tokens. -/
def withFallback (r : Resolver) (on : Bool) : Resolver :=
  { r with config := { r.config with fallbackToDirectValues := on } }

section

variable (r : Resolver) (on : Bool)

@[simp]
theorem fallback_withFallback : (r.withFallback on).config.fallbackToDirectValues = on := rfl

@[simp]
theorem activePath_withFallback : (r.withFallback on).activePath = r.activePath := rfl

@[simp]
theorem colorBinding?_withFallback : (r.withFallback on).colorBinding? = r.colorBinding? := rfl

@[simp]
theorem typographyBinding?_withFallback :
    (r.withFallback on).typographyBinding? = r.typographyBinding? := rfl

end

/-- Where the first change comes to a result without errors, the second one comes to the same. -/
def AgreesUnlessError (c d : Change StyleResult) : Prop :=
  ∀ n result m, Gives c n result m → result.errors = [] → Gives d n result m

theorem AgreesUnlessError.refl (c : Change StyleResult) : AgreesUnlessError c c :=
  fun _ _ _ h _ => h

/-- Changes one after the other agree if their errors are put together. -/
theorem AgreesUnlessError.both {c c' d d' : Change StyleResult}
    {g : StyleResult → StyleResult → StyleResult}
    (hg : ∀ a b, (g a b).errors = a.errors ++ b.errors) (hc : AgreesUnlessError c c')
    (hd : AgreesUnlessError d d') :
    AgreesUnlessError (do let a ← c; let b ← d; return g a b)
      (do let a ← c'; let b ← d'; return g a b) := by
  intro n result m h he
  obtain ⟨first, between, second, hfirst, hsecond, rfl⟩ := gives_both.1 h
  rw [hg, List.append_eq_nil_iff] at he
  exact gives_both.2 ⟨first, between, second, hc _ _ _ hfirst he.1, hd _ _ _ hsecond he.2, rfl⟩

/-- An error agrees with anything. -/
theorem agrees_ofError (message : Text) (d : Change StyleResult) :
    AgreesUnlessError (pure (.ofError message)) d := by
  intro n result m h he
  obtain ⟨rfl, -⟩ := gives_pure.1 h
  simp [StyleResult.ofError] at he

theorem agrees_applyColor (r : Resolver) (c : ColorEntry) :
    AgreesUnlessError ((r.withFallback false).applyColor c)
      ((r.withFallback true).applyColor c) := by
  unfold applyColor
  simp only [activePath_withFallback, colorBinding?_withFallback, fallback_withFallback]
  split
  · exact .refl _
  · split
    · exact .refl _
    · exact agrees_ofError _ _

theorem agrees_applyColors (r : Resolver) (cs : List ColorEntry) :
    AgreesUnlessError ((r.withFallback false).applyColors cs)
      ((r.withFallback true).applyColors cs) := by
  induction cs with
  | nil => exact .refl _
  | cons c rest ih => exact .both (fun _ _ => rfl) (r.agrees_applyColor c) ih

theorem agrees_applyTextValue (r : Resolver) (path : Option Text) (v : TextValue) :
    AgreesUnlessError ((r.withFallback false).applyTextValue path v)
      ((r.withFallback true).applyTextValue path v) := by
  unfold applyTextValue
  simp only [typographyBinding?_withFallback, fallback_withFallback]
  split
  · exact .refl _
  · split
    · exact .refl _
    · exact agrees_ofError _ _

theorem agrees_applyTextValues (r : Resolver) (path : Option Text) (vs : List TextValue) :
    AgreesUnlessError ((r.withFallback false).applyTextValues path vs)
      ((r.withFallback true).applyTextValues path vs) := by
  induction vs with
  | nil => exact .refl _
  | cons v rest ih => exact .both (fun _ _ => rfl) (r.agrees_applyTextValue path v) ih

theorem agrees_applyTypography (r : Resolver) (t : Typography) :
    AgreesUnlessError ((r.withFallback false).applyTypography t)
      ((r.withFallback true).applyTypography t) := by
  intro n result m h he
  unfold applyTypography at h ⊢
  rw [gives_get_bind] at h ⊢
  by_cases hk : n.kind ≠ .text
  · rw [if_pos hk] at h ⊢
    exact h
  · rw [if_neg hk] at h ⊢
    have both := AgreesUnlessError.both (g := fun a b => (a.merge b).settled) (fun _ _ => rfl)
      (r.agrees_applyTextValues (r.activePath t.isThemeReference t.themePath) (textValues t))
      (r.agrees_applyColors (textColor t))
    exact both _ _ _ h he

theorem agrees_aspects (r : Resolver) (kind : NodeKind) (s : Styling) :
    List.Forall₂ AgreesUnlessError ((r.withFallback false).aspects kind s)
      ((r.withFallback true).aspects kind s) :=
  rel_aspects r.agrees_applyColors r.agrees_applyTypography (fun _ => .refl _) (fun _ => .refl _)
    (fun _ => .refl _) kind s

/-- Aspects one after the other agree, if no error is left at the end. -/
theorem applyAspects_of_agree {cs ds : List (Change StyleResult)}
    (h : List.Forall₂ AgreesUnlessError cs ds) {n m : Node} {total result : StyleResult}
    (hy : applyAspects n total cs = (m, result, none)) (he : result.errors = []) :
    total.errors = [] ∧ applyAspects n total ds = (m, result, none) := by
  induction h generalizing n total with
  | nil =>
    rw [applyAspects] at hy
    cases hy
    exact ⟨he, rfl⟩
  | @cons c d rest others hc _ ih =>
    rw [applyAspects] at hy ⊢
    rcases hr : StateT.run (ExceptT.run c) n with ⟨rejection | own, between⟩
    · rw [hr] at hy
      cases hy
    · rw [hr] at hy
      obtain ⟨hmerged, hrest⟩ := ih hy
      obtain ⟨htotal, hown⟩ := List.append_eq_nil_iff.1 hmerged
      have hd : StateT.run (ExceptT.run d) n = (.ok own, between) := hc n own between hr hown
      rw [hd]
      exact ⟨htotal, hrest⟩

/-- A styling without errors is the same if literal values are taken for missing tokens. -/
theorem applyStyles_of_noErrors (r : Resolver) (n : Node) (s : Styling)
    (h : ((r.withFallback false).applyStyles n s).2.errors = []) :
    (r.withFallback true).applyStyles n s = (r.withFallback false).applyStyles n s := by
  unfold applyStyles at h ⊢
  rcases hr : applyAspects (clearPaints s n) {} ((r.withFallback false).aspects n.kind s) with
    ⟨m, result, _ | rejection⟩
  · rw [hr] at h
    obtain ⟨-, hd⟩ := applyAspects_of_agree (r.agrees_aspects n.kind s) hr h
    rw [hd]
  · rw [hr] at h
    simp [StyleResult.settled] at h

/-! ## References that do not count -/

section

variable {r r' : Resolver}

theorem activePath_of_useVariables_false (h : r.config.useVariables = false)
    (isThemeReference : Bool) (path : Option Text) : r.activePath isThemeReference path = none := by
  simp [activePath, h]

theorem applyColors_of_useVariables_false (h : r.config.useVariables = false)
    (h' : r'.config.useVariables = false) : r'.applyColors = r.applyColors := by
  funext cs
  induction cs with
  | nil => rfl
  | cons c rest ih =>
    have hc : r'.applyColor c = r.applyColor c := by
      simp only [applyColor, activePath_of_useVariables_false h,
        activePath_of_useVariables_false h']
    rw [applyColors, applyColors, hc, ih]

theorem applyTextValues_none (r r' : Resolver) (vs : List TextValue) :
    r'.applyTextValues none vs = r.applyTextValues none vs := by
  induction vs with
  | nil => rfl
  | cons v rest ih =>
    have hv : r'.applyTextValue none v = r.applyTextValue none v := rfl
    rw [applyTextValues, applyTextValues, hv, ih]

theorem applyTypography_of_useVariables_false (h : r.config.useVariables = false)
    (h' : r'.config.useVariables = false) : r'.applyTypography = r.applyTypography := by
  funext t
  simp only [applyTypography, activePath_of_useVariables_false h,
    activePath_of_useVariables_false h', applyColors_of_useVariables_false h h',
    applyTextValues_none r r']

/-- Where references into the theme do not count, stylings do not hang on the tokens. -/
theorem applyStyles_of_useVariables_false (h : r.config.useVariables = false)
    (h' : r'.config.useVariables = false) (n : Node) (s : Styling) :
    r'.applyStyles n s = r.applyStyles n s := by
  have haspects : r'.aspects n.kind s = r.aspects n.kind s := by
    simp only [aspects, applyColors_of_useVariables_false h h',
      applyTypography_of_useVariables_false h h']
  rw [applyStyles, applyStyles, haspects]

end

/-! ## Whole trees -/

/-- Two resolvers that style alike where a result is as it has to be, style a tree alike that has
such results only. -/
theorem styleTree_congr {r r' : Resolver} {p : StyleResult → Prop}
    (h : ∀ n s, p (r.applyStyles n s).2 → r'.applyStyles n s = r.applyStyles n s) (w : Widget)
    (n : Node) (hp : ∀ x ∈ (styleTree r w n).2.1, p x.result) :
    styleTree r' w n = styleTree r w n := by
  have single (w : Widget) (n : Node) (hs : p (r.style w n).result) : r'.style w n = r.style w n :=
    congrArg (fun x => (⟨x.1, x.2⟩ : Styled)) (h n w.styling hs)
  induction n using Node.forest_induct
    (q := fun ns => ∀ ws, (∀ x ∈ (styleAll r ws ns).2.1, p x.result) →
      styleAll r' ws ns = styleAll r ws ns) generalizing w with
  | step n children =>
    rw [styleTree_eq] at hp
    by_cases hl : w.children.length = n.children.length
    · rw [if_pos hl, List.forall_mem_cons] at hp
      rw [styleTree_eq, styleTree_eq, single w n hp.1, children w.children hp.2]
    · rw [if_neg hl, List.forall_mem_singleton] at hp
      rw [styleTree_eq, styleTree_eq, single w n hp, if_neg hl, if_neg hl]
  | nil ws => cases ws <;> rfl
  | cons m rest first others ws hp =>
    cases ws with
    | nil => rfl
    | cons v ws =>
      rw [styleAll_cons] at hp
      by_cases hc : (styleTree r v m).2.2 = true
      · rw [if_pos hc, List.forall_mem_append] at hp
        rw [styleAll_cons, styleAll_cons, first v hp.1, others ws hp.2]
      · rw [if_neg hc] at hp
        rw [styleAll_cons, styleAll_cons, first v hp, if_neg hc, if_neg hc]

/-- No error on record means that no result has one. -/
theorem errors_of_hasErrors_records {styled : List Styled}
    (h : (records styled).hasErrors = false) : ∀ x ∈ styled, x.result.errors = [] := by
  intro x hx
  rw [Diagnostics.hasErrors, List.any_eq_false] at h
  refine List.eq_nil_iff_forall_not_mem.2 fun message hm => ?_
  have recorded : Diagnostic.error .style message x.node.id ∈ records styled :=
    List.mem_flatMap.2 ⟨x, hx, List.mem_append_left _ (List.mem_map.2 ⟨message, hm, rfl⟩)⟩
  exact h _ recorded rfl

/-- A tree is styled alike if literal values are taken for missing tokens, unless an error is
recorded. -/
theorem agrees_applyTree (r : Resolver) (w : Widget) (n : Node) :
    InRun.AgreesUnlessError ((r.withFallback false).applyTree w n)
      ((r.withFallback true).applyTree w n) := by
  rintro run ⟨m, results⟩ after h he
  obtain ⟨hs, rfl, rfl, rfl⟩ := yields_applyTree.1 h
  have clean := errors_of_hasErrors_records
    (Diagnostics.hasErrors_of_subset (List.subset_append_right _ _) he)
  have same := styleTree_congr (p := fun result => result.errors = [])
    r.applyStyles_of_noErrors w n clean
  rw [yields_applyTree, same]
  exact ⟨hs, rfl, rfl, rfl⟩

/-- Where references into the theme do not count, a tree is styled alike whatever the tokens. -/
theorem applyTree_of_useVariables_false {r r' : Resolver} (h : r.config.useVariables = false)
    (h' : r'.config.useVariables = false) : r'.applyTree = r.applyTree := by
  funext w n
  have same := styleTree_congr (p := fun _ => True)
    (fun n s _ => applyStyles_of_useVariables_false h h' n s) w n fun _ _ => trivial
  rw [applyTree_eq, applyTree_eq, same]

end DesignTree.Resolver
