import DesignTree.Proofs.Conversion.Append
import DesignTree.Proofs.Conversion.Binding
import DesignTree.Proofs.Style.Switch

/-! # What the switches of a conversion make different

Two statements about two conversions of the same input:

* where a conversion that takes no literal values for missing tokens succeeds, one that does take
  them makes the same (`convert_withFallback_of_success`);
* where references into the theme do not count, the theme changes nothing of the design, and no node
  has a binding (`convert_of_useVariables_false`).

The first one is carried through the phases as agreement where no error is recorded. For the second
one the phases are the same operation in both conversions, and only what is recorded about the
tokens, before all else, differs.
-/

namespace DesignTree

open InRun

namespace Synthesizer

variable {s s' : Synthesizer}

/-! ## Literal values for missing tokens -/

theorem agrees_lower (limit : Count) (r : Resolver) (w : Widget) :
    AgreesUnlessError (lower ⟨limit, some (r.withFallback false)⟩ w)
      (lower ⟨limit, some (r.withFallback true)⟩ w) :=
  (AgreesUnlessError.refl w.lower).bind
    (fun n => (r.agrees_applyTree w n).bind (fun _ => .refl _) fun _ => composed_pure _)
    fun n => ((r.withFallback false).composed_applyTree w n).bind fun _ => composed_pure _

/-- Synthesizers of one limit whose trees agree build catalogs that agree. -/
theorem agrees_buildAll (h : ∀ w, AgreesUnlessError (s.lower w) (s'.lower w))
    (hl : s'.limit = s.limit) (ds : List Definition) :
    AgreesUnlessError (s.buildAll ds) (s'.buildAll ds) := by
  have variant (d : Definition) (c : Configuration) :
      AgreesUnlessError (s.variant d c) (s'.variant d c) :=
    (AgreesUnlessError.refl (variantWidget d c)).bind
      (fun w => (h w).bind (fun _ => .refl _) fun _ => composed_pure _)
      fun w => (s.composed_lower w).bind fun _ => composed_pure _
  have variants (d : Definition) : AgreesUnlessError (s.variants d) (s'.variants d) := by
    unfold Synthesizer.variants onlyVariant
    simp only [hl]
    split
    · exact ((h d.widget).bind (fun _ => .refl _) fun _ => composed_pure _).bind
        (fun _ => .refl _) fun _ => composed_pure _
    · exact (AgreesUnlessError.refl _).bind (fun k => .mapM (variant d) (s.composed_variant d) _)
        fun k => composed_mapM (s.composed_variant d) _
  have build (d : Definition) : AgreesUnlessError (s.build d) (s'.build d) :=
    (variants d).bind
      (fun vs => (h d.widget).bind (fun _ => .refl _) fun _ =>
        (Composed.nextId _).bind fun _ => composed_pure _)
      fun vs => (s.composed_lower d.widget).bind fun _ =>
        (Composed.nextId _).bind fun _ => composed_pure _
  induction ds with
  | nil => exact .refl _
  | cons d rest ih =>
    exact (build d).bind (fun c => ih.bind (fun _ => .refl _) fun _ => composed_pure _)
      fun c => (s.composed_buildAll rest).bind fun _ => composed_pure _

end Synthesizer

namespace Converter

/-- A converter that does, or does not, take literal values for missing tokens. -/
def withFallback (c : Converter) (on : Bool) : Converter :=
  { c with config := { c.config with fallbackToDirectValues := on } }

theorem agrees_convertTree (c : Converter) (tokens : TokenTable) (root : Widget)
    (ds : List Definition) :
    AgreesUnlessError ((c.withFallback false).convertTree tokens root ds)
      ((c.withFallback true).convertTree tokens root ds) := by
  rintro run ⟨node, catalog⟩ after h he
  obtain ⟨limit, styled, mid, built, hl, hs, hb, hp⟩ := yields_convertTree.1 h
  -- No error at the end means that there was none after each of the phases.
  have cleanBuilt : built.diagnostics.hasErrors = false :=
    Diagnostics.hasErrors_of_subset
      ((catalog.composed_placeInstances _ root styled).appends.grows hp) he
  have cleanMid : mid.diagnostics.hasErrors = false := by
    refine Diagnostics.hasErrors_of_subset (fun d hd => ?_) cleanBuilt
    exact (Synthesizer.composed_buildAll _ ds).appends.grows hb (List.mem_append_left _ hd)
  have trees := Synthesizer.agrees_lower limit (c.resolver tokens)
  have catalogs : AgreesUnlessError
      (Synthesizer.buildAll ⟨limit, some ((c.resolver tokens).withFallback false)⟩ ds)
      (Synthesizer.buildAll ⟨limit, some ((c.resolver tokens).withFallback true)⟩ ds) :=
    Synthesizer.agrees_buildAll trees rfl ds
  have hs' := trees root _ _ _ hs cleanMid
  have hb' := catalogs _ _ _ hb cleanBuilt
  exact yields_convertTree.2 ⟨limit, styled, mid, built, hl, hs', hb', hp⟩

/-- **Literal values make no difference to a success.** Where a conversion that takes no literal
values for missing tokens succeeds, the conversion that takes them makes the same. -/
theorem convert_withFallback_of_success (c : Converter) (root : Widget) (theme : Option Theme)
    (ds : List Definition) (modes : Entries Theme) (r : Conversion)
    (h : (c.withFallback false).convert root theme ds modes = .ok r) (hs : r.success = true) :
    (c.withFallback true).convert root theme ds modes = .ok r := by
  obtain ⟨tokens, node, catalog, after, library, ht, hy, hl, rfl⟩ := convert_eq_ok_iff.1 h
  have clean : after.diagnostics.hasErrors = false := by
    simpa [Conversion.success] using hs
  have hy' := c.agrees_convertTree tokens root ds _ _ _ hy clean
  exact convert_eq_ok_iff.2 ⟨tokens, node, catalog, after, library, ht, hy', hl, rfl⟩

theorem convert_withFallback_of_success_page :
    let primary : ColorEntry := { property := "backgroundColor", value := "#6750A4",
                                  isThemeReference := true,
                                  themePath := some "colorScheme.primary" }
    let theme : Theme := { colorScheme := { colors := .of [(.primary, "#6750A4")] } }
    let save : Widget := { id := "save", kind := .button,
                           styling := { givenColors := some [primary] } }
    let page : Widget := { id := "page", kind := .column, children := [save] }
    let button : Definition := { widget := save, name := "Button", usageIds := ["save"] }
    let c : Converter := ⟨{}, .ofNat 4, .text "Library", .text "1"⟩
    ∃ r, (c.withFallback false).convert page (some theme) [button] = .ok r ∧ r.success = true ∧
      (c.withFallback true).convert page (some theme) [button] = .ok r := by
  intro primary theme save page button c
  have succeeds : ((c.withFallback false).convert page (some theme) [button]).toOption.any
      Conversion.success = true := by decide +kernel
  obtain ⟨r, h⟩ := isOk_iff.1 (by decide +kernel :
    ((c.withFallback false).convert page (some theme) [button]).isOk)
  rw [h] at succeeds
  refine ⟨r, h, succeeds, ?_⟩
  exact convert_withFallback_of_success c page (some theme) [button] [] r h succeeds

/-! ## References that do not count -/

end Converter

namespace Synthesizer

variable {s s' : Synthesizer}

/-- Synthesizers of one limit that make the same trees build the same catalogs. -/
theorem buildAll_congr (h : s'.lower = s.lower) (hl : s'.limit = s.limit) :
    s'.buildAll = s.buildAll := by
  have variant : s'.variant = s.variant := by
    funext d c
    rw [Synthesizer.variant, Synthesizer.variant, h]
  have variants : s'.variants = s.variants := by
    funext d
    rw [Synthesizer.variants, Synthesizer.variants, onlyVariant, onlyVariant, h, hl, variant]
  have build : s'.build = s.build := by
    funext d
    rw [Synthesizer.build, Synthesizer.build, variants, h]
  funext ds
  induction ds with
  | nil => rfl
  | cons d rest ih => rw [buildAll, buildAll, build, ih]

end Synthesizer

/-- Whether a problem is a warning about the theme. -/
def Diagnostic.isThemeWarning (d : Diagnostic) : Bool := d.concern = .theme && !d.isError

/-- The design that a conversion makes, and what it records beside warnings about the theme. -/
def Conversion.design (r : Conversion) : Node × List Component × Library × Diagnostics :=
  (r.root, r.components, r.library, r.diagnostics.filter (!·.isThemeWarning))

namespace Converter

/-- What a conversion does after recording what there is to say about the tokens. -/
def phases (c : Converter) (r : Resolver) (root : Widget) (ds : List Definition) :
    InRun (Node × Catalog) := do
  let node ← root.lower
  let (node, _) ← r.applyTree root node
  record (unsupportedWarnings root)
  let limit ← lift (Synthesizer.limitOf c.variantLimit)
  let catalog ← Synthesizer.buildAll ⟨limit, some r⟩ ds
  let node ← catalog.placeInstances (.ofCatalog catalog) root node
  return (node, catalog)

theorem convertTree_eq (c : Converter) (tokens : TokenTable) (root : Widget)
    (ds : List Definition) :
    c.convertTree tokens root ds = (do
      record (tokenWarnings tokens)
      c.phases (c.resolver tokens) root ds) := rfl

theorem composed_phases (c : Converter) (r : Resolver) (root : Widget) (ds : List Definition) :
    (c.phases r root ds).Composed :=
  root.composed_lower.bind fun n => (r.composed_applyTree root n).bind fun _ =>
    (plain_record _).composed.bind fun _ => (plain_lift _).composed.bind fun _ =>
      (Synthesizer.composed_buildAll _ ds).bind fun catalog =>
        (catalog.composed_placeInstances _ root _).bind fun _ => composed_pure _

/-- What is recorded about the tokens stands before all else, and makes no difference to it. -/
theorem runFrom_convertTree (c : Converter) (tokens : TokenTable) (root : Widget)
    (ds : List Definition) :
    runFrom {} (c.convertTree tokens root ds) =
      ((runFrom {} (c.phases (c.resolver tokens) root ds)).1,
        (runFrom {} (c.phases (c.resolver tokens) root ds)).2.heading (tokenWarnings tokens)) := by
  rw [convertTree_eq, runFrom_bind, runFrom_record, ← (c.composed_phases _ root ds).appends]
  simp [Run.heading, Run.noting]

/-- What a conversion makes of the outcome of its phases. -/
def designOf (c : Converter) (outcome : Except Fault (Node × Catalog) × Run) :
    Except Fault (Node × List Component × Library × Diagnostics) := do
  let (node, catalog) ← outcome.1
  let library ← Library.ofCatalog c.libraryName c.libraryVersion catalog
  return (node, catalog.map (·.component), library,
    outcome.2.diagnostics.filter (!·.isThemeWarning))

theorem filter_tokenWarnings (tokens : TokenTable) :
    (tokenWarnings tokens).filter (!·.isThemeWarning) = [] := by
  rw [List.filter_eq_nil_iff]
  intro d hd
  obtain ⟨message, -, rfl⟩ := List.mem_map.1 hd
  simp [Diagnostic.isThemeWarning, Diagnostic.warning, Diagnostic.isError]

/-- The design hangs on the tokens by how they are resolved alone. -/
theorem design_convert {c : Converter} {root : Widget} {theme : Option Theme}
    {ds : List Definition} {modes : Entries Theme} {tokens : TokenTable}
    (ht : c.buildTokens theme modes = .ok tokens) :
    (c.convert root theme ds modes).map Conversion.design =
      c.designOf (runFrom {} (c.phases (c.resolver tokens) root ds)) := by
  unfold convert designOf
  rw [ht]
  simp only [bind, Except.bind, runFrom_convertTree]
  rcases runFrom {} (c.phases (c.resolver tokens) root ds) with ⟨fault | ⟨node, catalog⟩, after⟩
  · rfl
  · simp only
    cases Library.ofCatalog c.libraryName c.libraryVersion catalog with
    | error fault => rfl
    | ok library =>
      simp [pure, Except.pure, Except.map, Conversion.design, Run.heading, filter_tokenWarnings]

/-- Where references into the theme do not count, the phases are the same for all tokens. -/
theorem phases_of_useVariables_false {c : Converter} {r r' : Resolver}
    (h : r.config.useVariables = false) (h' : r'.config.useVariables = false) :
    c.phases r' = c.phases r := by
  have tree := Resolver.applyTree_of_useVariables_false h h'
  have lower (limit : Count) :
      Synthesizer.lower ⟨limit, some r'⟩ = Synthesizer.lower ⟨limit, some r⟩ := by
    funext w
    simp only [Synthesizer.lower, tree]
  have catalogs (limit : Count) :
      Synthesizer.buildAll ⟨limit, some r'⟩ = Synthesizer.buildAll ⟨limit, some r⟩ :=
    Synthesizer.buildAll_congr (lower limit) rfl
  funext root ds
  simp only [phases, tree, catalogs]

/-- **Without variables the theme leaves the design alone.** Where references into the theme do not
count, conversions of one input make the same design whatever the theme and its modes, or end with
the same fault, and no node of a design has a binding. -/
theorem convert_of_useVariables_false (c : Converter) (hu : c.config.useVariables = false)
    (root : Widget) (ds : List Definition) (theme theme' : Option Theme)
    (modes modes' : Entries Theme) :
    (c.convert root theme ds modes).map Conversion.design =
        (c.convert root theme' ds modes').map Conversion.design ∧
      ∀ r, c.convert root theme ds modes = .ok r →
        ∀ t ∈ r.root :: r.components.flatMap Component.nodeSpecs, ∀ n ∈ t.walk,
          n.bindings = [] := by
  constructor
  · obtain ⟨tokens, ht⟩ := isOk_iff.1 (c.isOk_buildTokens theme modes)
    obtain ⟨tokens', ht'⟩ := isOk_iff.1 (c.isOk_buildTokens theme' modes')
    have same : c.phases (c.resolver tokens) = c.phases (c.resolver tokens') :=
      phases_of_useVariables_false hu hu
    rw [design_convert ht, design_convert ht', same]
  · intro r h t hm
    exact (binds_of_convert h t hm).bindings_eq_nil hu

theorem convert_of_useVariables_false_page :
    let primary : ColorEntry := { property := "backgroundColor", value := "#6750A4",
                                  isThemeReference := true,
                                  themePath := some "colorScheme.primary" }
    let theme : Theme := { colorScheme := { colors := .of [(.primary, "#FF0000")] } }
    let save : Widget := { id := "save", kind := .button,
                           styling := { givenColors := some [primary] } }
    let page : Widget := { id := "page", kind := .column, children := [save] }
    let button : Definition := { widget := save, name := "Button", usageIds := ["save"] }
    let c : Converter := ⟨{ useVariables := false }, .ofNat 4, .text "Library", .text "1"⟩
    c.config.useVariables = false ∧ ∃ r, c.convert page none [button] = .ok r ∧
      (c.convert page (some theme) [button]).map Conversion.design = .ok r.design ∧
      ∀ t ∈ r.root :: r.components.flatMap Component.nodeSpecs, ∀ n ∈ t.walk, n.bindings = [] := by
  intro primary theme save page button c
  obtain ⟨r, h⟩ := isOk_iff.1 (by decide +kernel : (c.convert page none [button]).isOk)
  obtain ⟨same, unbound⟩ :=
    convert_of_useVariables_false c rfl page [button] none (some theme) [] []
  rw [h] at same
  exact ⟨rfl, r, h, same.symm, unbound r h⟩

end Converter

end DesignTree
