import DesignTree.Proofs.Conversion.Append
import DesignTree.Proofs.Conversion.Basic

/-! # Conversions with more reusable widgets

All components of a conversion draw their identifiers from one count and record into one list, but
none of them looks at what comes after it. With more reusable widgets at the end a conversion
therefore goes through the same states until the first ones are built, and from there on it only
adds to what it made and recorded (`convert_extends`).
-/

namespace DesignTree

open InRun

namespace Converter

variable {c : Converter} {tokens : TokenTable} {root : Widget} {ds es : List Definition}
  {run after after' : Run} {node node' : Node} {catalog catalog' : Catalog}

/-- Putting instances in place records nothing after the catalog is built. -/
theorem exists_built_of_convertTree
    (h : (c.convertTree tokens root ds).Yields run (node, catalog) after) :
    ∃ limit styled mid built, Synthesizer.limitOf c.variantLimit = .ok limit ∧
      (Synthesizer.lower ⟨limit, some (c.resolver tokens)⟩ root).Yields
        (run.noting (tokenWarnings tokens)) styled mid ∧
      (Synthesizer.buildAll ⟨limit, some (c.resolver tokens)⟩ ds).Yields
        (mid.noting (unsupportedWarnings root)) catalog built ∧
      after.diagnostics = built.diagnostics := by
  obtain ⟨limit, styled, mid, built, hl, hs, hb, hp⟩ := yields_convertTree.1 h
  exact ⟨limit, styled, mid, built, hl, hs, hb, (places_of_phases rfl hs hp).diagnostics⟩

/-- With more reusable widgets a catalog and what is recorded are only extended. -/
theorem convertTree_extends
    (h : (c.convertTree tokens root ds).Yields run (node, catalog) after)
    (h' : (c.convertTree tokens root (ds ++ es)).Yields run (node', catalog') after') :
    catalog <+: catalog' ∧ after.diagnostics <+: after'.diagnostics := by
  obtain ⟨limit, styled, mid, built, hl, hs, hb, recorded⟩ := exists_built_of_convertTree h
  obtain ⟨limit', styled', mid', built', hl', hs', hb', recorded'⟩ :=
    exists_built_of_convertTree h'
  obtain rfl : limit' = limit := by simpa [hl'] using hl
  obtain ⟨-, rfl⟩ := hs.unique hs'
  obtain ⟨first, between, others, hfirst, hothers, rfl⟩ :=
    Synthesizer.yields_buildAll_append.1 hb'
  obtain ⟨rfl, rfl⟩ := hb.unique hfirst
  refine ⟨List.prefix_append _ _, ?_⟩
  rw [recorded, recorded']
  exact (Synthesizer.composed_buildAll _ es).appends.extends hothers

/-- **More reusable widgets leave the first ones alone.** Where a conversion and one with more
reusable widgets at the end both return, the components of the second one begin with those of the
first one, and so does what it recorded. -/
theorem convert_extends (c : Converter) (root : Widget) (theme : Option Theme)
    (ds es : List Definition) (modes : Entries Theme) (r r' : Conversion)
    (h : c.convert root theme ds modes = .ok r)
    (h' : c.convert root theme (ds ++ es) modes = .ok r') :
    r.components <+: r'.components ∧ r.diagnostics <+: r'.diagnostics := by
  obtain ⟨tokens, node, catalog, after, library, ht, hy, -, rfl⟩ := convert_eq_ok_iff.1 h
  obtain ⟨tokens', node', catalog', after', library', ht', hy', -, rfl⟩ := convert_eq_ok_iff.1 h'
  obtain rfl : tokens' = tokens := by simpa [ht'] using ht
  obtain ⟨components, diagnostics⟩ := convertTree_extends hy hy'
  exact ⟨components.map _, diagnostics⟩

theorem convert_extends_page :
    let save : Widget := { id := "save", kind := .button, properties := { size := some "small" } }
    let huge : RecordedVariant := { name := "Huge",
                                    properties := [("size", .text "huge"), ("style", .list [])] }
    let page : Widget := { id := "page", kind := .column, children := [save] }
    let button : Definition := { widget := save, name := "Button", usageIds := ["save"] }
    let sized : Definition := { widget := save, name := "Sized", variants := [huge],
                                usageIds := ["save"] }
    let c : Converter := ⟨{}, .ofNat 4, .text "Library", .text "1"⟩
    ∃ r r', c.convert page none [sized] = .ok r ∧ c.convert page none [sized, button] = .ok r' ∧
      r.diagnostics ≠ [] ∧ r.components <+: r'.components ∧ r.diagnostics <+: r'.diagnostics := by
  intro save huge page button sized c
  obtain ⟨r, h, recorded⟩ := exists_of_any (by decide +kernel :
    (c.convert page none [sized]).toOption.any (fun r => !r.diagnostics.isEmpty) = true)
  obtain ⟨r', h'⟩ := isOk_iff.1 (by decide +kernel : (c.convert page none [sized, button]).isOk)
  refine ⟨r, r', h, h', ?_, convert_extends c page none [sized] [button] [] r r' h h'⟩
  intro none
  rw [none] at recorded
  cases recorded

end Converter

end DesignTree
