import DesignTree.Proofs.Conversion.Basic
import DesignTree.Proofs.Style.Binding
import DesignTree.Proofs.Token.Identity
import Mathlib.Data.Option.Basic

/-! # Bindings in a conversion

All bindings in the trees of a conversion, those of the components included, are to tokens that its
resolver finds (`binds_of_convert`). Trees are lowered without bindings, styling adds only such
ones, and neither the name of a component nor an instance brings in any.

The tokens of a conversion have identifiers of their own, so that a binding is to one of them and no
other (`bindings_of_convert`).
-/

namespace DesignTree

namespace Resolver

open InRun

theorem Binds.asComponent {r : Resolver} {n : Node} (h : r.Binds n) (name description : Text) :
    r.Binds (n.asComponent name description) := by
  have parts := binds_iff.1 h
  exact binds_iff.2 parts

/-- Instances in the place of nodes bind nothing. -/
theorem Binds.replaced {r : Resolver} {U : Text → Option Text} {n m : Node} (h : r.Binds n)
    (hr : n.Replaced U m) : r.Binds m := by
  induction n using Node.induct generalizing m with
  | step n ih =>
    cases hr with
    | usage hw hu hp =>
      exact binds_iff.2 ⟨fun b hb => absurd hb List.not_mem_nil,
        fun c hc => absurd hc List.not_mem_nil⟩
    | @other _ widgetId children hw hu hc =>
      obtain ⟨hn, hchildren⟩ := binds_iff.1 h
      refine binds_iff.2 ⟨hn, ?_⟩
      show ∀ c ∈ children, r.Binds c
      generalize n.children = ns at ih hchildren hc
      induction hc with
      | nil => exact fun c hm => absurd hm List.not_mem_nil
      | @cons k m ks ms hk _ ihr =>
        have first := ih k List.mem_cons_self (hchildren k List.mem_cons_self) hk
        have others := ihr (fun j hj => ih j (List.mem_cons_of_mem k hj))
          fun j hj => hchildren j (List.mem_cons_of_mem k hj)
        exact List.forall_mem_cons.2 ⟨first, others⟩

/-- A tree that is made binds only what the resolver provides. -/
theorem binds_of_lower {limit : Count} {r : Resolver} {w : Widget} {run after : Run} {m : Node}
    (h : (Synthesizer.lower ⟨limit, some r⟩ w).Yields run m after) : r.Binds m := by
  obtain ⟨n, lowered, hn, -, rfl, -⟩ := Synthesizer.yields_lower.1 h
  exact (r.binds_of_yields_lower w hn).styleTree w

/-- What the resolver provides is bound to a token of its table. -/
theorem Provides.mem_ids {r : Resolver} {b : Binding} (h : r.Provides b) :
    b.variableId ∈ r.tokens.ids := by
  obtain ⟨-, part, name, target, hb⟩ := h
  obtain ⟨id, hid, rfl⟩ := Option.map_eq_some_iff.1 hb
  rw [Option.orElse_eq_some] at hid
  rcases hid with hm | ⟨-, hs⟩
  · split at hm
    · obtain ⟨v, hv, rfl⟩ := Option.map_eq_some_iff.1 hm
      exact List.mem_append_right _
        (List.mem_map.2 ⟨v, TokenTable.mem_modalVariables_of_getModal? hv, rfl⟩)
    · cases hm
  · obtain ⟨v, hv, rfl⟩ := Option.map_eq_some_iff.1 hs
    exact List.mem_append_left _ (List.mem_map.2 ⟨v, TokenTable.mem_tokens_of_get? hv, rfl⟩)

end Resolver

namespace Converter

/-- All bindings in the trees of a conversion are to tokens that its resolver finds. -/
theorem binds_of_convert {c : Converter} {root : Widget} {theme : Option Theme}
    {ds : List Definition} {modes : Entries Theme} {r : Conversion}
    (h : c.convert root theme ds modes = .ok r) :
    ∀ t ∈ r.root :: r.components.flatMap Component.nodeSpecs, (c.resolver r.tokens).Binds t := by
  obtain ⟨tokens, node, catalog, after, library, -, hy, -, rfl⟩ := convert_eq_ok_iff.1 h
  obtain ⟨limit, styled, lowered, built, -, hs, hb, hp⟩ := yields_convertTree.1 hy
  have tree := (Resolver.binds_of_lower hs).replaced (places_of_phases rfl hs hp).replaced
  have components := Synthesizer.forall_nodeSpecs_of_buildAll
    (fun _ _ _ _ hm => Resolver.binds_of_lower hm) (fun _ name description hn =>
      hn.asComponent name description) hb
  refine List.forall_mem_cons.2 ⟨tree, ?_⟩
  simp only [List.flatMap_map, List.forall_mem_flatMap]
  exact components

theorem nodup_ids_of_buildTokens {c : Converter} {theme : Option Theme} {modes : Entries Theme}
    {tokens : TokenTable} (h : c.buildTokens theme modes = .ok tokens) : tokens.ids.Nodup := by
  unfold buildTokens at h
  cases theme with
  | none =>
    cases h
    exact List.nodup_nil
  | some theme =>
    simp only at h
    split at h
    · cases h
      rw [TokenTable.ids_ofTheme]
      exact TokenTable.nodup_ids_ofTheme theme c.config.collectionPrefix
    · cases ha : (TokenTable.ofTheme theme c.config.collectionPrefix).addModes
          (theme :: modes.map (·.2)) (TokenTable.defaultTheme :: modes.keys)
          c.config.collectionPrefix with
      | error e =>
        rw [ha] at h
        cases h
      | ok table =>
        rw [ha] at h
        cases h
        exact TokenTable.nodup_ids_of_addModes ha

/-- **Bindings have referents.** The tokens of a conversion, those of one mode and of several modes
together, have identifiers of their own, and every binding in its trees, those of the components
included, is to exactly one of them. -/
theorem bindings_of_convert (c : Converter) (root : Widget) (theme : Option Theme)
    (ds : List Definition) (modes : Entries Theme) (r : Conversion)
    (h : c.convert root theme ds modes = .ok r) :
    r.tokens.ids.Nodup ∧
      ∀ t ∈ r.root :: r.components.flatMap Component.nodeSpecs, ∀ n ∈ t.walk,
        ∀ b ∈ n.bindings, r.tokens.ids.count b.variableId = 1 := by
  have bound := binds_of_convert h
  obtain ⟨tokens, node, catalog, after, library, hb, -, -, rfl⟩ := convert_eq_ok_iff.1 h
  have nodup := nodup_ids_of_buildTokens hb
  refine ⟨nodup, fun t hm n hn b hb => ?_⟩
  exact List.count_eq_one_of_mem nodup (bound t hm n hn b hb).mem_ids

theorem bindings_of_convert_page :
    let primary : ColorEntry := { property := "backgroundColor", value := "#6750A4",
                                  isThemeReference := true,
                                  themePath := some "colorScheme.primary" }
    let body : Typography := { fontSize := some 14, isThemeReference := true,
                               themePath := some "textTheme.bodyMedium" }
    let light : Theme := { colorScheme := { colors := .of [(.primary, "#6750A4")] },
                           textTheme := { styles := .of [(.bodyMedium, { fontSize := some 14 })] },
                           spacing := .of [("small", 8)] }
    let dark : Theme := { colorScheme := { brightness := .dark,
                                           colors := .of [(.primary, "#D0BCFF")] } }
    let save : Widget := { id := "save", kind := .button,
                           styling := { givenColors := some [primary] } }
    let note : Widget := { id := "note", kind := .text,
                           styling := { givenTypography := some (some body) } }
    let page : Widget := { id := "page", kind := .column, children := [save, note] }
    let button : Definition := { widget := save, name := "Button", usageIds := ["save"] }
    let c : Converter := ⟨{ collectionPrefix := "multimode-", preferMultiMode := true }, .ofNat 4,
                          .text "Library", .text "1"⟩
    ∃ r, c.convert page (some light) [button] [("Dark", dark)] = .ok r ∧ r.tokens.ids.Nodup ∧
      ∀ t ∈ r.root :: r.components.flatMap Component.nodeSpecs, ∀ n ∈ t.walk,
        ∀ b ∈ n.bindings, r.tokens.ids.count b.variableId = 1 := by
  intro primary body light dark save note page button c
  obtain ⟨r, h⟩ := isOk_iff.1
    (by decide +kernel : (c.convert page (some light) [button] [("Dark", dark)]).isOk)
  exact ⟨r, h, bindings_of_convert c page (some light) [button] [("Dark", dark)] r h⟩

end Converter

end DesignTree
