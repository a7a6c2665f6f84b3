import DesignTree.Proofs.Conversion.Basic
import DesignTree.Proofs.Token.Modes

/-! # The themes of a conversion

The tokens of a conversion are built from a theme, under the mode with the name `defaultTheme`, and
from further ones under modes with names of their own. Beside a theme all values of the further ones
are in the table; those of the theme itself are unless a further one has the name of its mode and
other values. Without a theme all further ones are lost (`buildTokens_keeps_iff`).
-/

namespace DesignTree

/-- A theme gives no values to slots. -/
def Theme.Blank (t : Theme) : Prop := ∀ slot, t.value? slot = none

/-- Two themes give one value to each slot that both of them give a value to. -/
def Theme.Agrees (t u : Theme) : Prop :=
  ∀ slot, ∀ v ∈ t.value? slot, ∀ w ∈ u.value? slot, v = w

namespace Converter

open TokenTable

variable {c : Converter} {base : Theme} {modes : Entries Theme} {t : TokenTable}

/-- The themes that the collections of several modes are made from, each with its mode. -/
def namedThemes (base : Theme) (modes : Entries Theme) : List (Theme × Text) :=
  (base, defaultTheme) :: modes.map fun e => (e.2, e.1)

theorem modal_of_buildTokens (hm : modes ≠ []) (h : c.buildTokens (some base) modes = .ok t) :
    t.modal = (modalCollections (namedThemes base modes) c.config.collectionPrefix).map
      fun c => (c.name, c) := by
  have beside : ¬modes.isEmpty = true := fun he => hm (List.isEmpty_iff.1 he)
  simp only [buildTokens, if_neg beside] at h
  cases ha : (ofTheme base c.config.collectionPrefix).addModes (base :: modes.map (·.2))
      (defaultTheme :: modes.keys) c.config.collectionPrefix with
  | error fault =>
    rw [ha] at h
    cases h
  | ok made =>
    rw [ha] at h
    cases h
    obtain ⟨mode, more, names, modal⟩ := modal_of_addModes rfl ha
    obtain ⟨rfl, rfl⟩ := List.cons.inj names
    rw [modal, Entries.keys, List.zip_map', namedThemes]

/-- All values of a further theme are in the table. -/
theorem keeps_of_mem (hk : modes.keys.Nodup)
    (ht : t.modal = (modalCollections (namedThemes base modes) c.config.collectionPrefix).map
      fun c => (c.name, c)) {e : Text × Theme} (he : e ∈ modes) :
    t.Keeps c.config.collectionPrefix e.2 e.1 := by
  intro slot value hv
  obtain ⟨before, after, rfl⟩ := List.append_of_mem he
  have split : namedThemes base (before ++ e :: after) =
      namedThemes base before ++ (e.2, e.1) :: after.map fun e => (e.2, e.1) := by
    simp only [namedThemes, List.map_append, List.map_cons, List.cons_append]
  rw [split] at ht
  refine modalValue?_of_last _ ht hv ?_
  rw [List.forall_mem_map]
  intro d hd hmode
  rw [Entries.keys, List.map_append, List.map_cons] at hk
  have fresh := (List.nodup_cons.1 hk.of_append_right).1
  exact absurd (List.mem_map.2 ⟨d, hd, hmode⟩) fresh

/-- The values of the theme are in the table exactly if a further theme under the same name has no
other ones. -/
theorem keeps_base_iff (hk : modes.keys.Nodup)
    (ht : t.modal = (modalCollections (namedThemes base modes) c.config.collectionPrefix).map
      fun c => (c.name, c)) :
    t.Keeps c.config.collectionPrefix base defaultTheme ↔
      ∀ extra ∈ modes.get? defaultTheme, base.Agrees extra := by
  have extras {e : Text × Theme} (he : e ∈ modes) := keeps_of_mem hk ht he
  constructor
  · intro hbase extra hextra slot v hv w hw
    have kept := extras (Entries.mem_of_get? hextra) slot w hw
    rw [hbase slot v hv, Option.some.injEq] at kept
    exact kept
  · intro agree slot v hv
    by_cases given : ∃ e ∈ modes, e.1 = defaultTheme ∧ ∃ w, e.2.value? slot = some w
    · obtain ⟨e, he, hname, w, hw⟩ := given
      have found := Entries.get?_of_mem hk he
      have kept := extras he slot w hw
      rw [hname] at found kept
      rw [kept, agree e.2 found slot v hv w hw]
    · refine modalValue?_of_last [] ht hv ?_
      rw [List.forall_mem_map]
      intro e he hname
      cases hw : e.2.value? slot with
      | none => rfl
      | some w => exact absurd ⟨e, he, hname, w, hw⟩ given

/-- **Which themes are kept.** The table of an optional theme and of further ones is built. The
values of the further ones are in it exactly if there is a theme beside them or they have none;
those of the theme are exactly if no further one under the name of its mode has other ones. -/
theorem buildTokens_keeps_iff (c : Converter) (theme : Option Theme) (modes : Entries Theme)
    (hm : modes ≠ []) (hk : modes.keys.Nodup) :
    ∃ t, c.buildTokens theme modes = .ok t ∧
      ((∀ e ∈ modes, t.Keeps c.config.collectionPrefix e.2 e.1) ↔
        (theme = none → ∀ e ∈ modes, e.2.Blank)) ∧
      ∀ base ∈ theme, (t.Keeps c.config.collectionPrefix base defaultTheme ↔
        ∀ extra ∈ modes.get? defaultTheme, base.Agrees extra) := by
  cases theme with
  | none =>
    have lost (e : Theme) (mode : Text) :
        ({} : TokenTable).Keeps c.config.collectionPrefix e mode ↔ e.Blank := by
      refine forall_congr' fun slot => ?_
      cases e.value? slot with
      | none => simp
      | some v => simp [modalValue?, getModal?]
    refine ⟨{}, rfl, ?_, fun base hbase => absurd hbase (Option.not_mem_none base)⟩
    simp only [lost, true_implies]
  | some base =>
    obtain ⟨t, ht⟩ := isOk_iff.1 (isOk_buildTokens c (some base) modes)
    have modal := modal_of_buildTokens hm ht
    refine ⟨t, ht, ?_, ?_⟩
    · exact iff_of_true (fun e hmem => keeps_of_mem hk modal hmem) fun h =>
        absurd h (Option.some_ne_none base)
    · rintro _ ⟨⟩
      exact keeps_base_iff hk modal

/-- A further theme under the name of the mode of the base one takes the place of its values. -/
theorem buildTokens_keeps_iff_default :
    let c : Converter := { variantLimit := .null, libraryName := .null, libraryVersion := .null }
    let theme (primary : Text) : Theme :=
      { colorScheme := { colors := .of [(.primary, primary)] (List.nodup_singleton _) } }
    let modes : Entries Theme := [("Dark", theme "#0D47A1"), ("Default", theme "#FFFFFF")]
    ∃ t, c.buildTokens (some (theme "#2196F3")) modes = .ok t ∧
      (∀ e ∈ modes, t.Keeps "Default" e.2 e.1) ∧
      ¬t.Keeps "Default" (theme "#2196F3") defaultTheme := by
  intro c theme modes
  obtain ⟨t, ht, further, base⟩ := buildTokens_keeps_iff c (some (theme "#2196F3")) modes
    (List.cons_ne_nil _ _) (by decide)
  refine ⟨t, ht, further.2 (fun h => absurd h (Option.some_ne_none _)), fun kept => ?_⟩
  have agrees := (base _ rfl).1 kept (theme "#FFFFFF") rfl (.color .primary)
  obtain ⟨v, hv⟩ := Option.isSome_iff_exists.1 (by decide +kernel :
    ((theme "#2196F3").value? (.color .primary)).isSome)
  obtain ⟨w, hw⟩ := Option.isSome_iff_exists.1 (by decide +kernel :
    ((theme "#FFFFFF").value? (.color .primary)).isSome)
  have other : (theme "#2196F3").value? (.color .primary) ≠
      (theme "#FFFFFF").value? (.color .primary) := by decide +kernel
  exact other (by rw [hv, hw, agrees v hv w hw])

/-- Without a base theme a further one is lost. -/
theorem buildTokens_modes_without_theme :
    let c : Converter := { variantLimit := .null, libraryName := .null, libraryVersion := .null }
    let dark : Theme := { colorScheme := { colors := .of [(.primary, "#0D47A1")] } }
    ∃ t, c.buildTokens none [("Dark", dark)] = .ok t ∧
      (dark.value? (.color .primary)).isSome = true ∧
      t.modalValue? "Default" (.color .primary) "Dark" = none := by
  intro c dark
  exact ⟨{}, rfl, by decide +kernel, rfl⟩

end Converter

end DesignTree
