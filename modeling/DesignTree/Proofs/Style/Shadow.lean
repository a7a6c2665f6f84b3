import DesignTree.Style.Resolver
import Mathlib.Data.List.Forall2

/-! # Effects of shadows

A shadow casts one effect, unless its colour is malformed or one of its lengths is beyond the
doubles. Shadows cast one effect each, up to the first one that does not (`shadowEffects_cases`).
-/

namespace DesignTree.Resolver

/-- A shadow is drawn by an effect, all of whose lengths are doubles. -/
def Casts (x : Shadow) (e : Effect) : Prop :=
  ∃ color, Rgb.ofHex? x.color = some color ∧
    e = { color
          offset := ⟨x.offset.x.toDouble, x.offset.y.toDouble⟩
          radius := x.blur.toDouble
          spread := ((x.spread.filter (!·.isZero)).getD 0).toDouble }

/-- A shadow is refused for its lengths, or has a malformed colour, or casts its effect. -/
theorem shadowEffect_cases (x : Shadow) :
    (∃ rejection, shadowEffect x = .error rejection) ∨
      (shadowEffect x = .ok (.error (.invalidColor x.color)) ∧ Rgb.ofHex? x.color = none) ∨
      ∃ e, shadowEffect x = .ok (.ok e) ∧ Casts x e := by
  unfold shadowEffect Rgb.ofHex
  cases hc : Rgb.ofHex? x.color with
  | none => exact .inr (.inl ⟨rfl, rfl⟩)
  | some color =>
    simp only
    cases x.offset.x.fitsDouble with
    | false => cases x.offset.y.fitsDouble <;> exact .inl ⟨_, rfl⟩
    | true =>
      cases x.offset.y.fitsDouble with
      | false => exact .inl ⟨_, rfl⟩
      | true =>
        cases x.blur.fitsDouble with
        | false =>
          cases ((x.spread.filter (!·.isZero)).getD 0).fitsDouble <;> exact .inl ⟨_, rfl⟩
        | true =>
          cases ((x.spread.filter (!·.isZero)).getD 0).fitsDouble with
          | false => exact .inl ⟨_, rfl⟩
          | true => exact .inr (.inr ⟨_, rfl, color, hc, rfl⟩)

/-- The first shadow with a malformed colour. -/
def malformedShadow? (shadows : List Shadow) : Option Shadow :=
  shadows.find? fun x => (Rgb.ofHex? x.color).isNone

theorem malformedShadow?_eq_none_iff {shadows : List Shadow} :
    malformedShadow? shadows = none ↔ ∀ x ∈ shadows, Rgb.ofHex? x.color ≠ none := by
  simp [malformedShadow?, List.find?_eq_none]

/-- Shadows are drawn one after the other up to the first one with a malformed colour. -/
theorem shadowEffects_cases (shadows : List Shadow) :
    (∃ rejection, shadowEffects shadows = .error rejection) ∨
      (∃ x, malformedShadow? shadows = some x ∧
        shadowEffects shadows = .ok (.error (.invalidColor x.color))) ∨
      ∃ effects, malformedShadow? shadows = none ∧ shadowEffects shadows = .ok (.ok effects) ∧
        List.Forall₂ Casts shadows effects := by
  induction shadows with
  | nil => exact .inr (.inr ⟨[], rfl, rfl, .nil⟩)
  | cons x rest ih =>
    rw [shadowEffects]
    rcases shadowEffect_cases x with ⟨rejection, hx⟩ | ⟨hx, hc⟩ | ⟨effect, hx, casts⟩
    · rw [hx]
      exact .inl ⟨rejection, rfl⟩
    · rw [hx]
      exact .inr (.inl ⟨x, List.find?_cons_of_pos (by rw [hc]; rfl), rfl⟩)
    · have first : malformedShadow? (x :: rest) = malformedShadow? rest := by
        obtain ⟨color, hc, -⟩ := casts
        exact List.find?_cons_of_neg (by rw [hc]; exact Bool.false_ne_true)
      rw [hx, first]
      rcases ih with ⟨rejection, hr⟩ | ⟨y, hy, hr⟩ | ⟨effects, hn, hr, others⟩
      · rw [hr]
        exact .inl ⟨rejection, rfl⟩
      · rw [hr]
        exact .inr (.inl ⟨y, hy, rfl⟩)
      · rw [hr]
        exact .inr (.inr ⟨effect :: effects, hn, rfl, .cons casts others⟩)

end DesignTree.Resolver
