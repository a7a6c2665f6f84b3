import DesignTree.Style.Resolver
import Mathlib.Data.List.Forall2

/-! # What changes of a node come to

`Gives c n a m` says that a change of the node `n` comes to the result `a` and leaves the node `m`.
The lemmas on the single steps turn a statement about a sequence of changes into one about its
steps. Most stylings are two changes whose results are put together: `gives_both` takes them apart.
What is known of the single aspects of a styling is known of all that are applied (`rel_aspects`).
-/

namespace DesignTree.Resolver

variable {α β : Type}

/-- A change of the node `n` comes to `a` and leaves `m`. -/
def Gives (c : Change α) (n : Node) (a : α) (m : Node) : Prop :=
  StateT.run (ExceptT.run c) n = (.ok a, m)

section

variable {n m : Node} {a : α} {b : β}

@[simp]
theorem gives_pure {value : α} : Gives (pure value) n a m ↔ a = value ∧ m = n := by
  unfold Gives
  constructor
  · intro h
    cases h
    exact ⟨rfl, rfl⟩
  · rintro ⟨rfl, rfl⟩
    rfl

@[simp]
theorem gives_throw {rejection : Rejection} : ¬Gives (throw rejection : Change α) n a m := by
  intro h
  cases h

@[simp]
theorem gives_bind {c : Change α} {f : α → Change β} :
    Gives (c >>= f) n b m ↔ ∃ a between, Gives c n a between ∧ Gives (f a) between b m := by
  unfold Gives
  rw [ExceptT.run_bind, StateT.run_bind]
  rcases StateT.run (ExceptT.run c) n with ⟨rejection | a, between⟩
  · constructor
    · intro h
      cases h
    · rintro ⟨_, _, h, -⟩
      cases h
  · constructor
    · exact fun h => ⟨a, between, rfl, h⟩
    · rintro ⟨_, _, h, hf⟩
      cases h
      exact hf

/-- What comes after a look at the node starts from that node. -/
theorem gives_get_bind {f : Node → Change β} : Gives (get >>= f) n b m ↔ Gives (f n) n b m :=
  Iff.rfl

end

/-- Two changes one after the other, with their results put together. -/
theorem gives_both {c d : Change α} {put : α → α → β} {n m : Node} {b : β} :
    Gives (do let first ← c; let second ← d; return put first second) n b m ↔
      ∃ first between second, Gives c n first between ∧ Gives d between second m ∧
        b = put first second := by
  simp only [gives_bind, gives_pure]
  constructor
  · rintro ⟨first, between, hc, second, _, hd, rfl, rfl⟩
    exact ⟨first, between, second, hc, hd, rfl⟩
  · rintro ⟨first, between, second, hc, hd, rfl⟩
    exact ⟨first, between, hc, second, m, hd, rfl, rfl⟩

/-! ## What holds of results -/

/-- A change comes to nothing but results that are as `p` tells. -/
def Ensures (p : α → Prop) (c : Change α) : Prop := ∀ n a m, Gives c n a m → p a

theorem ensures_pure {p : α → Prop} {a : α} (h : p a) : Ensures p (pure a) := by
  intro n b m hb
  rw [(gives_pure.1 hb).1]
  exact h

theorem ensures_throw {p : α → Prop} (rejection : Rejection) : Ensures p (throw rejection) :=
  fun _ _ _ h => absurd h gives_throw

theorem Ensures.bind {p : α → Prop} {q : β → Prop} {c : Change α} {f : α → Change β}
    (hc : Ensures p c) (hf : ∀ a, p a → Ensures q (f a)) : Ensures q (c >>= f) := by
  intro n b m h
  obtain ⟨a, between, ha, hb⟩ := gives_bind.1 h
  exact hf a (hc n a between ha) between b m hb

theorem ensures_bind {q : β → Prop} {c : Change α} {f : α → Change β}
    (hf : ∀ a, Ensures q (f a)) : Ensures q (c >>= f) :=
  Ensures.bind (p := fun _ => True) (fun _ _ _ _ => trivial) fun a _ => hf a

theorem ensures_get_bind {q : β → Prop} {f : Node → Change β} (hf : ∀ n, Ensures q (f n)) :
    Ensures q (get >>= f) :=
  fun n b m h => hf n n b m (gives_get_bind.1 h)

/-! ## Aspects -/

section

variable {r r' : Resolver}

/-- What relates the single aspects of two resolvers relates the aspects that they apply. -/
theorem rel_aspects {R : Change StyleResult → Change StyleResult → Prop}
    (colors : ∀ cs, R (r.applyColors cs) (r'.applyColors cs))
    (typography : ∀ t, R (r.applyTypography t) (r'.applyTypography t))
    (spacing : ∀ s, R (applySpacing s) (applySpacing s))
    (borders : ∀ b, R (applyBorders b) (applyBorders b))
    (shadows : ∀ ss, R (applyShadows ss) (applyShadows ss)) (kind : NodeKind) (s : Styling) :
    List.Forall₂ R (r.aspects kind s) (r'.aspects kind s) := by
  have given {γ : Type} (o : Option γ) {f g : γ → Change StyleResult} (h : ∀ x, R (f x) (g x)) :
      List.Forall₂ R (o.map f).toList (o.map g).toList := by
    cases o with
    | none => exact .nil
    | some x => exact .cons (h x) .nil
  have unlessEmpty {γ : Type} (xs : List γ) {c d : Change StyleResult} (h : R c d) :
      List.Forall₂ R (if xs.isEmpty then [] else [c]) (if xs.isEmpty then [] else [d]) := by
    split
    · exact .nil
    · exact .cons h .nil
  have looks := List.rel_append (unlessEmpty s.colors (colors s.colors))
    (given (textOnly kind s.typography) typography)
  have boxes := List.rel_append (List.rel_append looks (given s.spacing spacing))
    (given s.borders borders)
  exact List.rel_append boxes (unlessEmpty s.shadows (shadows s.shadows))

/-- What holds of the single aspects holds of the aspects that are applied. -/
theorem forall_aspects {p : Change StyleResult → Prop} (colors : ∀ cs, p (r.applyColors cs))
    (typography : ∀ t, p (r.applyTypography t)) (spacing : ∀ s, p (applySpacing s))
    (borders : ∀ b, p (applyBorders b)) (shadows : ∀ ss, p (applyShadows ss)) (kind : NodeKind)
    (s : Styling) : ∀ c ∈ r.aspects kind s, p c := by
  have both : List.Forall₂ (fun c _ => p c) (r.aspects kind s) (r.aspects kind s) :=
    rel_aspects colors typography spacing borders shadows kind s
  rwa [List.forall₂_same] at both

end

end DesignTree.Resolver
