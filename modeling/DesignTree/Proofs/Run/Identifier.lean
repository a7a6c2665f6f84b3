import DesignTree.Proofs.Run.Outcome
import Mathlib.Data.List.Nodup
import Mathlib.Data.List.Perm.Subperm

/-! # The identifiers of a run

Every identifier is a stem with the number at its end by which the run counts it. No stem ends in a
digit, so the digits at the end of an identifier give its number back (`HasNumber.unique`), whatever
else the stem holds.

`Fresh low high ids` says that `ids` were issued while the count went from `low` to `high`. What two
operations issue one after the other is fresh together (`Fresh.append`), and what is left of fresh
identifiers is fresh (`Fresh.subperm`). Freshness implies that the identifiers are distinct.
-/

namespace DesignTree.InRun

/-! ## The number of an identifier -/

/-- Whether a code point is one of the ten digits. -/
def isDigit (c : CodePoint) : Bool := ('0' : CodePoint) ≤ c && c ≤ '9'

/-- The digits of a number. -/
def digits (n : Nat) : List CodePoint := (n.repr : Text).toList

/-- Whether a text ends in the digits of a number, and in no more digits. -/
def HasNumber (id : Text) (n : Nat) : Prop :=
  id.toList.reverse.takeWhile isDigit = (digits n).reverse

theorem isDigit_ofChar {c : Char} (h : c.isDigit) : isDigit c = true := by
  simp only [Char.isDigit, Bool.and_eq_true, decide_eq_true_eq] at h
  simp only [isDigit, Bool.and_eq_true, decide_eq_true_eq]
  exact h

theorem digits_eq (n : Nat) : digits n = (Nat.toDigits 10 n).map .ofChar := by
  rw [digits, Text.ofString, Nat.toList_repr]

theorem isDigit_of_mem_digits {n : Nat} {c : CodePoint} (h : c ∈ digits n) : isDigit c = true := by
  rw [digits_eq, List.mem_map] at h
  obtain ⟨d, hd, rfl⟩ := h
  exact isDigit_ofChar (Nat.isDigit_of_mem_toDigits (by decide) (by decide) hd)

theorem digits_inj {n m : Nat} (h : digits n = digits m) : n = m := by
  rw [digits_eq, digits_eq] at h
  have hinj : Function.Injective CodePoint.ofChar := fun _ _ he => CodePoint.ofChar_inj.1 he
  have hchars := hinj.list_map h
  have := congrArg (fun cs => Nat.ofDigitChars 10 cs 0) hchars
  simpa [Nat.ofDigitChars_toDigits] using this

theorem HasNumber.unique {id : Text} {n m : Nat} (hn : HasNumber id n) (hm : HasNumber id m) :
    n = m :=
  digits_inj (List.reverse_injective (hn.symm.trans hm))

/-- A number after a stem that does not end in a digit is the number of the whole. -/
theorem hasNumber_append {stem : Text} {c : CodePoint} (hlast : stem.toList.getLast? = some c)
    (hc : isDigit c = false) (n : Nat) : HasNumber (stem ++ (n.repr : Text)) n := by
  have hstem : stem.toList.reverse.takeWhile isDigit = [] := by
    rw [← List.head?_reverse] at hlast
    cases hs : stem.toList.reverse with
    | nil => rfl
    | cons d rest =>
      rw [hs, List.head?_cons, Option.some.injEq] at hlast
      subst hlast
      rw [List.takeWhile_cons_of_neg (by simp [hc])]
  rw [HasNumber, Text.toList_append, List.reverse_append]
  change ((digits n).reverse ++ stem.toList.reverse).takeWhile isDigit = (digits n).reverse
  rw [List.takeWhile_append_of_pos, hstem, List.append_nil]
  intro d hd
  exact isDigit_of_mem_digits (List.mem_reverse.1 hd)

/-! ## Fresh identifiers -/

/-- Distinct identifiers that were issued while the count went from `low` to `high`. -/
structure Fresh (low high : Nat) (ids : List (Option Text)) : Prop where
  le : low ≤ high
  nodup : ids.Nodup
  numbered : ∀ id ∈ ids, ∃ text n, id = some text ∧ HasNumber text n ∧ low < n ∧ n ≤ high

namespace Fresh

variable {low mid high : Nat} {ids others : List (Option Text)}

theorem nil (h : low ≤ high) : Fresh low high [] := ⟨h, List.nodup_nil, by simp⟩

/-- The one identifier that is issued at a step. -/
theorem singleton {text : Text} (h : HasNumber text (low + 1)) : Fresh low (low + 1) [some text] :=
  ⟨Nat.le_succ low, List.nodup_singleton _, by
    simp only [List.mem_singleton, forall_eq]
    exact ⟨text, low + 1, rfl, h, Nat.lt_succ_self low, Nat.le_refl _⟩⟩

theorem append (hi : Fresh low mid ids) (ho : Fresh mid high others) :
    Fresh low high (ids ++ others) where
  le := Nat.le_trans hi.le ho.le
  nodup := by
    refine hi.nodup.append ho.nodup fun id h g => ?_
    obtain ⟨text, n, rfl, hn, -, hle⟩ := hi.numbered id h
    obtain ⟨_, m, he, hm, hlt, -⟩ := ho.numbered _ g
    cases he
    have := hn.unique hm
    omega
  numbered := by
    intro id h
    rcases List.mem_append.1 h with h | h
    · obtain ⟨text, n, he, hn, hlt, hle⟩ := hi.numbered id h
      exact ⟨text, n, he, hn, hlt, Nat.le_trans hle ho.le⟩
    · obtain ⟨text, n, he, hn, hlt, hle⟩ := ho.numbered id h
      exact ⟨text, n, he, hn, Nat.lt_of_le_of_lt hi.le hlt, hle⟩

theorem subperm (hi : Fresh low high ids) (h : others.Subperm ids) : Fresh low high others where
  le := hi.le
  nodup := by
    obtain ⟨l, hp, hs⟩ := h
    exact hp.nodup_iff.1 (hi.nodup.sublist hs)
  numbered := fun id hid => hi.numbered id (h.subset hid)

theorem perm (hi : Fresh low high ids) (h : others.Perm ids) : Fresh low high others :=
  hi.subperm h.subperm

/-- Fresh identifiers are all there. -/
theorem none_notMem (hi : Fresh low high ids) : none ∉ ids := by
  intro h
  obtain ⟨_, _, he, -⟩ := hi.numbered none h
  cases he

end Fresh

/-- Lists of fresh identifiers one after the other are fresh together. -/
theorem fresh_mapM {α β : Type} {f : α → InRun β} {ids : β → List (Option Text)} {xs : List α}
    {bs : List β} {run after : Run}
    (h : ∀ x ∈ xs, ∀ run b after, (f x).Yields run b after →
      Fresh run.issued after.issued (ids b))
    (hy : (xs.mapM f).Yields run bs after) :
    Fresh run.issued after.issued (bs.flatMap ids) := by
  induction xs generalizing run bs with
  | nil =>
    obtain ⟨rfl, rfl⟩ := yields_mapM_nil.1 hy
    exact .nil (Nat.le_refl _)
  | cons x rest ih =>
    obtain ⟨b, mid, others, hb, ho, rfl⟩ := yields_mapM_cons.1 hy
    exact (h x List.mem_cons_self run b mid hb).append
      (ih (fun y hm => h y (List.mem_cons_of_mem x hm)) ho)

/-! ## The identifiers of nodes -/

/-- The identifier of the `n`-th node of a run. -/
def nodeId (n : Nat) : Text := nodePrefix ++ (n.repr : Text)

/-- The identifiers of `count` nodes after `issued` others. -/
def nodeIds (issued count : Nat) : List (Option Text) :=
  (List.range' (issued + 1) count).map fun n => some (nodeId n)

theorem hasNumber_nodeId (n : Nat) : HasNumber (nodeId n) n :=
  hasNumber_append (c := '_') (by decide) (by decide) n

theorem nodeIds_append (issued a b : Nat) :
    nodeIds issued (a + b) = nodeIds issued a ++ nodeIds (issued + a) b := by
  rw [nodeIds, nodeIds, nodeIds, ← List.map_append, ← List.range'_append_1,
    Nat.add_right_comm issued a 1]

theorem nodeIds_one_add (issued count : Nat) :
    nodeIds issued (1 + count) = some (nodeId (issued + 1)) :: nodeIds (issued + 1) count := by
  rw [nodeIds_append]
  rfl

theorem fresh_nodeIds (issued count : Nat) :
    Fresh issued (issued + count) (nodeIds issued count) := by
  induction count with
  | zero => exact .nil (Nat.le_refl _)
  | succ count ih =>
    rw [nodeIds_append]
    exact ih.append (.singleton (hasNumber_nodeId (issued + count + 1)))

end DesignTree.InRun
