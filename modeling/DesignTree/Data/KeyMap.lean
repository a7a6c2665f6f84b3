import DesignTree.Data.Entries

/-! # Values under different keys

A map from keys to values keeps its keys in order, and carries that they differ. Items that come
under names one after the other make such a map (`KeyMap.ofEntries`).
-/

namespace DesignTree

/-- Values under different keys, in order. -/
structure KeyMap (κ α : Type) where
  of ::
  entries : List (κ × α) := []
  nodup : (entries.map (·.1)).Nodup := by decide
  deriving DecidableEq, Repr

namespace KeyMap

variable {κ α β : Type}

/-- What the entries give, in order. -/
def map (f : κ × α → β) (m : KeyMap κ α) : List β := m.entries.map f

/-- The value under a key. -/
def get? [DecidableEq κ] (m : KeyMap κ α) (key : κ) : Option α :=
  (m.entries.find? fun e => e.1 = key).map (·.2)

/-- The values under names, each in the place of what was there under its name. -/
def ofEntries (es : Entries α) : KeyMap Text α :=
  ⟨Entries.ofItems es, Entries.nodup_keys_ofItems es⟩

/-- What is kept of the pieces that values are turned into, if it is of one key only. -/
theorem filter_flatMap [DecidableEq κ] {m : KeyMap κ α} {key : κ}
    {pieces : κ × α → List β} {keep : β → Bool}
    (h : ∀ e ∈ m.entries, e.1 ≠ key → (pieces e).filter keep = []) :
    (m.entries.flatMap pieces).filter keep =
      ((m.get? key).map fun a => (pieces (key, a)).filter keep).getD [] := by
  obtain ⟨entries, distinct⟩ := m
  induction entries with
  | nil => rfl
  | cons e rest ih =>
    obtain ⟨fresh, later⟩ := List.nodup_cons.1 distinct
    have others := ih later fun e he => h e (List.mem_cons_of_mem _ he)
    rw [List.flatMap_cons, List.filter_append, others]
    by_cases he : e.1 = key
    · have gone : (of rest later).get? key = none := by
        rw [get?, Option.map_eq_none_iff, List.find?_eq_none]
        intro d hd hk
        exact fresh (List.mem_map.2 ⟨d, hd, (of_decide_eq_true hk).trans he.symm⟩)
      have found : (of (e :: rest) distinct).get? key = some e.2 := by simp [get?, he]
      rw [gone, found, ← he]
      exact List.append_nil _
    · rw [h e List.mem_cons_self he]
      simp [get?, he]

end KeyMap

end DesignTree
