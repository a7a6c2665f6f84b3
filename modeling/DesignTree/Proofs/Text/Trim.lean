import DesignTree.Text.Blank
import DesignTree.Text.Search
import Mathlib.Data.List.DropRight

/-! # The ends of texts

What is trimmed has nothing of the class at either end, and a list like that is trimmed already
(`Text.trimList_eq_self_iff`), so that trimming twice is trimming once. The same does not hold of a
first part that is taken away: behind it there may be the same part again, and only what does not
start with it stays as it is (`Text.dropLeading_eq_self_iff`).
-/

namespace DesignTree.Text

variable {α : Type} {p : α → Bool} {cs : List α}

/-! ## Trimming -/

theorem trimList_eq (p : α → Bool) (cs : List α) :
    trimList p cs = (cs.dropWhile p).rdropWhile p := rfl

theorem trimList_sublist (p : α → Bool) (cs : List α) : (trimList p cs).Sublist cs :=
  (List.rdropWhile_prefix p _).sublist.trans (List.dropWhile_sublist p)

/-- What is cut off at the end leaves the first item where it is. -/
theorem head?_trimList {c : α} (h : c ∈ (trimList p cs).head?) : p c = false := by
  have first : (cs.dropWhile p).head? = some c := by
    obtain ⟨cut, hc⟩ := List.rdropWhile_prefix p (cs.dropWhile p)
    rw [← hc, ← trimList_eq, List.head?_append, Option.mem_def.1 h, Option.some_or]
  have outside := List.head?_dropWhile_not p cs
  rw [first] at outside
  exact outside

theorem getLast?_trimList {c : α} (h : c ∈ (trimList p cs).getLast?) : p c = false := by
  obtain ⟨filled, rfl⟩ := List.mem_getLast?_eq_getLast h
  exact Bool.eq_false_iff.2 (List.rdropWhile_last_not p _ filled)

theorem trimList_eq_self_iff : trimList p cs = cs ↔
    (∀ c ∈ cs.head?, p c = false) ∧ ∀ c ∈ cs.getLast?, p c = false := by
  constructor
  · intro h
    exact ⟨fun c hc => head?_trimList (h ▸ hc), fun c hc => getLast?_trimList (h ▸ hc)⟩
  · rintro ⟨head, last⟩
    have front : cs.dropWhile p = cs := by
      refine List.dropWhile_eq_self_iff.2 fun filled => Bool.eq_false_iff.1 (head _ ?_)
      exact List.head?_eq_getElem? ▸ List.getElem?_eq_getElem filled
    have back : cs.rdropWhile p = cs := by
      refine List.rdropWhile_eq_self_iff.2 fun filled => Bool.eq_false_iff.1 (last _ ?_)
      exact List.getLast?_eq_some_getLast filled
    rw [trimList_eq, front, back]

/-- Where there are no blanks nothing is trimmed. -/
theorem toList_trim {s : Text} (h : ∀ c ∈ s.toList, isBlank c = false) :
    (trim s).toList = s.toList :=
  trimList_eq_self_iff.2 ⟨fun c hc => h c (List.mem_of_mem_head? hc),
    fun c hc => h c (List.mem_of_mem_getLast? hc)⟩

/-! ## First parts -/

theorem dropLeading_suffix (part cs : List CodePoint) : dropLeading part cs <:+ cs := by
  unfold dropLeading
  split
  · exact List.drop_suffix _ cs
  · exact List.suffix_refl cs

theorem dropLeading_append (part rest : List CodePoint) :
    dropLeading part (part ++ rest) = rest := by
  rw [dropLeading, if_pos (List.isPrefixOf_iff_prefix.2 (List.prefix_append part rest)),
    List.drop_left]

theorem dropLeading_of_not {part cs : List CodePoint} (h : ¬part <+: cs) :
    dropLeading part cs = cs := by
  rw [dropLeading, if_neg (mt List.isPrefixOf_iff_prefix.1 h)]

/-- A list stays as it is exactly if it does not start with the part. -/
theorem dropLeading_eq_self_iff {part cs : List CodePoint} (hp : part ≠ []) :
    dropLeading part cs = cs ↔ ¬part <+: cs := by
  refine ⟨?_, dropLeading_of_not⟩
  rintro same ⟨rest, rfl⟩
  rw [dropLeading_append] at same
  exact hp (List.self_eq_append_left.1 same)

end DesignTree.Text
