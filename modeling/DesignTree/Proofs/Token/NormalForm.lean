import DesignTree.Proofs.Token.ScalePath
import Mathlib.Data.List.TakeWhile

/-! # Names of tokens in normal form

A name that a path leads to is in lower case and has no full stops (`Token.isSmall_of_mem_name`,
`Token.noStop_name`), whatever the path holds. Dashes in front are taken from each part of a path
and not from the name. A part of dashes alone leaves nothing but the dash before the next part, so
that exactly the paths that lead with such a part have names that start with a dash. These are also
the names that are no names of themselves (`Token.name_normal_iff`), for the name of a name is the
name without the dashes in front (`Token.name_name`).
-/

namespace DesignTree.Token

open Text

/-- The parts of a path that show in the name. -/
def words (path : Text) : List Text := (parts (withoutSection path)).filter (!·.isEmpty)

/-- A path whose first part has nothing but dashes and is followed by another part. -/
def LeadsWithDashes (path : Text) : Prop :=
  ∃ first next rest, words path = first :: next :: rest ∧ ∀ c ∈ first.toList, c = .ofChar '-'

/-! ## What a name is made of -/

theorem name_of_words_nil {path : Text} (h : words path = []) : name path = "" := by
  rw [words] at h
  rw [name, h]
  rfl

theorem name_of_words_cons {path first : Text} {rest : List Text}
    (h : words path = first :: rest) :
    name path = kebab first ++ Text.join ((rest.map kebab).map (("-" : Text) ++ ·)) := by
  rw [words] at h
  rw [name, h, List.map_cons, intercalate_cons]

/-- A name has dashes, and what the parts of the path have in kebab case. -/
theorem eq_or_mem_of_mem_name {path : Text} {c : CodePoint} (h : c ∈ (name path).toList) :
    c = .ofChar '-' ∨ ∃ part ∈ words path, c ∈ (kebab part).toList := by
  cases hw : words path with
  | nil =>
    rw [name_of_words_nil hw] at h
    exact absurd h List.not_mem_nil
  | cons first rest =>
    rw [name_of_words_cons hw, toList_append, List.mem_append] at h
    rcases h with h | h
    · exact .inr ⟨first, List.mem_cons_self, h⟩
    · obtain ⟨t, ht, hc⟩ := List.mem_flatMap.1 h
      obtain ⟨w, hm, rfl⟩ := List.mem_map.1 ht
      obtain ⟨part, hp, rfl⟩ := List.mem_map.1 hm
      rcases List.mem_cons.1 hc with dash | hc
      · exact .inl dash
      · exact .inr ⟨part, List.mem_cons_of_mem first hp, hc⟩

theorem noStop_name (path : Text) : CodePoint.ofChar '.' ∉ (name path).toList := by
  intro stop
  rcases eq_or_mem_of_mem_name stop with dash | ⟨part, hp, hc⟩
  · exact absurd dash (by decide)
  · exact noStop_kebab (noStop_of_mem_parts (List.mem_of_mem_filter hp)) hc

theorem isSmall_of_mem_name {path : Text} {c : CodePoint} (h : c ∈ (name path).toList) :
    IsSmall c := by
  rcases eq_or_mem_of_mem_name h with rfl | ⟨part, -, hc⟩
  · decide +kernel
  · exact isSmall_of_mem_lowerFrom ((List.dropWhile_sublist _).subset hc)

/-! ## Dashes in front -/

/-- Only dashes leave nothing in kebab case: lower case keeps all other characters. -/
theorem kebab_eq_nil_iff (s : Text) :
    (kebab s).toList = [] ↔ ∀ c ∈ s.toList, c = .ofChar '-' := by
  show (lowerFrom false (markCapitals '-' s.toList)).dropWhile (· = .ofChar '-') = [] ↔ _
  simp only [List.dropWhile_eq_nil_iff, decide_eq_true_eq]
  constructor
  · intro dashes c hc
    obtain ⟨d, hd, origin⟩ := exists_mem_lowerFrom false (mem_markCapitals '-' hc)
    obtain rfl := dashes d hd
    rcases origin with beyond | rfl
    · exact absurd beyond (by decide)
    · rfl
  · intro dashes
    have small : ∀ c ∈ s.toList, IsSmall c := by
      intro c hc
      rw [dashes c hc]
      decide +kernel
    rwa [markCapitals_of_forall fun c hc => isCapital_of_isSmall (small c hc),
      lowerFrom_of_forall small]

/-- A name starts with a dash exactly if the first part of its path leaves nothing before the dash
in front of the next part. -/
theorem head?_name_iff (path : Text) :
    (name path).toList.head? = some (.ofChar '-') ↔ LeadsWithDashes path := by
  unfold LeadsWithDashes
  cases hw : words path with
  | nil =>
    rw [name_of_words_nil hw]
    constructor
    · intro h
      cases h
    · rintro ⟨_, _, _, he, -⟩
      cases he
  | cons first rest =>
    rw [name_of_words_cons hw, toList_append, List.head?_append]
    cases hk : (kebab first).toList with
    | cons c more =>
      have kept : ¬∀ c ∈ first.toList, c = .ofChar '-' := by
        rw [← kebab_eq_nil_iff, hk]
        exact List.cons_ne_nil c more
      constructor
      · intro h
        exact absurd (hk ▸ h) (head?_kebab_ne first)
      · rintro ⟨_, _, _, he, dashes⟩
        cases he
        exact absurd dashes kept
    | nil =>
      have dashes := (kebab_eq_nil_iff first).1 hk
      cases rest with
      | nil =>
        constructor
        · intro h
          cases h
        · rintro ⟨_, _, _, he, -⟩
          cases he
      | cons next rest =>
        exact ⟨fun _ => ⟨first, next, rest, rfl, dashes⟩, fun _ => rfl⟩

/-! ## Names of names -/

/-- No section stands in front of a text without full stops. -/
theorem withoutSection_of_noStop {t : Text} (h : CodePoint.ofChar '.' ∉ t.toList) :
    withoutSection t = t := by
  have plain : silentSections.find? (fun s => s.toList.isPrefixOf t.toList) = none := by
    rw [List.find?_eq_none]
    intro s hs leads
    have stop : ∀ s ∈ silentSections, CodePoint.ofChar '.' ∈ s.toList := by decide +kernel
    exact h ((List.isPrefixOf_iff_prefix.1 leads).subset (stop s hs))
  rw [withoutSection, plain]

theorem name_of_noStop {t : Text} (h : CodePoint.ofChar '.' ∉ t.toList) : name t = kebab t := by
  have split : words t = if t.isEmpty then [] else [t] := by
    rw [words, withoutSection_of_noStop h, parts_of_noStop h]
    cases he : t.isEmpty <;> simp [he]
  by_cases he : t.isEmpty = true
  · rw [if_pos he] at split
    rw [name_of_words_nil split, Text.isEmpty_iff.1 he]
    rfl
  · rw [if_neg he] at split
    rw [name_of_words_cons split, Text.ext_iff]
    exact List.append_nil _

/-- The name of a name is the name without the dashes in front. -/
theorem name_name (path : Text) :
    name (name path) = .ofList ((name path).toList.dropWhile (· = .ofChar '-')) := by
  have small : ∀ c ∈ (name path).toList, IsSmall c := fun _ hc => isSmall_of_mem_name hc
  rw [name_of_noStop (noStop_name path), kebab,
    markCapitals_of_forall fun c hc => isCapital_of_isSmall (small c hc),
    lowerFrom_of_forall small]

theorem name_name_eq_iff (path : Text) :
    name (name path) = name path ↔ (name path).toList.head? ≠ some (.ofChar '-') := by
  rw [name_name, Text.ext_iff]
  show (name path).toList.dropWhile (· = .ofChar '-') = _ ↔ _
  rw [List.dropWhile_eq_self_iff]
  cases (name path).toList <;> simp

/-- **Which names of tokens are in normal form.** No name has a full stop or one of the capitals `A`
to `Z`. A name starts with a dash, and is not its own name, exactly if its path leads with a part of
dashes alone. -/
theorem name_normal_iff (path : Text) :
    (∀ c ∈ (name path).toList, c ≠ .ofChar '.' ∧ isCapital c = false) ∧
      ((name path).toList.head? ≠ some (.ofChar '-') ↔ ¬LeadsWithDashes path) ∧
      (name (name path) = name path ↔ ¬LeadsWithDashes path) := by
  refine ⟨fun c hc => ⟨?_, isCapital_of_isSmall (isSmall_of_mem_name hc)⟩, ?_, ?_⟩
  · rintro rfl
    exact noStop_name path hc
  · rw [Ne, head?_name_iff]
  · rw [name_name_eq_iff, Ne, head?_name_iff]

/-- The dash before the second part of a path stays in front where the first part is a dash. -/
theorem name_of_leading_dash :
    name "-.primary" = "-primary" ∧ name (name "-.primary") = "primary" ∧
      (name "-.primary").toList.head? = some (.ofChar '-') ∧
      name (name "-.primary") ≠ name "-.primary" := by
  decide +kernel

end DesignTree.Token
