import DesignTree.Proofs.Text.Lower
import DesignTree.Proofs.Token.Content
import DesignTree.Proofs.Token.Lookup

/-! # Paths to the scales of a theme

The token of a key of a scale is named by the key as it is spelled, while a path through the theme
leads to a name in lower case whose parts are held apart by dashes. The two meet exactly for the
plain keys (`Token.Plain`): a path to a plain key leads to its token, a path to any other key to no
token or to that of another key (`TokenTable.get?_scalePath_iff`).
-/

namespace DesignTree

open Token Text

namespace Token

/-- A key that is spelled as a part of a token's name: neither empty nor with a dash in front,
without full stops, and in lower case. -/
structure Plain (key : Text) : Prop where
  nonempty : key ≠ ""
  noDash : key.toList.head? ≠ some (.ofChar '-')
  noStop : CodePoint.ofChar '.' ∉ key.toList
  lower : lower key = key

/-- The field of a theme for a section. -/
def Section.field : Section → Text
  | .colors => "colorScheme"
  | .typography => "textTheme"
  | .spacing => "spacing"
  | .borderRadius => "borderRadius"

/-- The path to a key of a scale in a theme. -/
def scalePath (s : Section) (key : Text) : Text := s.field ++ "." ++ key

/-- The token of a key of a scale. -/
def scaleToken (scale : Scale) (collection key : Text) (value : Number) : Variable :=
  ⟨scale.tokenName key, .float, scale.scopes, .number value,
    scale.label ++ " " ++ key ++ " (" ++ value.text ++ "px)", collection⟩

/-! ## Words in lower case -/

/-- No dash stands in front of a word's form with dashes. -/
theorem head?_kebab_ne (s : Text) : (kebab s).toList.head? ≠ some (.ofChar '-') := by
  intro dash
  have first := List.head?_dropWhile_not (fun c => decide (c = CodePoint.ofChar '-'))
    (lowerFrom false (markCapitals '-' s.toList))
  have whole : (lowerFrom false (markCapitals '-' s.toList)).dropWhile (· = .ofChar '-') =
      (kebab s).toList := rfl
  rw [whole, dash] at first
  exact of_decide_eq_false first rfl

/-- A word is its own form with dashes exactly if it is in lower case and no dash stands in
front. -/
theorem kebab_eq_self_iff (s : Text) :
    kebab s = s ↔ s.toList.head? ≠ some (.ofChar '-') ∧ lower s = s := by
  have unmarked (h : ∀ c ∈ s.toList, isCapital c = false) :
      kebab s = .ofList ((lower s).toList.dropWhile (· = .ofChar '-')) := by
    rw [kebab, markCapitals_of_forall h]
    rfl
  have unchanged {cs : List CodePoint} (h : cs.head? ≠ some (.ofChar '-')) :
      cs.dropWhile (· = .ofChar '-') = cs := by
    cases cs with
    | nil => rfl
    | cons c rest =>
      rw [List.dropWhile_cons_of_neg]
      simpa using h
  constructor
  · intro h
    have own : s.toList =
        (lowerFrom false (markCapitals '-' s.toList)).dropWhile (· = .ofChar '-') :=
      congrArg Text.toList h.symm
    have small : ∀ c ∈ s.toList, isCapital c = false := fun c hc =>
      isCapital_of_mem_lowerFrom ((List.dropWhile_sublist _).subset (own ▸ hc))
    have noDash : s.toList.head? ≠ some (.ofChar '-') := h ▸ head?_kebab_ne s
    refine ⟨noDash, ?_⟩
    -- The lower-case form does not start with a dash either, so that none is dropped.
    have kept : (lower s).toList.head? ≠ some (.ofChar '-') := fun hd =>
      noDash (head?_of_lowerFrom hd (by decide))
    rw [unmarked small, unchanged kept] at h
    exact h
  · rintro ⟨noDash, small⟩
    have lowered : ∀ c ∈ s.toList, isCapital c = false := by
      intro c hc
      rw [← small] at hc
      exact isCapital_of_mem_lowerFrom hc
    rw [unmarked lowered, small, unchanged noDash]

/-- No full stop comes into a word by its form with dashes. -/
theorem noStop_kebab {s : Text} (h : CodePoint.ofChar '.' ∉ s.toList) :
    CodePoint.ofChar '.' ∉ (kebab s).toList := by
  intro stop
  rcases eq_or_lt_of_mem_lowerFrom ((List.dropWhile_sublist _).subset stop) with beyond | ⟨hm, -⟩
  · exact absurd beyond (by decide)
  · rcases eq_or_mem_of_mem_markCapitals hm with mark | hm
    · exact absurd mark (by decide)
    · exact h hm

/-! ## Names of paths -/

/-- No part of a path has a full stop. -/
theorem noStop_of_mem_parts {path part : Text} (h : part ∈ parts path) :
    CodePoint.ofChar '.' ∉ part.toList := by
  have pieces (cs : List CodePoint) : ∀ piece ∈ cs.splitOnP (· == .ofChar '.'),
      CodePoint.ofChar '.' ∉ piece := by
    induction cs with
    | nil => simp [List.splitOnP_nil]
    | cons c rest ih =>
      rw [List.splitOnP_cons_eq_if_modifyHead]
      split
      · exact List.forall_mem_cons.2 ⟨List.not_mem_nil, ih⟩
      · next hc =>
        obtain ⟨first, more, hr⟩ := List.exists_cons_of_ne_nil
          (List.splitOnP_ne_nil (· == CodePoint.ofChar '.') rest)
        rw [hr, List.forall_mem_cons] at ih
        rw [hr, List.modifyHead_cons, List.forall_mem_cons, List.mem_cons, not_or]
        exact ⟨⟨fun he => hc (beq_iff_eq.2 he.symm), ih.1⟩, ih.2⟩
  obtain ⟨piece, hp, rfl⟩ := List.mem_map.1 h
  exact pieces path.toList piece hp

/-- A key without full stops is one part. -/
theorem parts_of_noStop {key : Text} (h : CodePoint.ofChar '.' ∉ key.toList) :
    parts key = [key] := by
  have whole : key.toList.splitOnP (· == .ofChar '.') = [key.toList] :=
    List.splitOnP_eq_singleton fun c hc => beq_eq_false_iff_ne.2 fun he => h (he ▸ hc)
  rw [parts, whole]
  rfl

/-- Of texts with others between them all but the first have one in front. -/
theorem intercalate_cons (between first : Text) (rest : List Text) :
    Text.intercalate between (first :: rest) = first ++ Text.join (rest.map (between ++ ·)) := by
  rw [Text.ext_iff]
  induction rest generalizing first with
  | nil => simp [Text.intercalate, Text.join]
  | cons next rest ih =>
    have later := ih next
    simp only [Text.intercalate, List.map_cons] at later ⊢
    rw [List.intercalate_cons_cons, later]
    simp [Text.join, List.append_assoc]

/-- The name of a path to a key has the parts of the key in lower case, each after a dash. -/
theorem name_scalePath {s : Section} {scale : Scale} (hs : s.scale? = some scale) (key : Text) :
    name (scalePath s key) = scale.stem ++
      Text.join ((((parts key).filter (!·.isEmpty)).map kebab).map (("-" : Text) ++ ·)) := by
  have plain : withoutSection (scalePath s key) = scalePath s key := by
    cases s <;> cases hs <;> rfl
  have split : parts (scalePath s key) = s.field :: parts key := by
    have whole : (scalePath s key).toList = s.field.toList ++ .ofChar '.' :: key.toList := by
      rw [scalePath, Text.append_assoc]
      rfl
    have noStop : ∀ c ∈ s.field.toList, (c == .ofChar '.') = false := by
      cases s <;> decide +kernel
    rw [parts, whole, List.splitOnP_append_cons_of_forall_mem noStop _ (beq_self_eq_true _)]
    rfl
  have field : s.field.isEmpty = false ∧ kebab s.field = scale.stem := by
    cases s <;> cases hs <;> decide +kernel
  rw [name, plain, split, List.filter_cons_of_pos (by rw [field.1]; rfl), List.map_cons, field.2,
    intercalate_cons]

/-- Where a name is made of parts, the key has no full stop if the name has none. -/
theorem noStop_of_joined {key : Text}
    (h : Text.join ((((parts key).filter (!·.isEmpty)).map kebab).map (("-" : Text) ++ ·)) =
      "-" ++ key) : CodePoint.ofChar '.' ∉ key.toList := by
  intro stop
  have shown : CodePoint.ofChar '.' ∈ ("-" ++ key : Text).toList := List.mem_cons_of_mem _ stop
  rw [← h] at shown
  obtain ⟨t, ht, hm⟩ := List.mem_flatMap.1 shown
  obtain ⟨w, hw, rfl⟩ := List.mem_map.1 ht
  obtain ⟨part, hp, rfl⟩ := List.mem_map.1 hw
  rcases List.mem_append.1 hm with dash | stop
  · exact absurd dash (by decide)
  · exact noStop_kebab (noStop_of_mem_parts (List.mem_of_mem_filter hp)) stop

/-- A key without full stops is one part, and an empty one leaves no part at all. -/
theorem joined_of_noStop {key : Text} (h : CodePoint.ofChar '.' ∉ key.toList) :
    Text.join ((((parts key).filter (!·.isEmpty)).map kebab).map (("-" : Text) ++ ·)) =
      if key.isEmpty then ("" : Text) else "-" ++ kebab key := by
  rw [parts_of_noStop h]
  cases hn : key.isEmpty with
  | true =>
    rw [List.filter_cons_of_neg (by simp [hn])]
    rfl
  | false =>
    rw [List.filter_cons_of_pos (by simp [hn]), Text.ext_iff]
    exact List.flatMap_singleton _ _

/-- A path to a key has the name of the key's token exactly if the key is plain. -/
theorem name_scalePath_eq_iff {s : Section} {scale : Scale} (hs : s.scale? = some scale)
    (key : Text) : name (scalePath s key) = scale.tokenName key ↔ Plain key := by
  have named : scale.tokenName key = scale.stem ++ ("-" ++ key) := Text.append_assoc _ _ _
  rw [name_scalePath hs, named, Text.append_right_inj]
  constructor
  · intro h
    have noStop := noStop_of_joined h
    rw [joined_of_noStop noStop] at h
    cases hn : key.isEmpty with
    | true =>
      rw [hn] at h
      cases h
    | false =>
      rw [hn, if_neg Bool.false_ne_true, Text.append_right_inj] at h
      obtain ⟨noDash, small⟩ := (kebab_eq_self_iff key).1 h
      exact ⟨Text.isEmpty_eq_false_iff.1 hn, noDash, noStop, small⟩
  · intro h
    rw [joined_of_noStop h.noStop, Text.isEmpty_eq_false_iff.2 h.nonempty,
      if_neg Bool.false_ne_true, (kebab_eq_self_iff key).2 ⟨h.noDash, h.lower⟩]

end Token

namespace TokenTable

/-- A scale has for each of its keys the token of the key. -/
theorem get?_scaleCollection (scale : Scale) (theme : Theme) (collection key : Text) :
    (scaleCollection scale theme collection).get? (scale.tokenName key) =
      ((scale.entries theme).get? key).map (scaleToken scale collection key) := by
  have same : (fun e : Text × Number => scale.tokenName e.1 == scale.tokenName key) =
      fun e => decide (e.1 = key) := by
    funext e
    rw [Bool.eq_iff_iff, beq_iff_eq, decide_eq_true_iff]
    exact ⟨fun he => Text.append_right_inj.1 he, congrArg scale.tokenName⟩
  show ((scale.entries theme).entries.map fun e => scaleToken scale collection e.1 e.2).find?
    (·.name == scale.tokenName key) = _
  rw [List.find?_map, KeyMap.get?, Option.map_map]
  refine (congrArg (Option.map _) (congrArg (List.find? · _) same)).trans ?_
  cases found : (scale.entries theme).entries.find? fun e => e.1 = key with
  | none => rfl
  | some e =>
    obtain rfl : e.1 = key := by simpa using List.find?_some found
    rfl

/-- In the table of a theme each key of a scale has its token, by the key as it is spelled. -/
theorem get?_scale {s : Section} {scale : Scale} (hs : s.scale? = some scale) (theme : Theme)
    (name key : Text) :
    (ofTheme theme name).get? (collectionName name s) (scale.tokenName key) =
      ((scale.entries theme).get? key).map (scaleToken scale (collectionName name s) key) := by
  rw [get?_ofTheme]
  cases s <;> cases hs <;> exact get?_scaleCollection _ theme _ key

/-- **Which keys of a scale their paths lead to.** In the table of a theme each key of a scale has
its token, by the key as it is spelled. The path to the key leads to this token exactly if the key
is plain: if it is not empty, holds no full stop, has no dash in front and is in lower case. -/
theorem get?_scalePath_iff {s : Section} {scale : Scale} (hs : s.scale? = some scale)
    {theme : Theme} {key : Text} {value : Number}
    (h : (scale.entries theme).get? key = some value) (name : Text) :
    (ofTheme theme name).get? (collectionName name s) (scale.tokenName key) =
        some (scaleToken scale (collectionName name s) key value) ∧
      ((ofTheme theme name).get? (collectionName name s) (Token.name (scalePath s key)) =
        some (scaleToken scale (collectionName name s) key value) ↔ Plain key) := by
  have own : (ofTheme theme name).get? (collectionName name s) (scale.tokenName key) =
      some (scaleToken scale (collectionName name s) key value) := by
    rw [get?_scale hs, h]
    rfl
  refine ⟨own, fun found => ?_, fun plain => ?_⟩
  · -- A token that is found by a name has that name.
    rw [get?_ofTheme] at found
    have named : scale.tokenName key = Token.name (scalePath s key) :=
      beq_iff_eq.1 (List.find?_some found :)
    exact (name_scalePath_eq_iff hs key).1 named.symm
  · rw [(name_scalePath_eq_iff hs key).2 plain, own]

theorem get?_scalePath_iff_medium :
    let theme : Theme := { borderRadius := .of [("small", 4), ("medium", 8)] }
    let token := scaleToken .borderRadius "App Border Radius" "medium" 8
    Section.borderRadius.scale? = some .borderRadius ∧
      (Scale.borderRadius.entries theme).get? "medium" = some 8 ∧
      (ofTheme theme "App").get? "App Border Radius" "border-radius-medium" = some token ∧
      ((ofTheme theme "App").get? "App Border Radius"
        (Token.name (scalePath .borderRadius "medium")) = some token ↔ Plain "medium") := by
  intro theme token
  have h : (Scale.borderRadius.entries theme).get? "medium" = some 8 := by decide +kernel
  exact ⟨rfl, h, get?_scalePath_iff (s := .borderRadius) rfl h "App"⟩

/-- The path to a key in camel case leads to no token, or to the token of the key that is spelled as
the path is. -/
theorem get?_scalePath_camelCase :
    let theme : Theme := { spacing := .of [("extraLarge", 32)] }
    let both : Theme := { spacing := .of [("extraLarge", 32), ("extra-large", 24)] }
    Token.name "spacing.extraLarge" = "spacing-extra-large" ∧
      (ofTheme theme).get? "Default Spacing" (Token.name "spacing.extraLarge") = none ∧
      ((ofTheme theme).get? "Default Spacing" "spacing-extraLarge").map (·.value) =
        some (.number 32) ∧
      ((ofTheme both).get? "Default Spacing" (Token.name "spacing.extraLarge")).map (·.value) =
        some (.number 24) := by
  decide +kernel

end TokenTable

end DesignTree
