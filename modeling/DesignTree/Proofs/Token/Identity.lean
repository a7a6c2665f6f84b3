import DesignTree.Proofs.Data.Replacement
import DesignTree.Token.Table
import Mathlib.Data.List.Flatten

/-! # Identifiers of tokens

The identifier of a token is put together from the name of its theme, its section and its own name,
with a mark in front if it has several modes. The parts can be told apart however they are spelled:
a section and a name give an identifier of their own (`slotId_inj`), and no identifier is another
one with the mark in front, even if the name of the theme starts with the mark (`slotId_ne_marked`).
In a section of a theme no two tokens have one name (`nodup_names_themeCollection`), nor have they
in a section of several themes taken together (`nodup_names_modalCollection`). So no two tokens of a
table that is built from themes have one identifier (`nodup_ids_of_addModes`).
-/

namespace DesignTree

/-! ## Themes -/

/-- A scale whose names differ is read as it stands in its record. -/
theorem Theme.entries_decodeScale {fs : Fields} (h : (Entries.keys fs).Nodup) :
    KeyMap.entries <$> Theme.decodeScale (.record fs) = Decoded.mapOf .number (.record fs) := by
  rw [decodeScale]
  cases hr : Decoded.mapOf .number (.record fs) with
  | failed issues => rfl
  | ok es =>
    obtain ⟨_, ⟨⟩, keys⟩ := Decoded.keys_of_mapOf hr
    rw [← keys] at h
    exact congrArg Decoded.ok (Entries.ofItems_of_nodup h)

namespace Token

/-- The words for a section in the names of collections. -/
def Section.words : Section → Text
  | .colors => "Colors"
  | .typography => "Typography"
  | .spacing => "Spacing"
  | .borderRadius => "Border Radius"

/-- The identifier of a token of one mode. -/
def slotId (theme : Text) (s : Section) (name : Text) : Text :=
  collectionName theme s ++ "-" ++ name

theorem toList_slotId (theme : Text) (s : Section) (name : Text) :
    (slotId theme s name).toList =
      theme.toList ++ .ofChar ' ' :: (s.words ++ ("-" ++ name)).toList := by
  cases s <;> simp only [slotId, collectionName, Text.toList_append, List.append_assoc] <;> rfl

/-- A section and a name have an identifier of their own. -/
theorem slotId_inj {theme : Text} {s s' : Section} {name name' : Text}
    (h : slotId theme s name = slotId theme s' name') : s = s' ∧ name = name' := by
  have rest : s.words ++ ("-" ++ name) = s'.words ++ ("-" ++ name') := by
    rw [Text.ext_iff, toList_slotId, toList_slotId, List.append_right_inj, List.cons.injEq] at h
    exact Text.ext_iff.2 h.2
  have initial (s : Section) (name : Text) :
      (s.words ++ ("-" ++ name)).toList.head? = s.words.toList.head? := by
    cases s <;> rfl
  have initials : ∀ s s' : Section, s.words.toList.head? = s'.words.toList.head? → s = s' := by
    intro s s'
    cases s <;> cases s' <;> decide
  obtain rfl := initials s s' (by rw [← initial s name, rest, initial])
  rw [Text.append_right_inj, Text.append_right_inj] at rest
  exact ⟨rfl, rest⟩

/-- The sections of a theme, in the order of its collections. -/
def Section.all : List Section := [.colors, .typography, .spacing, .borderRadius]

theorem nodup_sections : Section.all.Nodup := by decide

theorem mem_sections (s : Section) : s ∈ Section.all := by cases s <;> decide

theorem nodup_collectionNames (theme : Text) : (Section.all.map (collectionName theme)).Nodup := by
  refine nodup_sections.map fun s s' h => ?_
  have slots : slotId theme s "" = slotId theme s' "" := by rw [slotId, slotId, h]
  exact (slotId_inj slots).1

/-- Something that goes on with `x` after `p` does not start over with a mark in front of `p`, if
`x` is not in the mark. -/
theorem append_cons_ne_mark {α : Type} {mark : List α} {x : α} (hm : mark ≠ []) (hx : x ∉ mark)
    (p a b : List α) : p ++ x :: a ≠ mark ++ (p ++ b) := by
  induction hn : p.length using Nat.strongRecOn generalizing p with
  | ind n ih =>
    intro h
    rcases List.append_eq_append_iff.1 h with ⟨c, rfl, hc⟩ | ⟨c, rfl, hc⟩
    · -- The mark is `p` and then `c`, so that `x` stands in what follows: in `c`, or in `p` again.
      have hne : c ++ p ≠ [] := fun he => hm (List.append_eq_nil_iff.2
        (List.append_eq_nil_iff.1 he).symm)
      obtain ⟨y, rest, hy⟩ := List.exists_cons_of_ne_nil hne
      rw [← List.append_assoc, hy, List.cons_append, List.cons.injEq] at hc
      have hmem : x ∈ c ++ p := by
        rw [hy, hc.1]
        exact List.mem_cons_self
      exact hx (List.mem_append.2 (List.mem_append.1 hmem).symm)
    · -- `p` starts with the mark, and the same holds of what it goes on with.
      rw [List.append_assoc] at hc
      refine ih c.length ?_ c rfl hc.symm
      rw [← hn, List.length_append]
      have := List.length_pos_of_ne_nil hm
      omega

/-- An identifier of one mode is none of several modes, even if the name of the theme starts with
the mark of these. -/
theorem slotId_ne_marked (theme : Text) (s s' : Section) (name name' : Text) :
    slotId theme s name ≠ "multimode-" ++ slotId theme s' name' := by
  rw [Ne, Text.ext_iff, Text.toList_append, toList_slotId, toList_slotId]
  exact append_cons_ne_mark (by decide) (by decide) _ _ _

/-- Tokens whose names differ in each section have identifiers of their own, if these are made of
the section and the name. -/
theorem nodup_map_id_of_sections {α : Type} {tokens : Section → List α} {id name : α → Text}
    {place : Section → Text → Text}
    (hplace : ∀ s s' n n', place s n = place s' n' → s = s' ∧ n = n')
    (hid : ∀ s, ∀ v ∈ tokens s, id v = place s (name v))
    (hname : ∀ s, ((tokens s).map name).Nodup) :
    ((Section.all.flatMap tokens).map id).Nodup := by
  have ids (s : Section) : (tokens s).map id = ((tokens s).map name).map (place s) := by
    rw [List.map_map]
    exact List.map_congr_left (hid s)
  simp only [List.map_flatMap, ids]
  refine List.nodup_flatMap.2 ⟨fun s _ => ?_, nodup_sections.imp fun {s s'} hne => ?_⟩
  · exact (hname s).map fun n n' h => (hplace s s n n' h).2
  · intro x hx hx'
    obtain ⟨n, -, rfl⟩ := List.mem_map.1 hx
    obtain ⟨n', -, h⟩ := List.mem_map.1 hx'
    exact hne (hplace s' s n' n h).1.symm

/-! ## Names in a section -/

/-- What is left of some items goes by names that are among those of the items. -/
theorem sublist_map_filterMap {α β γ : Type} {f : α → Option β} {g : β → γ} {k : α → γ}
    (h : ∀ a b, f a = some b → g b = k a) (l : List α) :
    ((l.filterMap f).map g).Sublist (l.map k) := by
  induction l with
  | nil => exact .slnil
  | cons a rest ih =>
    rw [List.map_cons]
    cases hf : f a with
    | none =>
      rw [List.filterMap_cons_none hf]
      exact ih.cons _
    | some b =>
      rw [List.filterMap_cons_some hf, List.map_cons, h a b hf]
      exact ih.cons_cons _

theorem nodup_colorNames : (ColorRole.all.map colorName).Nodup := by decide +kernel

/-- The name of the token for a property of a text style. -/
def textName (role : TextRole) (p : TextProperty) : Text := styleName role ++ "-" ++ p.suffix

/-- The first and the last letter tell the names of text styles apart. -/
theorem styleName_inj {role role' : TextRole} (h : styleName role = styleName role') :
    role = role' := by
  have roles : ∀ role, role ∈ TextRole.all := fun role => by cases role <;> decide
  have letters : (TextRole.all.map fun role =>
      ((styleName role).toList.head?, (styleName role).toList.getLast?)).Nodup := by
    decide +kernel
  exact List.inj_on_of_nodup_map letters (roles role) (roles role') (by simp only [h])

/-- The last six letters tell the properties apart. -/
theorem textName_inj {role role' : TextRole} {p p' : TextProperty}
    (h : textName role p = textName role' p') : role = role' ∧ p = p' := by
  have ending (role : TextRole) (p : TextProperty) :
      (textName role p).toList.reverse.take 6 = p.suffix.toList.reverse.take 6 := by
    rw [textName, Text.toList_append, List.reverse_append]
    exact List.take_append_of_le_length (by cases p <;> decide)
  have endings : ∀ p p' : TextProperty,
      p.suffix.toList.reverse.take 6 = p'.suffix.toList.reverse.take 6 → p = p' := by
    intro p p'
    cases p <;> cases p' <;> decide
  obtain rfl := endings p p' (by rw [← ending role p, h, ending])
  simp only [textName, Text.ext_iff, Text.toList_append, List.append_left_inj] at h
  exact ⟨styleName_inj (Text.ext_iff.2 h), rfl⟩

theorem nodup_styleValues (s : TextStyle) : ((styleValues s).map (·.1)).Nodup := by
  have sub := sublist_map_filterMap (f := fun p => (p.valueIn s).map (p, ·)) (g := (·.1)) (k := id)
    (fun p x hx => by
      obtain ⟨v, -, rfl⟩ := Option.map_eq_some_iff.1 hx
      rfl) TextProperty.all
  rw [List.map_id] at sub
  exact sub.nodup (by decide)

theorem Scale.nodup_tokenNames (scale : Scale) (values : KeyMap Text Number) :
    ((values.entries.map (·.1)).map scale.tokenName).Nodup :=
  values.nodup.map fun _ _ hk => Text.append_right_inj.1 hk

end Token

namespace TokenTable

open Token

/-- The collection for a section of a theme. -/
def themeCollection (theme : Theme) (themeName : Text) : Section → Collection
  | .colors => colorCollection theme (collectionName themeName .colors)
  | .typography => typographyCollection theme (collectionName themeName .typography)
  | .spacing => scaleCollection .spacing theme (collectionName themeName .spacing)
  | .borderRadius => scaleCollection .borderRadius theme (collectionName themeName .borderRadius)

/-- The collection for a section of several themes taken together. -/
def modalCollection (themes : List (Theme × Text)) (name : Text) (s : Section) : ModalCollection :=
  let modes := Mode.ofNames (themes.map (·.2))
  match s with
  | .colors => modalColors themes modes (collectionName name .colors)
  | .typography => modalTypography themes modes (collectionName name .typography)
  | .spacing => modalScale .spacing themes modes (collectionName name .spacing)
  | .borderRadius => modalScale .borderRadius themes modes (collectionName name .borderRadius)

theorem themeCollections_eq (theme : Theme) (themeName : Text) :
    themeCollections theme themeName = Section.all.map (themeCollection theme themeName) := rfl

theorem modalCollections_eq (themes : List (Theme × Text)) (name : Text) :
    modalCollections themes name = Section.all.map (modalCollection themes name) := rfl

theorem name_themeCollection (theme : Theme) (themeName : Text) (s : Section) :
    (themeCollection theme themeName s).name = collectionName themeName s := by
  cases s <;> rfl

theorem name_modalCollection (themes : List (Theme × Text)) (name : Text) (s : Section) :
    (modalCollection themes name s).name = collectionName name s := by
  cases s <;> rfl

theorem nodup_names_scale (scale : Scale) (theme : Theme) (name : Text) :
    ((scaleCollection scale theme name).tokens.map (·.name)).Nodup := by
  have names : (scaleCollection scale theme name).tokens.map (·.name) =
      ((scale.entries theme).entries.map (·.1)).map scale.tokenName := by
    simp only [scaleCollection, KeyMap.map, List.map_map]
    rfl
  rw [names]
  exact scale.nodup_tokenNames (scale.entries theme)

theorem nodup_names_typography (theme : Theme) (name : Text) :
    ((typographyCollection theme name).tokens.map (·.name)).Nodup := by
  have names : (typographyCollection theme name).tokens.map (·.name) =
      theme.textTheme.styles.entries.flatMap fun e =>
        ((styleValues e.2).map (·.1)).map (textName e.1) := by
    simp only [typographyCollection, List.map_flatMap, List.map_map]
    rfl
  rw [names]
  have roles := List.pairwise_map.1 theme.textTheme.styles.nodup
  refine List.nodup_flatMap.2 ⟨fun e _ => ?_, roles.imp ?_⟩
  · exact (nodup_styleValues e.2).map fun p p' hp => (textName_inj hp).2
  · intro e e' hne x hx hx'
    obtain ⟨p, -, rfl⟩ := List.mem_map.1 hx
    obtain ⟨p', -, hp⟩ := List.mem_map.1 hx'
    exact hne (textName_inj hp).1.symm

/-- No two tokens in a section of a theme have one name. -/
theorem nodup_names_themeCollection (theme : Theme) (themeName : Text) (s : Section) :
    ((themeCollection theme themeName s).tokens.map (·.name)).Nodup := by
  cases s with
  | colors =>
    simp only [themeCollection, colorCollection]
    refine List.Nodup.sublist (sublist_map_filterMap (k := colorName) (fun role v hv => ?_) _)
      nodup_colorNames
    obtain ⟨c, -, rfl⟩ := Option.map_eq_some_iff.1 hv
    rfl
  | typography => exact nodup_names_typography theme _
  | spacing => exact nodup_names_scale .spacing theme _
  | borderRadius => exact nodup_names_scale .borderRadius theme _

theorem collection_of_mem_themeCollection {theme : Theme} {themeName : Text} {s : Section}
    {v : Variable} (h : v ∈ (themeCollection theme themeName s).tokens) :
    v.collection = collectionName themeName s := by
  cases s with
  | colors =>
    obtain ⟨role, -, hv⟩ := List.mem_filterMap.1 h
    obtain ⟨c, -, rfl⟩ := Option.map_eq_some_iff.1 hv
    rfl
  | typography =>
    obtain ⟨e, -, hv⟩ := List.mem_flatMap.1 h
    obtain ⟨x, -, rfl⟩ := List.mem_map.1 hv
    rfl
  | spacing =>
    obtain ⟨e, -, rfl⟩ := List.mem_map.1 h
    rfl
  | borderRadius =>
    obtain ⟨e, -, rfl⟩ := List.mem_map.1 h
    rfl

theorem id_of_mem_themeCollection {theme : Theme} {themeName : Text} {s : Section} {v : Variable}
    (h : v ∈ (themeCollection theme themeName s).tokens) : v.id = slotId themeName s v.name := by
  rw [Variable.id, collection_of_mem_themeCollection h, slotId]

/-! ## Names in a section of several themes -/

/-- Tokens of a collection, each of them collected under its own name. -/
def Collected (collection : Text) (vars : Entries ModalVariable) : Prop :=
  vars.keys.Nodup ∧ ∀ e ∈ vars, e.2.name = e.1 ∧ e.2.collection = collection

theorem Collected.putTextValue {collection : Text} {vars : Entries ModalVariable}
    (h : Collected collection vars) (mode token : Text) (p : TextProperty) (value : TokenValue) :
    Collected collection (putTextValue collection mode vars token p value) := by
  refine ⟨Entries.nodup_keys_set h.1 _ _, fun e he => ?_⟩
  rcases Entries.eq_or_mem_of_mem_set he with rfl | hm
  · cases hv : vars.get? token with
    | none => exact ⟨rfl, rfl⟩
    | some v =>
      have found := h.2 _ (Entries.mem_of_get? hv)
      exact found
  · exact h.2 e hm

/-- The tokens that are collected from values of text properties, each with its mode and the name of
its token. -/
def collectTexts (collection : Text) (items : List (Text × Text × TextProperty × TokenValue)) :
    Entries ModalVariable :=
  items.foldl (fun vs e => putTextValue collection e.1 vs e.2.1 e.2.2.1 e.2.2.2) []

theorem collected_collectTexts (collection : Text)
    (items : List (Text × Text × TextProperty × TokenValue)) :
    Collected collection (collectTexts collection items) := by
  have start : Collected collection [] :=
    ⟨List.nodup_nil, fun e he => absurd he List.not_mem_nil⟩
  exact List.foldlRecOn _ _ start fun vars h e _ => h.putTextValue e.1 e.2.1 e.2.2.1 e.2.2.2

/-- The values that a theme gives to text properties, with its mode and the names of tokens. -/
def textItems (e : Theme × Text) : List (Text × Text × TextProperty × TokenValue) :=
  e.1.textTheme.styles.entries.flatMap fun s =>
    (styleValues s.2).map fun v => (e.2, textName s.1 v.1, v.1, v.2)

theorem collected_modalTypography (themes : List (Theme × Text)) (modes : List Mode) (name : Text) :
    ∃ vars, Collected name vars ∧ (modalTypography themes modes name).tokens = vars.map (·.2) :=
  ⟨_, collected_collectTexts name (themes.flatMap textItems), rfl⟩

theorem nodup_names_modalScale (scale : Scale) (base : Theme × Text) (rest : List (Theme × Text))
    (modes : List Mode) (name : Text) :
    ((modalScale scale (base :: rest) modes name).tokens.map (·.name)).Nodup := by
  have names : (modalScale scale (base :: rest) modes name).tokens.map (·.name) =
      ((scale.entries base.1).entries.map (·.1)).map scale.tokenName := by
    simp only [modalScale, KeyMap.map, List.map_map]
    rfl
  rw [names]
  exact scale.nodup_tokenNames (scale.entries base.1)

theorem collection_of_mem_modalScale {scale : Scale} {themes : List (Theme × Text)}
    {modes : List Mode} {name : Text} {v : ModalVariable}
    (h : v ∈ (modalScale scale themes modes name).tokens) : v.collection = name := by
  cases themes with
  | nil => exact absurd h List.not_mem_nil
  | cons base rest =>
    obtain ⟨e, -, rfl⟩ := List.mem_map.1 h
    rfl

/-- No two tokens in a section of several themes have one name. -/
theorem nodup_names_modalCollection (base : Theme × Text) (rest : List (Theme × Text))
    (name : Text) (s : Section) :
    ((modalCollection (base :: rest) name s).tokens.map (·.name)).Nodup := by
  cases s with
  | colors =>
    simp only [modalCollection, modalColors]
    refine List.Nodup.sublist (sublist_map_filterMap (k := colorName) (fun role v hv => ?_) _)
      nodup_colorNames
    rw [Option.ite_none_left_eq_some, Option.some.injEq] at hv
    rw [← hv.2]
  | typography =>
    obtain ⟨vars, hvars, ht⟩ := collected_modalTypography (base :: rest)
      (Mode.ofNames ((base :: rest).map (·.2))) (collectionName name .typography)
    have names : (vars.map (·.2)).map (·.name) = vars.keys := by
      rw [List.map_map]
      exact List.map_congr_left fun e he => (hvars.2 e he).1
    simp only [modalCollection, ht, names]
    exact hvars.1
  | spacing => exact nodup_names_modalScale .spacing base rest _ _
  | borderRadius => exact nodup_names_modalScale .borderRadius base rest _ _

theorem collection_of_mem_modalCollection {themes : List (Theme × Text)} {name : Text}
    {s : Section} {v : ModalVariable} (h : v ∈ (modalCollection themes name s).tokens) :
    v.collection = collectionName name s := by
  cases s with
  | colors =>
    obtain ⟨role, -, hv⟩ := List.mem_filterMap.1 h
    rw [Option.ite_none_left_eq_some, Option.some.injEq] at hv
    rw [← hv.2]
  | typography =>
    obtain ⟨vars, hvars, ht⟩ := collected_modalTypography themes
      (Mode.ofNames (themes.map (·.2))) (collectionName name .typography)
    simp only [modalCollection, ht] at h
    obtain ⟨e, he, rfl⟩ := List.mem_map.1 h
    exact (hvars.2 e he).2
  | spacing => exact collection_of_mem_modalScale h
  | borderRadius => exact collection_of_mem_modalScale h

theorem id_of_mem_modalCollection {themes : List (Theme × Text)} {name : Text} {s : Section}
    {v : ModalVariable} (h : v ∈ (modalCollection themes name s).tokens) :
    v.id = "multimode-" ++ slotId name s v.name := by
  rw [ModalVariable.id, collection_of_mem_modalCollection h, slotId, Text.append_assoc,
    Text.append_assoc, Text.append_assoc]

/-! ## Whole tables -/

/-- The identifiers of all tokens, those of one mode first. -/
def ids (t : TokenTable) : List Text := t.tokens.map (·.id) ++ t.modalVariables.map (·.id)

theorem single_ofTheme (theme : Theme) (name : Text) :
    (ofTheme theme name).single = (themeCollections theme name).map fun c => (c.name, c) :=
  Entries.foldl_set_of_nodup Collection.name (nodup_collectionNames name)

theorem tokens_ofTheme (theme : Theme) (name : Text) :
    (ofTheme theme name).tokens =
      Section.all.flatMap fun s => (themeCollection theme name s).tokens := by
  simp only [tokens, collections, single_ofTheme, themeCollections_eq, List.flatMap_map]

theorem tokens_of_addModes {t t' : TokenTable} {themes : List Theme} {names : List Text}
    {name : Text} (h : t.addModes themes names name = .ok t') : t'.tokens = t.tokens := by
  unfold addModes at h
  split at h
  · cases h
  · split at h <;> cases h <;> rfl

/-- Themes as modes in a table without modes. -/
theorem modal_of_addModes {t t' : TokenTable} (hm : t.modal = []) {base : Theme}
    {rest : List Theme} {names : List Text} {name : Text}
    (h : t.addModes (base :: rest) names name = .ok t') :
    ∃ mode more, names = mode :: more ∧ t'.modal =
      (modalCollections ((base, mode) :: rest.zip more) name).map fun c => (c.name, c) := by
  unfold addModes at h
  split at h
  · cases h
  · next hl =>
    cases names with
    | nil => simp at hl
    | cons mode more =>
      cases h
      refine ⟨mode, more, rfl, ?_⟩
      simp only [hm]
      exact Entries.foldl_set_of_nodup ModalCollection.name (nodup_collectionNames name)

theorem modalVariables_of_addModes {t t' : TokenTable} (hm : t.modal = []) {base : Theme}
    {rest : List Theme} {names : List Text} {name : Text}
    (h : t.addModes (base :: rest) names name = .ok t') :
    ∃ mode others, t'.modalVariables =
      Section.all.flatMap fun s => (modalCollection ((base, mode) :: others) name s).tokens := by
  obtain ⟨mode, more, -, modal⟩ := modal_of_addModes hm h
  refine ⟨mode, rest.zip more, ?_⟩
  simp only [modalVariables, modalCollectionList, modal, modalCollections_eq, List.flatMap_map]

theorem ids_ofTheme (theme : Theme) (name : Text) :
    (ofTheme theme name).ids = (ofTheme theme name).tokens.map (·.id) :=
  List.append_nil _

/-- The tokens of a theme have identifiers of their own. -/
theorem nodup_ids_ofTheme (theme : Theme) (name : Text) :
    ((ofTheme theme name).tokens.map (·.id)).Nodup := by
  rw [tokens_ofTheme]
  exact nodup_map_id_of_sections (fun _ _ _ _ => slotId_inj)
    (fun _ _ hv => id_of_mem_themeCollection hv) (nodup_names_themeCollection theme name)

/-- The tokens of a theme and of further ones beside it have identifiers of their own. -/
theorem nodup_ids_of_addModes {theme : Theme} {rest : List Theme} {names : List Text}
    {name : Text} {t : TokenTable}
    (ht : (ofTheme theme name).addModes (theme :: rest) names name = .ok t) : t.ids.Nodup := by
  obtain ⟨mode, others, modal⟩ := modalVariables_of_addModes rfl ht
  have single := tokens_of_addModes ht
  rw [ids, single, modal]
  refine List.nodup_append.2 ⟨nodup_ids_ofTheme theme name, ?_, ?_⟩
  · exact nodup_map_id_of_sections
      (fun _ _ _ _ hp => slotId_inj (Text.append_right_inj.1 hp))
      (fun _ _ hv => id_of_mem_modalCollection hv)
      (nodup_names_modalCollection (theme, mode) others name)
  · rintro x hx y hy rfl
    rw [tokens_ofTheme] at hx
    obtain ⟨v, hv, rfl⟩ := List.mem_map.1 hx
    obtain ⟨v', hv', same⟩ := List.mem_map.1 hy
    obtain ⟨s, -, hs⟩ := List.mem_flatMap.1 hv
    obtain ⟨s', -, hs'⟩ := List.mem_flatMap.1 hv'
    rw [id_of_mem_themeCollection hs, id_of_mem_modalCollection hs'] at same
    exact slotId_ne_marked name s s' v.name v'.name same.symm

/-! ## Looking tokens up -/

/-- What is kept for each section of a theme is found by the name of the section's collection. -/
theorem get?_collectionName {α : Type} {es : Entries α} {name : Text} {f : Section → α}
    (h : es = Section.all.map fun s => (collectionName name s, f s)) (s : Section) :
    es.get? (collectionName name s) = some (f s) := by
  have keys : es.keys = Section.all.map (collectionName name) := by
    rw [h, Entries.keys, List.map_map]
    rfl
  have mem : (collectionName name s, f s) ∈ es := by
    rw [h]
    exact List.mem_map.2 ⟨s, mem_sections s, rfl⟩
  exact Entries.get?_of_mem (keys ▸ nodup_collectionNames name) mem

variable {t : TokenTable} {collection name : Text}

theorem mem_tokens_of_get? {v : Variable} (h : t.get? collection name = some v) : v ∈ t.tokens := by
  obtain ⟨c, hc, hv⟩ := Option.bind_eq_some_iff.1 h
  refine List.mem_flatMap.2 ⟨c, ?_, List.mem_of_find?_eq_some hv⟩
  exact List.mem_map.2 ⟨(collection, c), Entries.mem_of_get? hc, rfl⟩

theorem mem_modalVariables_of_getModal? {v : ModalVariable}
    (h : t.getModal? collection name = some v) : v ∈ t.modalVariables := by
  obtain ⟨c, hc, hv⟩ := Option.bind_eq_some_iff.1 h
  refine List.mem_flatMap.2 ⟨c, ?_, List.mem_of_find?_eq_some hv⟩
  exact List.mem_map.2 ⟨(collection, c), Entries.mem_of_get? hc, rfl⟩

end TokenTable

end DesignTree
