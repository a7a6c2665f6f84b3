import DesignTree.Proofs.Data.Grouping
import DesignTree.Proofs.Data.Replacement
import DesignTree.Proofs.Widget.Form

/-! # Overrides on widget properties

What is found under a name when properties with overrides on top are read anew
(`WidgetProperties.get_merged_iff`). A name that an override sets has the value of the override, and
any other name has what it had, but for one thing: where a property with a type was read as absent
under its first spelling, and its second spelling came as one more property, that property now takes
what this spelling holds (`WidgetProperties.Stray`).
-/

namespace DesignTree

/-! ## Entries under a name -/

namespace Entries

variable {α : Type}

theorem keys_filter_sublist (p : Text × α → Bool) (es : Entries α) :
    List.Sublist (keys (es.filter p)) es.keys := List.filter_sublist.map _

/-- Where no name is there twice, a filter leaves an entry or takes it away. -/
theorem get?_filter (p : Text × α → Bool) {es : Entries α} (h : es.keys.Nodup) (name : Text) :
    get? (es.filter p) name = (es.get? name).filter fun v => p (name, v) := by
  induction es with
  | nil => rfl
  | cons e rest ih =>
    obtain ⟨k, v⟩ := e
    rw [keys, List.map_cons, List.nodup_cons] at h
    by_cases hk : k = name
    · subst hk
      have absent : get? (rest.filter p) k = none :=
        get?_eq_none fun hm => h.1 ((keys_filter_sublist p rest).subset hm)
      cases hp : p (k, v) <;> simp [get?, hp, absent, Option.filter_some]
    · cases hp : p (k, v) <;> simp [get?, hp, hk, ih h.2]

end Entries

namespace WidgetProperties

open PropertyForm

variable {p q : WidgetProperties} {fs o : Fields} {k : Key} {name : Text}

/-! ## Names of properties -/

/-- No property with a type has this name. -/
abbrev Untyped (name : Text) : Prop := ∀ k ∈ typedKeys, ¬ k.Names name

/-- Two names are one property: the same name, or both spellings of a typed one. -/
def SameProperty (a b : Text) : Prop := a = b ∨ ∃ k ∈ typedKeys, k.Names a ∧ k.Names b

instance (a b : Text) : Decidable (SameProperty a b) :=
  inferInstanceAs (Decidable (_ ∨ ∃ k ∈ typedKeys, _))

theorem overrideName_of_names (hk : k ∈ typedKeys) (h : k.Names name) :
    overrideName name = k.camel := by
  unfold overrideName
  cases found : typedKeys.find? (·.snake == name) with
  | some k' =>
    have snake : k'.snake = name := by simpa using List.find?_some found
    exact congrArg Key.camel
      (apart_typedKeys.eq_of_names (List.mem_of_find?_eq_some found) hk (.inr snake.symm) h)
  | none =>
    rcases h with camel | snake
    · exact camel
    · exact absurd snake.symm (by simpa using List.find?_eq_none.1 found k hk)

theorem overrideName_of_untyped (h : Untyped name) : overrideName name = name := by
  unfold overrideName
  cases found : typedKeys.find? (·.snake == name) with
  | some k' =>
    have snake : k'.snake = name := by simpa using List.find?_some found
    exact absurd (.inr snake.symm) (h k' (List.mem_of_find?_eq_some found))
  | none => rfl

/-- Overrides are kept under one name exactly if they are of one property. -/
theorem overrideName_eq_iff {a b : Text} : overrideName a = overrideName b ↔ SameProperty a b := by
  constructor
  · intro same
    by_cases ha : ∃ k ∈ typedKeys, k.Names a
    · obtain ⟨k, hk, hn⟩ := ha
      rw [overrideName_of_names hk hn] at same
      by_cases hb : ∃ k ∈ typedKeys, k.Names b
      · obtain ⟨k', hk', hn'⟩ := hb
        rw [overrideName_of_names hk' hn'] at same
        obtain rfl := apart_typedKeys.eq_of_names hk hk' (.inl rfl) (.inl same)
        exact .inr ⟨k, hk, hn, hn'⟩
      · rw [overrideName_of_untyped fun k hk hn => hb ⟨k, hk, hn⟩] at same
        exact absurd ⟨k, hk, .inl same.symm⟩ hb
    · rw [overrideName_of_untyped fun k hk hn => ha ⟨k, hk, hn⟩] at same
      by_cases hb : ∃ k ∈ typedKeys, k.Names b
      · obtain ⟨k', hk', hn'⟩ := hb
        rw [overrideName_of_names hk' hn'] at same
        exact absurd ⟨k', hk', .inl same⟩ ha
      · rw [overrideName_of_untyped fun k hk hn => hb ⟨k, hk, hn⟩] at same
        exact .inl same
  · rintro (rfl | ⟨k, hk, ha, hb⟩)
    · rfl
    · rw [overrideName_of_names hk ha, overrideName_of_names hk hb]

/-- No override is kept under the second spelling of a property. -/
theorem overrideName_ne_snake (hk : k ∈ typedKeys) (proper : k.snake ≠ k.camel) :
    overrideName name ≠ k.snake := by
  intro same
  by_cases typed : ∃ k' ∈ typedKeys, k'.Names name
  · obtain ⟨k', hk', hn⟩ := typed
    rw [overrideName_of_names hk' hn] at same
    obtain rfl := apart_typedKeys.eq_of_names hk hk' (.inr rfl) (.inl same.symm)
    exact proper same.symm
  · rw [overrideName_of_untyped fun k' hk' hn => typed ⟨k', hk', hn⟩] at same
    exact typed ⟨k, hk, .inr same⟩

theorem hasSurrogate_of_names (hk : k ∈ typedKeys) (h : k.Names name) :
    name.hasSurrogate = false := by
  have whole : ∀ k ∈ typedKeys, k.camel.hasSurrogate = false ∧ k.snake.hasSurrogate = false := by
    simp [typedKeys_eq, InputModel.keys, InputModel.fields, InputModel.contentFields,
      InputModel.boxFields, InputModel.placementFields, InputModel.semanticsFields, Key.word,
      Text.hasSurrogate_ofString]
  rcases h with rfl | rfl
  · exact (whole k hk).1
  · exact (whole k hk).2

/-! ## Properties that have been read -/

theorem names_iff_beq : (k.camel == name || k.snake == name) = true ↔ k.Names name := by
  rw [Bool.or_eq_true, beq_iff_eq, beq_iff_eq]
  exact or_congr eq_comm eq_comm

theorem get_of_names (hk : k ∈ typedKeys) (h : k.Names name) :
    ∃ v, (k, v) ∈ p.typed ∧ p.get name = v.getD .null := by
  unfold get
  generalize found : List.find? _ p.typed = slot
  cases slot with
  | some slot =>
    have hm : slot ∈ p.typed := List.mem_of_find?_eq_some found
    have hk' : slot.1 ∈ typedKeys := keys_typed p ▸ List.mem_map_of_mem hm
    have hn : slot.1.Names name := names_iff_beq.1 (List.find?_some (a := slot) found)
    obtain rfl := apart_typedKeys.eq_of_names hk hk' h hn
    refine ⟨slot.2, hm, ?_⟩
    obtain ⟨_, _ | v⟩ := slot
    · rfl
    · cases v <;> rfl
  | none =>
    obtain ⟨slot, hm, rfl⟩ := List.mem_map.1 (keys_typed p ▸ hk)
    exact absurd (names_iff_beq.2 h) (List.find?_eq_none.1 found slot hm)

theorem get_of_untyped (h : Untyped name) : p.get name = (p.extras.get? name).getD .null := by
  unfold get
  generalize found : List.find? _ p.typed = slot
  cases slot with
  | some slot =>
    have hn : slot.1.Names name := names_iff_beq.1 (List.find?_some (a := slot) found)
    have hm : slot.1 ∈ p.typed.map (·.1) := List.mem_map_of_mem (List.mem_of_find?_eq_some found)
    exact absurd hn (h slot.1 (keys_typed p ▸ hm))
  | none =>
    cases p.extras.get? name with
    | none => rfl
    | some v => cases v <;> rfl

theorem get?_untaken (nodup : fs.keys.Nodup) (name : Text) :
    (untaken fs).get? name =
      if ∃ k ∈ typedKeys, (k.find? fs).map (·.1) = some name then none else fs.get? name := by
  rw [untaken, Entries.without, Entries.get?_filter _ nodup]
  simp only [List.contains_eq_mem, List.mem_filterMap]
  split
  · next taken => cases fs.get? name <;> simp only [taken, decide_true, Bool.not_true] <;> rfl
  · next left => cases fs.get? name <;> simp only [left, decide_false, Bool.not_false] <;> rfl

/-- What is left over of a record has no property with a type under its first spelling. -/
theorem get?_untaken_camel (nodup : fs.keys.Nodup) (hk : k ∈ typedKeys) :
    (untaken fs).get? k.camel = none := by
  rw [get?_untaken nodup]
  split
  · rfl
  · next left =>
    by_contra present
    obtain ⟨v, hv⟩ := Option.ne_none_iff_exists'.1 present
    exact left ⟨k, hk, by rw [Key.find?, hv]; rfl⟩

theorem get?_untaken_of_untyped (nodup : fs.keys.Nodup) (h : Untyped name) :
    (untaken fs).get? name = fs.get? name := by
  rw [get?_untaken nodup, if_neg]
  rintro ⟨k, hk, taken⟩
  obtain ⟨e, found, rfl⟩ := Option.map_eq_some_iff.1 taken
  exact h k hk (Key.names_of_find? found).1

/-- The properties have been read from a record that has no field twice. -/
def IsRead (p : WidgetProperties) : Prop :=
  ∃ fs : Fields, fs.keys.Nodup ∧ decode (.record fs) = .ok p

theorem get_of_decode_of_names (h : decode (.record fs) = .ok p) {kf : Key × PropertyForm}
    (hkf : kf ∈ forms) (hn : kf.1.Names name) :
    ∃ v, (kf.1, v) ∈ p.typed ∧ kf.2.Keeps (kf.1.value fs) v ∧ p.get name = v.getD .null := by
  have hk : kf.1 ∈ typedKeys := keys_forms ▸ List.mem_map_of_mem hkf
  obtain ⟨v, hv, found⟩ := get_of_names (p := p) hk hn
  obtain ⟨other, hother, same, keeps⟩ := exists_of_mem_forall₂ (fills_of_decode h).2.1 hv
  have distinct : (forms.map (·.1)).Nodup := by
    rw [keys_forms]
    exact .of_map _ apart_typedKeys.separate.1
  obtain rfl := List.inj_on_of_nodup_map distinct hkf hother same
  exact ⟨v, hv, keeps, found⟩

theorem get_of_decode_of_untyped (h : decode (.record fs) = .ok p) (nodup : fs.keys.Nodup)
    (untyped : Untyped name) : p.get name = (fs.get? name).getD .null := by
  rw [get_of_untyped untyped, (fills_of_decode h).2.2, get?_untaken_of_untyped nodup untyped]

namespace IsRead

theorem nodup_extras (h : p.IsRead) : p.extras.keys.Nodup := by
  obtain ⟨fs, nodup, hd⟩ := h
  rw [(fills_of_decode hd).2.2]
  exact nodup.sublist (Entries.keys_filter_sublist _ fs)

theorem get?_extras_camel (h : p.IsRead) (hk : k ∈ typedKeys) : p.extras.get? k.camel = none := by
  obtain ⟨fs, nodup, hd⟩ := h
  rw [(fills_of_decode hd).2.2, get?_untaken_camel nodup hk]

theorem get?_extraFields (h : p.IsRead) (name : Text) :
    p.extraFields.get? name = (p.extras.get? name).filter (!·.isNull) :=
  Entries.get?_filter _ h.nodup_extras name

end IsRead

/-! ## Properties with overrides on top -/

theorem typedFields_eq (p : WidgetProperties) : p.typedFields = Fields.ofSlots p.typed := by
  rw [typedFields, Fields.ofSlots, List.filterMap_eq_flatMap_toList]
  refine List.flatMap_congr fun slot _ => ?_
  obtain ⟨k, _ | v⟩ := slot <;> rfl

theorem camels_typed (p : WidgetProperties) :
    p.typed.map (·.1.camel) = typedKeys.map (·.camel) := by
  rw [← keys_typed p, List.map_map]
  rfl

theorem get?_typedFields {v : Option Value} (hv : (k, v) ∈ p.typed) :
    p.typedFields.get? k.camel = v := by
  rw [typedFields_eq]
  refine Fields.get?_ofSlots ?_ hv
  rw [camels_typed]
  exact apart_typedKeys.separate.1

theorem get?_typedFields_of_notMem (h : name ∉ typedKeys.map (·.camel)) :
    p.typedFields.get? name = none := by
  rw [typedFields_eq]
  exact Fields.get?_ofSlots_of_notMem (camels_typed p ▸ h)

theorem get?_interchange (p : WidgetProperties) (name : Text) :
    p.interchange.get? name = (p.typedFields.get? name).or (p.extraFields.get? name) :=
  Entries.get?_append _ _ name

/-- The record that is read where overrides are on top. -/
def overlaid (p : WidgetProperties) (o : Fields) : Fields :=
  o.foldl (fun fs e => fs.set (overrideName e.1) e.2) p.interchange

theorem merged_nil (p : WidgetProperties) : p.merged [] = .ok p := rfl

theorem merged_eq_ok_iff (h : o ≠ []) :
    p.merged o = .ok q ↔ decode (.record (p.overlaid o)) = .ok q := by
  have some : o.isEmpty = false := by simpa using h
  unfold merged
  rw [some]
  show (decode (.record (p.overlaid o))).asModel _ = _ ↔ _
  cases decode (.record (p.overlaid o)) <;> simp [Decoded.asModel]

theorem get?_overlaid_of_unset (h : ∀ e ∈ o, overrideName e.1 ≠ name) :
    (p.overlaid o).get? name = p.interchange.get? name :=
  Entries.get?_foldl_set_of_notMem h

theorem get?_overlaid_of_set {e : Text × Value} (he : e ∈ o)
    (h : ∀ f ∈ o, overrideName f.1 = overrideName e.1 → f = e) :
    (p.overlaid o).get? (overrideName e.1) = some e.2 :=
  Entries.get?_foldl_set_of_unique he h

theorem keys_typedFields_sublist (p : WidgetProperties) :
    p.typedFields.keys.Sublist (typedKeys.map (·.camel)) := by
  rw [← camels_typed p, typedFields]
  induction p.typed with
  | nil => exact .slnil
  | cons slot rest ih =>
    obtain ⟨k, _ | v⟩ := slot
    · exact ih.cons k.camel
    · exact ih.cons_cons k.camel

namespace IsRead

theorem nodup_interchange (h : p.IsRead) : p.interchange.keys.Nodup := by
  have typed : p.typedFields.keys.Nodup :=
    apart_typedKeys.separate.1.sublist (keys_typedFields_sublist p)
  have extras : p.extraFields.keys.Nodup :=
    h.nodup_extras.sublist (Entries.keys_filter_sublist _ p.extras)
  rw [interchange, Entries.keys, List.map_append]
  refine typed.append extras fun name ht he => ?_
  obtain ⟨k, hk, rfl⟩ := List.mem_map.1 ((keys_typedFields_sublist p).subset ht)
  obtain ⟨e, he, same⟩ := List.mem_map.1 he
  have found := Entries.get?_of_mem extras he
  rw [same, h.get?_extraFields, h.get?_extras_camel hk] at found
  cases found

/-- What comes of a merge has been read as well. -/
theorem merged (h : p.IsRead) (hm : p.merged o = .ok q) : q.IsRead := by
  by_cases none : o = []
  · rw [none, merged_nil] at hm
    cases hm
    exact h
  · exact ⟨p.overlaid o, Entries.nodup_keys_foldl_set h.nodup_interchange,
      (merged_eq_ok_iff none).1 hm⟩

/-- Without an override, what is read under a key with a type is the property itself or, if it is
not set, what else came under the second spelling. -/
theorem value_overlaid (h : p.IsRead) {v : Option Value} (hv : (k, v) ∈ p.typed)
    (unset : ∀ e ∈ o, overrideName e.1 ≠ k.camel) :
    k.value (p.overlaid o) = v.getD ((p.extras.get? k.snake).getD .null) := by
  have hk : k ∈ typedKeys := keys_typed p ▸ List.mem_map_of_mem hv
  have camel : (p.overlaid o).get? k.camel = v := by
    rw [get?_overlaid_of_unset unset, get?_interchange, get?_typedFields hv, h.get?_extraFields,
      h.get?_extras_camel hk, Option.filter_none, Option.or_none]
  unfold Key.value Key.find?
  rw [camel]
  cases v with
  | some v => rfl
  | none =>
    by_cases one : k.snake = k.camel
    · rw [one, camel, h.get?_extras_camel hk]
      rfl
    · have new : k.snake ∉ typedKeys.map (·.camel) :=
        (apart_typedKeys.separate.2 k hk).resolve_left one
      rw [get?_overlaid_of_unset fun e _ => overrideName_ne_snake hk one, get?_interchange,
        get?_typedFields_of_notMem new, h.get?_extraFields]
      cases p.extras.get? k.snake with
      | none => rfl
      | some w => cases w <;> rfl

end IsRead

/-! ## What a merge does to a name -/

/-- A property that is not set although its second spelling came with a value, besides the first
one. -/
def Stray (p : WidgetProperties) (name : Text) : Prop :=
  p.get name = .null ∧
    ∃ k ∈ typedKeys, k.Names name ∧ (p.extras.get? k.snake).getD .null ≠ .null

theorem stray_iff (hk : k ∈ typedKeys) (hn : k.Names name) :
    p.Stray name ↔ p.get name = .null ∧ (p.extras.get? k.snake).getD .null ≠ .null := by
  refine and_congr_right fun _ => ⟨?_, fun h => ⟨k, hk, hn, h⟩⟩
  rintro ⟨k', hk', hn', h⟩
  rwa [apart_typedKeys.eq_of_names hk hk' hn hn']

/-- A typed property that no override sets stays as it is, unless it is a stray one. -/
theorem get_merged_of_names (hp : p.IsRead) (some : o ≠ []) (h : p.merged o = .ok q)
    {kf : Key × PropertyForm} (hkf : kf ∈ forms) (hn : kf.1.Names name)
    (unset : ∀ e ∈ o, ¬ SameProperty e.1 name) : q.get name = p.get name ↔ ¬ p.Stray name := by
  have hk : kf.1 ∈ typedKeys := keys_forms ▸ List.mem_map_of_mem hkf
  have unset : ∀ e ∈ o, overrideName e.1 ≠ kf.1.camel := by
    intro e he same
    rw [← overrideName_of_names hk hn] at same
    exact unset e he (overrideName_eq_iff.1 same)
  obtain ⟨fs, -, hd⟩ := id hp
  obtain ⟨v, hv, before, get⟩ := get_of_decode_of_names hd hkf hn
  obtain ⟨w, -, after, get'⟩ := get_of_decode_of_names ((merged_eq_ok_iff some).1 h) hkf hn
  rw [hp.value_overlaid hv unset] at after
  rw [stray_iff hk hn, get, get']
  cases v with
  | some v =>
    rw [after.unique before.again]
    simp [before.ne_null]
  | none => simpa using after.eq_none_iff

/-- A name that no override sets has what it had, unless it is a stray one. -/
theorem get_merged_of_unset (hp : p.IsRead) (some : o ≠ []) (h : p.merged o = .ok q)
    (unset : ∀ e ∈ o, ¬ SameProperty e.1 name) : q.get name = p.get name ↔ ¬ p.Stray name := by
  by_cases typed : ∃ k ∈ typedKeys, k.Names name
  · obtain ⟨k, hk, hn⟩ := typed
    obtain ⟨kf, hkf, rfl⟩ := List.mem_map.1 (keys_forms ▸ hk)
    exact get_merged_of_names hp some h hkf hn unset
  · have untyped : Untyped name := fun k hk hn => typed ⟨k, hk, hn⟩
    have new : name ∉ typedKeys.map (·.camel) := by
      intro hm
      obtain ⟨k, hk, camel⟩ := List.mem_map.1 hm
      exact untyped k hk (.inl camel.symm)
    have unset : ∀ e ∈ o, overrideName e.1 ≠ name := by
      intro e he same
      rw [← overrideName_of_untyped untyped] at same
      exact unset e he (overrideName_eq_iff.1 same)
    have same : q.get name = p.get name := by
      rw [get_of_decode_of_untyped ((merged_eq_ok_iff some).1 h)
          (Entries.nodup_keys_foldl_set hp.nodup_interchange) untyped,
        get_of_untyped untyped, get?_overlaid_of_unset unset, get?_interchange,
        get?_typedFields_of_notMem new, hp.get?_extraFields]
      cases p.extras.get? name with
      | none => rfl
      | some v => cases v <;> rfl
    exact iff_of_true same fun ⟨_, k, hk, hn, _⟩ => untyped k hk hn

theorem value_of_get?_camel {v : Value} (h : fs.get? k.camel = some v) : k.value fs = v := by
  rw [Key.value, Key.find?, h]
  rfl

theorem value_singleton {e : Text × Value} (h : k.Names e.1) : k.value [e] = e.2 := by
  obtain ⟨name, v⟩ := e
  obtain rfl | rfl := h
  · simp [Key.value, Key.find?, Entries.get?]
  · by_cases one : k.snake = k.camel <;> simp [Key.value, Key.find?, Entries.get?, one]

theorem value_singleton_of_not {e : Text × Value} (h : ¬ k.Names e.1) : k.value [e] = .null := by
  rw [Key.value, Key.find?_eq_none fun f hf => List.mem_singleton.1 hf ▸ h]
  rfl

/-- An override can be read on its own if a record can be read that has it under its property. -/
theorem isOk_decode_singleton {e : Text × Value} (read : decode (.record fs) = .ok q)
    (found : fs.get? (overrideName e.1) = some e.2) : (decode (.record [e])).isOk = true := by
  obtain ⟨whole, accepted⟩ := isOk_decode_iff.1 (show (decode (.record fs)).isOk = true by
    rw [read]
    rfl)
  refine isOk_decode_iff.2 ⟨?_, fun kf hkf => ?_⟩
  · have name : e.1.hasSurrogate = false := by
      by_cases typed : ∃ k ∈ typedKeys, k.Names e.1
      · obtain ⟨k, hk, hn⟩ := typed
        exact hasSurrogate_of_names hk hn
      · rw [overrideName_of_untyped fun k hk hn => typed ⟨k, hk, hn⟩] at found
        exact Bool.eq_false_iff.2 (List.any_eq_false.1 whole _ (Entries.mem_of_get? found))
    simpa using name
  · by_cases hn : kf.1.Names e.1
    · have hk : kf.1 ∈ typedKeys := keys_forms ▸ List.mem_map_of_mem hkf
      rw [overrideName_of_names hk hn] at found
      rw [value_singleton hn, ← value_of_get?_camel found]
      exact accepted kf hkf
    · rw [value_singleton_of_not hn]
      exact kf.2.keeps_null.accepts

/-- A name that one override sets has what is read of this override on its own. -/
theorem get_merged_of_set (hp : p.IsRead) (h : p.merged o = .ok q) {e : Text × Value} (he : e ∈ o)
    (only : ∀ f ∈ o, SameProperty f.1 e.1 → f = e) :
    ∃ r, decode (.record [e]) = .ok r ∧ q.get e.1 = r.get e.1 ∧
      (e.2 = .null → r.get e.1 = .null) := by
  have read := (merged_eq_ok_iff (List.ne_nil_of_mem he)).1 h
  have found : (p.overlaid o).get? (overrideName e.1) = some e.2 :=
    get?_overlaid_of_set he fun f hf same => only f hf (overrideName_eq_iff.1 same)
  cases alone : decode (.record [e]) with
  | failed issues =>
    have := isOk_decode_singleton read found
    rw [alone] at this
    cases this
  | ok r =>
    refine ⟨r, rfl, ?_⟩
    by_cases typed : ∃ k ∈ typedKeys, k.Names e.1
    · obtain ⟨k, hk, hn⟩ := typed
      obtain ⟨kf, hkf, rfl⟩ := List.mem_map.1 (keys_forms ▸ hk)
      obtain ⟨v, -, merged, get⟩ := get_of_decode_of_names read hkf hn
      obtain ⟨w, -, single, get'⟩ := get_of_decode_of_names alone hkf hn
      rw [overrideName_of_names hk hn] at found
      rw [value_of_get?_camel found] at merged
      rw [value_singleton hn] at single
      rw [get, get', merged.unique single]
      exact ⟨rfl, single.eq_none_iff.2⟩
    · have untyped : Untyped e.1 := fun k hk hn => typed ⟨k, hk, hn⟩
      rw [overrideName_of_untyped untyped] at found
      have nodup : (p.overlaid o).keys.Nodup :=
        Entries.nodup_keys_foldl_set hp.nodup_interchange
      have single : Entries.keys [e] = [e.1] := rfl
      rw [get_of_decode_of_untyped read nodup untyped, found,
        get_of_decode_of_untyped alone (single ▸ List.nodup_singleton _) untyped,
        Entries.get?_of_mem (single ▸ List.nodup_singleton _) (List.mem_singleton_self e)]
      exact ⟨rfl, id⟩

/-- Overrides touch only the properties that they set: any other name has what it had exactly if
there are no overrides or it is not a stray one, and a property that one override sets has what is
read of it, which is nothing if it sets the absent value. -/
theorem get_merged_iff (hp : p.IsRead) (h : p.merged o = .ok q) :
    (∀ name, (∀ e ∈ o, ¬ SameProperty e.1 name) →
      (q.get name = p.get name ↔ o = [] ∨ ¬ p.Stray name)) ∧
    ∀ e ∈ o, (∀ f ∈ o, SameProperty f.1 e.1 → f = e) →
      ∃ r, decode (.record [e]) = .ok r ∧ q.get e.1 = r.get e.1 ∧
        (e.2 = .null → r.get e.1 = .null) := by
  refine ⟨fun name unset => ?_, fun e he only => get_merged_of_set hp h he only⟩
  by_cases none : o = []
  · rw [none, merged_nil] at h
    cases h
    exact iff_of_true rfl (.inl none)
  · rw [get_merged_of_unset hp none h unset, or_iff_right none]

theorem get_merged_iff_expanded :
    let p : WidgetProperties := { width := some (.int 5), extras := [("note", .text "wide")] }
    let q : WidgetProperties :=
      { width := some (.int 5), isExpanded := some true, extras := [("note", .null)] }
    let o : Fields := [("is_expanded", .bool true), ("note", .null)]
    p.IsRead ∧ p.merged o = .ok q ∧ q.get "width" = p.get "width" ∧
      ∃ r, decode (.record [("is_expanded", .bool true)]) = .ok r ∧
        q.get "is_expanded" = r.get "is_expanded" := by
  have read : IsRead { width := some (.int 5), extras := [("note", .text "wide")] } :=
    ⟨[("width", .number (.int 5)), ("note", .text "wide")], by decide, rfl⟩
  have merged : merged { width := some (.int 5), extras := [("note", .text "wide")] }
      [("is_expanded", .bool true), ("note", .null)] =
        .ok { width := some (.int 5), isExpanded := some true, extras := [("note", .null)] } := rfl
  obtain ⟨others, own⟩ := get_merged_iff read merged
  have once : ∀ f ∈ ([("is_expanded", .bool true), ("note", .null)] : Fields),
      SameProperty f.1 "is_expanded" → f = (("is_expanded" : Text), Value.bool true) :=
    List.forall_mem_cons.2 ⟨fun _ => rfl, List.forall_mem_singleton.2 fun h => absurd h (by decide)⟩
  obtain ⟨r, alone, same, -⟩ := own ("is_expanded", .bool true) List.mem_cons_self once
  refine ⟨read, merged, (others "width" (by decide)).2 (.inr ?_), r, alone, same⟩
  rintro ⟨absent, -⟩
  cases absent

/-- An absent property whose second spelling came with a value takes this value as soon as any other
property is overridden. -/
theorem get_merged_stray :
    let p : WidgetProperties := { extras := [("icon_data", .text "star")] }
    let q : WidgetProperties := { width := some (.int 5), iconData := some "star" }
    decode (.record [("iconData", .null), ("icon_data", .text "star")]) = .ok p ∧
      p.merged [("width", .number (.int 5))] = .ok q ∧
      ¬ SameProperty "width" "iconData" ∧ q.get "iconData" ≠ p.get "iconData" := by
  refine ⟨rfl, rfl, by decide, fun same => ?_⟩
  cases same

end WidgetProperties

end DesignTree
