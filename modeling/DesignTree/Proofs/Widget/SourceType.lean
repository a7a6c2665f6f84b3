import DesignTree.Proofs.Widget.Spelling

/-! # Source types in either spelling

A widget of an unknown name keeps this name as its source type, unless it comes with a source type
in the first spelling; a source type in the second spelling is passed over. So a tree that is
spelled anew is always read, and it is read as the same tree exactly if no widget of an unknown name
has its source type spelled anew, or only one that is this name (`decode_of_respelled`).
-/

namespace DesignTree

theorem Entries.get?_setDefault_self {α : Type} (es : Entries α) (name : Text) (value : α) :
    (es.setDefault name value).get? name = some ((es.get? name).getD value) := by
  unfold setDefault has
  cases h : es.get? name with
  | none => simp [get?_set_self]
  | some v => simp [h]

theorem Entries.get?_setDefault_of_ne {α : Type} (es : Entries α) {name other : Text}
    (h : other ≠ name) (value : α) : (es.setDefault name value).get? other = es.get? other := by
  unfold setDefault
  split
  · rfl
  · exact get?_set_of_ne es h value

namespace Widget

/-! ## Children -/

theorem decodeItems_eq (i : Nat) (vs : List Value) :
    decodeItems i vs = Decoded.items decode i vs := by
  induction vs generalizing i with
  | nil => rfl
  | cons v rest ih => rw [decodeItems, Decoded.items, ih]

theorem decodeChildList_eq (v : Value) : decodeChildList v = Decoded.list decode v := by
  cases v with
  | list vs => exact decodeItems_eq 0 vs
  | _ => rfl

theorem decodeChildren_eq (fs : Fields) :
    decodeChildren fs = fs.orElse (.word "children") [] (Decoded.list decode) := by
  induction fs with
  | nil => rfl
  | cons e rest ih =>
    obtain ⟨name, v⟩ := e
    rw [decodeChildren]
    by_cases h : name = "children"
    · rw [if_pos h, decodeChildList_eq]
      simp [Fields.orElse, Key.find?, Entries.get?, Key.word, h]
    · rw [if_neg h, ih]
      simp [Fields.orElse, Key.find?, Entries.get?, Key.word, h]

/-! ## The name of the kind -/

/-- The source type in both spellings. -/
def sourceKey : Key := ⟨"sourceType", "source_type"⟩

/-- The fields name a kind that is not known. -/
def HasUnknownName (fs : Fields) (raw : Text) : Prop :=
  fs.get? "type" = some (.text raw) ∧ WidgetKind.resolve? raw = none

/-- The name that stands in place of the name of a kind. -/
def kindValue : Value → Value
  | .text raw => .ofSpelled ((WidgetKind.resolve? raw).getD .custom)
  | v => v

/-- Only the name of the kind and the source type change when the name is resolved. -/
theorem get?_resolveKind (fs : Fields) {name : Text} (ht : name ≠ "type")
    (hs : name ≠ "sourceType") : (resolveKind fs).get? name = fs.get? name := by
  unfold resolveKind
  split
  · split
    · rw [Entries.get?_setDefault_of_ne _ hs, Entries.get?_set_of_ne _ ht]
    · dsimp only
      split
      · rw [Entries.get?_setDefault_of_ne _ hs, Entries.get?_set_of_ne _ ht]
      · rw [Entries.get?_set_of_ne _ ht]
  · rfl

theorem get?_type_resolveKind (fs : Fields) :
    (resolveKind fs).get? "type" = (fs.get? "type").map kindValue := by
  have differ : ("type" : Text) ≠ "sourceType" := by simp [Text.ofString_inj]
  unfold resolveKind
  split
  · next raw ht =>
    rw [ht, Option.map_some, kindValue]
    split
    · next hr =>
      rw [Entries.get?_setDefault_of_ne _ differ, Entries.get?_set_self, hr]
      rfl
    · next kind hr =>
      dsimp only
      rw [hr]
      split
      · rw [Entries.get?_setDefault_of_ne _ differ, Entries.get?_set_self]
        rfl
      · rw [Entries.get?_set_self]
        rfl
  · next h =>
    cases ht : fs.get? "type" with
    | none => rfl
    | some v =>
      cases v with
      | text raw => exact absurd ht (h raw)
      | _ => rfl

/-- What the source type of a widget is read from, once its name is resolved. -/
def source? (fs : Fields) : Option Value := (sourceKey.find? (resolveKind fs)).map (·.2)

/-- A widget of an unknown name has its source type in the first spelling, or else this name. -/
theorem source?_of_unknown {fs : Fields} {raw : Text} (h : HasUnknownName fs raw) :
    source? fs = some ((fs.get? "sourceType").getD (.text raw)) := by
  have differ : ("sourceType" : Text) ≠ "type" := by simp [Text.ofString_inj]
  have found : (resolveKind fs).get? "sourceType" =
      some ((fs.get? "sourceType").getD (.text raw)) := by
    simp only [resolveKind, h.1, h.2]
    rw [Entries.get?_setDefault_self, Entries.get?_set_of_ne _ differ]
  simp only [source?, sourceKey, Key.find?, found, Option.map_some]

/-- A widget of a known name has its source type in either spelling, or else its name where that is
not the one of its kind. -/
theorem source?_of_known {fs : Fields} {raw : Text} {kind : WidgetKind}
    (ht : fs.get? "type" = some (.text raw)) (hk : WidgetKind.resolve? raw = some kind) :
    source? fs = ((sourceKey.find? fs).map (·.2)).or
      (if raw = spelling kind then none else some (.text raw)) := by
  have camelType : ("sourceType" : Text) ≠ "type" := by simp [Text.ofString_inj]
  have snakeType : ("source_type" : Text) ≠ "type" := by simp [Text.ofString_inj]
  simp only [source?, resolveKind, ht, hk]
  split
  · next added =>
    obtain ⟨differ, absent⟩ := added
    have snake : fs.get? "source_type" = none := by simpa [Entries.has] using absent
    simp only [if_neg differ, sourceKey, Key.find?, Entries.get?_setDefault_self,
      Entries.get?_set_of_ne _ camelType, snake]
    cases fs.get? "sourceType" <;> rfl
  · next kept =>
    simp only [sourceKey, Key.find?, Entries.get?_set_of_ne _ camelType,
      Entries.get?_set_of_ne _ snakeType]
    by_cases same : raw = spelling kind
    · rw [if_pos same, Option.or_none]
    · have present : (fs.get? "source_type").isSome := by
        simpa [same, Entries.has, Option.isSome_iff_ne_none] using kept
      obtain ⟨v, hv⟩ := Option.isSome_iff_exists.1 present
      rw [hv]
      cases fs.get? "sourceType" <;> rfl

theorem source?_of_unnamed {fs : Fields} (h : ∀ raw, fs.get? "type" ≠ some (.text raw)) :
    source? fs = (sourceKey.find? fs).map (·.2) := by
  unfold source? resolveKind
  split
  · next raw ht => exact absurd ht (h raw)
  · rfl

/-! ## Widgets spelled anew -/

/-- A source type of a widget of an unknown name that is spelled anew is this name. -/
def KeepsSource (fs gs : Fields) : Prop :=
  ∀ raw, HasUnknownName fs raw → sourceKey.camel ∈ fs.keys → sourceKey.snake ∈ gs.keys →
    fs.get? sourceKey.camel = some (.text raw)

section Fields

variable {fs gs : Fields}

theorem sourceKey_mem : sourceKey ∈ InputModel.widget.keys := by
  simp [InputModel.keys, InputModel.fields, sourceKey]

/-- Where no source type of a widget of an unknown name is spelled anew, it is read from the same
value. -/
theorem source?_eq (names : fs.Renames InputModel.widget.keys gs)
    (type : gs.get? "type" = fs.get? "type")
    (source : ∀ p ∈ fs.zip gs, sourceKey.Names p.1.1 → p.1.2 = p.2.2)
    (stays : ∀ raw, HasUnknownName fs raw → sourceKey.camel ∈ fs.keys → sourceKey.snake ∉ gs.keys) :
    source? gs = source? fs := by
  have same : sourceKey.Relates Eq fs gs :=
    names.relates InputModel.widget.apart sourceKey_mem source
  by_cases named : ∃ raw, fs.get? "type" = some (.text raw)
  · obtain ⟨raw, ht⟩ := named
    cases hk : WidgetKind.resolve? raw with
    | none =>
      have camel : gs.get? "sourceType" = fs.get? "sourceType" :=
        names.get?_camel InputModel.widget.apart sourceKey_mem source (stays raw ⟨ht, hk⟩)
      rw [source?_of_unknown ⟨ht, hk⟩, source?_of_unknown ⟨type.trans ht, hk⟩, camel]
    | some kind =>
      rw [source?_of_known ht hk, source?_of_known (type.trans ht) hk, same.map_eq]
  · have unnamed (raw : Text) : fs.get? "type" ≠ some (.text raw) := fun ht => named ⟨raw, ht⟩
    rw [source?_of_unnamed unnamed, source?_of_unnamed (type ▸ unnamed), same.map_eq]

/-- The source type of a widget of an unknown name that is spelled anew is passed over. -/
theorem source?_eq_name (names : fs.Renames InputModel.widget.keys gs)
    (type : gs.get? "type" = fs.get? "type") {raw : Text} (unknown : HasUnknownName fs raw)
    (snake : sourceKey.snake ∈ gs.keys) : source? gs = some (.text raw) := by
  have unknown' : HasUnknownName gs raw := ⟨type.trans unknown.1, unknown.2⟩
  have absent : gs.get? "sourceType" = none := by
    refine Entries.get?_eq_none fun camel => ?_
    have same := names.once sourceKey sourceKey_mem camel snake
    simp [sourceKey, Text.ofString_inj] at same
  rw [source?_of_unknown unknown', absent]
  rfl

theorem nullable_text_eq_ok_iff {v : Value} {source : Option Text} :
    Decoded.nullable .text v = .ok source ↔ v = .ofOption .text source := by
  cases source <;> cases v <;> simp [Decoded.nullable, Decoded.text, Decoded.fail, Value.ofOption,
    Decoded.map_eq_ok_iff]

theorem optional_sourceKey_eq_ok_iff {source : Option Text} :
    (resolveKind fs).optional sourceKey .text = .ok source ↔
      (source? fs).getD .null = .ofOption .text source := by
  rw [Fields.optional, Fields.orElse_eq_ok_iff, source?]
  simp only [nullable_text_eq_ok_iff]
  cases (sourceKey.find? (resolveKind fs)).map (·.2) with
  | none => cases source <;> simp [Value.ofOption]
  | some v => simp

/-- A source type that is passed over is missed exactly if it is not the name of the widget. -/
theorem name_eq_iff {raw : Text} (unknown : HasUnknownName fs raw) {v : Value}
    (camel : fs.get? sourceKey.camel = some v) {source : Option Text}
    (h : (source? fs).getD .null = .ofOption .text source) :
    some raw = source ↔ v = .text raw := by
  have found : source? fs = some v := by
    rw [source?_of_unknown unknown]
    exact congrArg (fun v => some (v.getD (.text raw))) camel
  rw [found, Option.getD_some] at h
  rw [h]
  cases source with
  | none => exact iff_of_false nofun nofun
  | some s => simp [Value.ofOption, eq_comm]

/-- The source type is read from either record, and both times it is the same exactly if it was
kept. -/
theorem exists_source (names : fs.Renames InputModel.widget.keys gs)
    (type : gs.get? "type" = fs.get? "type")
    (values : ∀ p ∈ fs.zip gs, sourceKey.Names p.1.1 → p.1.2 = p.2.2) {source : Option Text}
    (h : (resolveKind fs).optional sourceKey .text = .ok source) :
    ∃ source', (resolveKind gs).optional sourceKey .text = .ok source' ∧
      (source' = source ↔ KeepsSource fs gs) := by
  simp only [optional_sourceKey_eq_ok_iff] at h ⊢
  by_cases passed : ∃ raw, HasUnknownName fs raw ∧ sourceKey.camel ∈ fs.keys ∧
    sourceKey.snake ∈ gs.keys
  · obtain ⟨raw, unknown, camel, snake⟩ := passed
    -- the name is put under the first spelling, which is looked for before the second one
    have name := source?_eq_name names type unknown snake
    obtain ⟨e, he, hc⟩ := List.mem_map.1 camel
    have before : fs.get? sourceKey.camel = some e.2 :=
      hc ▸ Entries.get?_of_mem (names.nodup_left InputModel.widget.apart) he
    rw [name, Option.getD_some]
    refine ⟨some raw, rfl, (name_eq_iff unknown before h).trans ?_⟩
    rw [← Option.some_inj, ← before]
    constructor
    · rintro kept raw' unknown' - -
      rw [kept, ← unknown.1, unknown'.1]
    · exact fun keeps => keeps raw unknown camel snake
  · have same : source? gs = source? fs :=
      source?_eq names type values fun raw unknown camel snake =>
        passed ⟨raw, unknown, camel, snake⟩
    refine ⟨source, same ▸ h, iff_of_true rfl ?_⟩
    exact fun raw unknown camel snake => absurd ⟨raw, unknown, camel, snake⟩ passed

/-! ## Reading a widget from its fields -/

theorem ofFields_eq_ok_iff {children : Decoded (List Widget)} {w : Widget} :
    ofFields fs children = .ok w ↔
      fs.required (.word "id") .text = .ok w.id ∧
      fs.required (.word "type") .spelled = .ok w.kind ∧
      fs.optional sourceKey .text = .ok w.sourceType ∧
      fs.orElse (.word "properties") {} WidgetProperties.decode = .ok w.properties ∧
      children = .ok w.children ∧
      fs.orElse (.word "styling") {} Styling.decode = .ok w.styling ∧
      fs.optional (.word "layout") Layout.decode = .ok w.layout ∧
      fs.optional (.word "position") Position.decode = .ok w.position := by
  cases w
  simp only [ofFields, Decoded.seq_eq_ok_iff, Decoded.map_eq_ok_iff]
  constructor
  · rintro ⟨_, _, ⟨_, _, ⟨_, _, ⟨_, _, ⟨_, _, ⟨_, _, ⟨_, _, ⟨_, id, rfl⟩, kind, rfl⟩, source, rfl⟩,
      properties, rfl⟩, children, rfl⟩, styling, rfl⟩, layout, rfl⟩, position, same⟩
    cases same
    exact ⟨id, kind, source, properties, children, styling, layout, position⟩
  · rintro ⟨id, kind, source, properties, children, styling, layout, position⟩
    exact ⟨_, _, ⟨_, _, ⟨_, _, ⟨_, _, ⟨_, _, ⟨_, _, ⟨_, _, ⟨_, id, rfl⟩, kind, rfl⟩, source, rfl⟩,
      properties, rfl⟩, children, rfl⟩, styling, rfl⟩, layout, rfl⟩, position, rfl⟩

theorem decode_record (fs : Fields) : decode (.record fs) =
    ofFields (resolveKind fs) (fs.orElse (.word "children") [] (Decoded.list decode)) := by
  rw [decode, decodeChildren_eq]

/-- Fields besides the name of the kind and the source type are related as before when the names are
resolved. -/
theorem relates_resolveKind {k : Key} {R : Value → Value → Prop} (h : k.Relates R fs gs)
    (ht : ¬ k.Names "type") (hs : ¬ k.Names "sourceType") :
    k.Relates R (resolveKind fs) (resolveKind gs) := by
  have stays (fs : Fields) : k.find? (resolveKind fs) = k.find? fs := by
    have camel : (resolveKind fs).get? k.camel = fs.get? k.camel :=
      get?_resolveKind fs (fun same => ht (.inl same.symm)) fun same => hs (.inl same.symm)
    have snake : (resolveKind fs).get? k.snake = fs.get? k.snake :=
      get?_resolveKind fs (fun same => ht (.inr same.symm)) fun same => hs (.inr same.symm)
    rw [Key.find?, Key.find?, camel, snake]
  unfold Key.Relates at h ⊢
  rwa [stays, stays]

/-- The fields of a widget besides its children that stay when its name is resolved. -/
def stayingFields : List (Key × InputForm) := [
  (.word "id", .plain), (.word "properties", .model .properties),
  (.word "styling", .model .styling), (.word "layout", .model .layout),
  (.word "position", .model .position)]

theorem stayingFields_spec : ∀ e ∈ stayingFields, e ∈ InputModel.widget.fields ∧
    e.2.isPart = true ∧ ¬ e.1.Names "type" ∧ ¬ e.1.Names "sourceType" := by
  simp [stayingFields, InputModel.fields, InputForm.isPart, Key.word, Text.ofString_inj]

section Record

variable (names : fs.Renames InputModel.widget.keys gs)
  (values : ∀ p ∈ fs.zip gs, ∀ e ∈ InputModel.widget.fields, e.1.Names p.1.1 →
    Respelled e.2 p.1.2 p.2.2)
include names values

theorem relates_kept {e : Key × InputForm} (he : e ∈ InputModel.widget.fields)
    (part : e.2.isPart = true) : e.1.Relates e.2.Kept fs gs :=
  names.relates InputModel.widget.apart (List.mem_map_of_mem he)
    fun p hp hn => (values p hp e he hn).kept part

theorem stayingFields_relates : stayingFields.Forall fun e =>
    e.1.Relates e.2.Kept (resolveKind fs) (resolveKind gs) := by
  refine List.forall_iff_forall_mem.2 fun e he => ?_
  obtain ⟨mem, part, type, source⟩ := stayingFields_spec e he
  exact relates_resolveKind (relates_kept names values mem part) type source

theorem get?_type_eq : gs.get? "type" = fs.get? "type" := by
  have mem : (Key.word "type", InputForm.plain) ∈ InputModel.widget.fields := by
    simp [InputModel.fields]
  have same : (Key.word "type").Relates Eq fs gs :=
    names.relates InputModel.widget.apart (List.mem_map_of_mem mem)
      fun p hp hn => ((values p hp _ mem hn).kept rfl).eq
  simpa [Key.find?_word, Function.comp_def] using same.map_eq

/-- A widget is read from its fields in either spelling, and it is the same exactly if its source
type was kept and its children are the same. -/
theorem exists_decode_record {unchanged : Prop}
    (children : ∀ ws, fs.orElse (.word "children") [] (Decoded.list decode) = .ok ws →
      ∃ ws', gs.orElse (.word "children") [] (Decoded.list decode) = .ok ws' ∧
        (ws' = ws ↔ unchanged))
    {w : Widget} (h : decode (.record fs) = .ok w) :
    ∃ w', decode (.record gs) = .ok w' ∧ (w' = w ↔ KeepsSource fs gs ∧ unchanged) := by
  have type := get?_type_eq names values
  have source : (sourceKey, InputForm.plain) ∈ InputModel.widget.fields := by
    simp [InputModel.fields, sourceKey]
  rw [decode_record, ofFields_eq_ok_iff] at h
  obtain ⟨hid, hkind, hsource, hproperties, hchildren, hstyling, hlayout, hposition⟩ := h
  obtain ⟨id, properties, styling, layout, position⟩ := stayingFields_relates names values
  obtain ⟨source', hsource', sameSource⟩ := exists_source names type
    (fun p hp hn => ((values p hp _ source hn).kept rfl).eq) hsource
  obtain ⟨children', hchildren', sameChildren⟩ := children _ hchildren
  have hkind' : (resolveKind gs).required (.word "type") .spelled = .ok w.kind := by
    simpa only [Fields.required, Key.find?_word, get?_type_resolveKind, type] using hkind
  refine ⟨{ w with sourceType := source', children := children' }, ?_, ?_⟩
  · rw [decode_record, ofFields_eq_ok_iff]
    exact ⟨id.required (.plain _) _ hid, hkind', hsource',
      properties.orElse _ (.model .properties) _ hproperties, hchildren',
      styling.orElse _ (.model .styling) _ hstyling,
      layout.optional (.model .layout) _ hlayout,
      position.optional (.model .position) _ hposition⟩
  · rw [← sameSource, ← sameChildren]
    cases w
    simp

end Record

end Fields

/-! ## Trees spelled anew -/

/-- Of the fields of a widget only the children have widgets in them. -/
theorem isPart_or_children : ∀ e ∈ InputModel.widget.fields,
    e.2.isPart = true ∨ e = (.word "children", .models .widget) := by
  simp [InputModel.fields, InputForm.isPart]

end Widget

/-- What is read of a list whose items are read is the same exactly if all items are unchanged. -/
theorem Decoded.exists_list {α : Type} {read : Value → Decoded α} {Unchanged : Value → Value → Prop}
    {vs ws : List Value}
    (h : List.Forall₂ (fun v w => ∀ x, read v = .ok x →
      ∃ y, read w = .ok y ∧ (y = x ↔ Unchanged v w)) vs ws) :
    ∀ xs, Decoded.list read (.list vs) = .ok xs →
      ∃ ys, Decoded.list read (.list ws) = .ok ys ∧ (ys = xs ↔ List.Forall₂ Unchanged vs ws) := by
  have items (i : Nat) {xs : List α} (hx : Decoded.items read i vs = .ok xs) :
      ∃ ys, Decoded.items read i ws = .ok ys ∧ (ys = xs ↔ List.Forall₂ Unchanged vs ws) := by
    induction h generalizing i xs with
    | nil => exact ⟨xs, hx, iff_of_true rfl .nil⟩
    | cons first _ ih =>
      rw [Decoded.items, seq_eq_ok_iff] at hx
      obtain ⟨_, rest, hfirst, hrest, rfl⟩ := hx
      obtain ⟨x, hread, rfl⟩ := map_eq_ok_iff.1 hfirst
      obtain ⟨y, hy, same⟩ := first x (under_eq_ok_iff.1 hread)
      obtain ⟨ys, hys, sameRest⟩ := ih (i + 1) hrest
      refine ⟨y :: ys, ?_, ?_⟩
      · rw [Decoded.items, hy, hys]
        rfl
      · rw [List.cons.injEq, List.forall₂_cons, same, sameRest]
  exact fun _ => items 0

/-- What is read of a field that is read is the same exactly if its value is unchanged. -/
theorem Fields.Renames.exists_orElse {ks : List Key} {fs gs : Fields} (names : fs.Renames ks gs)
    (apart : Key.Apart ks) {k : Key} (hk : k ∈ ks) {α : Type} {read : Value → Decoded α}
    {default : α} {Unchanged : Value → Value → Prop}
    (values : ∀ p ∈ fs.zip gs, k.Names p.1.1 → ∀ x, read p.1.2 = .ok x →
      ∃ y, read p.2.2 = .ok y ∧ (y = x ↔ Unchanged p.1.2 p.2.2))
    {x : α} (hx : fs.orElse k default read = .ok x) :
    ∃ y, gs.orElse k default read = .ok y ∧
      (y = x ↔ ∀ p ∈ fs.zip gs, k.Names p.1.1 → Unchanged p.1.2 p.2.2) := by
  unfold orElse at hx ⊢
  by_cases present : ∃ p ∈ fs.zip gs, k.Names p.1.1
  · obtain ⟨p, hp, hn⟩ := present
    obtain ⟨left, right⟩ := names.find?_eq_of_pair apart hk hp hn
    rw [left] at hx
    rw [right]
    obtain ⟨y, hy, same⟩ := values p hp hn x (Decoded.under_eq_ok_iff.1 hx)
    refine ⟨y, Decoded.under_eq_ok_iff.2 hy, same.trans ⟨fun unchanged q hq hqn => ?_, ?_⟩⟩
    · rwa [names.eq_of_names apart hk hq hp hqn hn]
    · exact fun unchanged => unchanged p hp hn
  · have absent : k.Relates (fun _ _ => False) fs gs :=
      names.relates apart hk fun p hp hn => present ⟨p, hp, hn⟩
    unfold Key.Relates at absent
    generalize k.find? fs = a, k.find? gs = b at absent hx ⊢
    cases absent with
    | none => exact ⟨x, hx, iff_of_true rfl fun p hp hn => absurd ⟨p, hp, hn⟩ present⟩
    | some never => exact never.elim

theorem RespelledIf.models_iff {condition : Fields → Fields → Prop} {m : InputModel}
    {vs ws : List Value} : RespelledIf condition (.models m) (.list vs) (.list ws) ↔
      List.Forall₂ (RespelledIf condition (.model m)) vs ws := by
  constructor
  · intro h
    cases h with
    | same => exact List.forall₂_same.2 fun v _ => .same _ v
    | list length items => exact List.forall₂_iff_zip.2 ⟨length, fun hp => items _ hp⟩
  · intro h
    exact .list h.length_eq fun p hp => (List.forall₂_iff_zip.1 h).2 hp

/-- A widget in another spelling is read if its children are, and the same widget is read exactly
if no source type of a widget of an unknown name is lost in the tree. -/
theorem Widget.exists_decode {fs gs : Fields} (names : fs.Renames InputModel.widget.keys gs)
    (values : ∀ p ∈ fs.zip gs, ∀ e ∈ InputModel.widget.fields, e.1.Names p.1.1 →
      Respelled e.2 p.1.2 p.2.2)
    (children : ∀ p ∈ fs.zip gs, (Key.word "children").Names p.1.1 →
      ∀ ws, Decoded.list decode p.1.2 = .ok ws → ∃ ws', Decoded.list decode p.2.2 = .ok ws' ∧
        (ws' = ws ↔ RespelledIf KeepsSource (.models .widget) p.1.2 p.2.2))
    {w : Widget} (h : decode (.record fs) = .ok w) :
    ∃ w', decode (.record gs) = .ok w' ∧
      (w' = w ↔ RespelledIf KeepsSource (.model .widget) (.record fs) (.record gs)) := by
  have mem : (Key.word "children", InputForm.models .widget) ∈ InputModel.widget.fields := by
    simp [InputModel.fields]
  obtain ⟨w', hw', same⟩ := exists_decode_record names values
    (fun _ => names.exists_orElse InputModel.widget.apart (List.mem_map_of_mem mem) children) h
  refine ⟨w', hw', ?_⟩
  constructor
  · intro hs
    obtain ⟨keeps, unchanged⟩ := same.1 hs
    refine .record names (fun p hp e he hn => ?_) fun _ => keeps
    rcases isPart_or_children e he with part | rfl
    · exact (values p hp e he hn).of_isPart part
    · exact unchanged p hp hn
  · intro respelled
    cases respelled with
    | same =>
      rw [h] at hw'
      cases hw'
      rfl
    | record _ values' keeps =>
      exact same.2 ⟨keeps rfl, fun p hp hn => values' p hp _ mem hn⟩

/-- A value in another spelling is read, and the same is read of it exactly if no source type of a
widget of an unknown name is lost. -/
theorem Respelled.exists_read {f : InputForm} {v w : Value} (h : Respelled f v w) :
    ∀ x, f.reading.read v = .ok x → ∃ y, f.reading.read w = .ok y ∧
      (y = x ↔ RespelledIf Widget.KeepsSource f v w) := by
  -- on the way down only the records of widgets can change what is read
  induction h with
  | same f v => exact fun x hx => ⟨x, hx, iff_of_true rfl (.same f v)⟩
  | @list m vs ws length items ih =>
    intro xs hxs
    obtain ⟨ys, hys, same⟩ := Decoded.exists_list
      (List.forall₂_iff_zip.2 ⟨length, fun hp => ih _ hp⟩) xs hxs
    exact ⟨ys, hys, same.trans RespelledIf.models_iff.symm⟩
  | @record m fs gs names values widget ih =>
    by_cases hm : m = .widget
    · subst hm
      have mem : (Key.word "children", InputForm.models .widget) ∈ InputModel.widget.fields := by
        simp [InputModel.fields]
      exact fun w hw => Widget.exists_decode names values (fun p hp hn => ih p hp _ mem hn) hw
    · intro x hx
      have part : (InputForm.model m).isPart = true := decide_eq_true hm
      have respelled : Respelled (.model m) (.record fs) (.record gs) := .record names values widget
      exact ⟨x, (respelled.kept part).read x hx, iff_of_true rfl (respelled.of_isPart part)⟩

/-- A tree in another spelling is read, and it is the same tree exactly if no widget of an unknown
name has its source type in the other spelling, or only one that is this name. -/
theorem Widget.decode_of_respelled {v v' : Value} {w : Widget} (h : decode v = .ok w)
    (respelled : Respelled (.model .widget) v v') :
    ∃ w', decode v' = .ok w' ∧ (w' = w ↔ RespelledIf KeepsSource (.model .widget) v v') :=
  respelled.exists_read w h

namespace Widget

/-- The fields of an expanded row, its expansion under some name. -/
def expandedRow (name : Text) : Fields :=
  [("id", .text "a"), ("type", .text "row"), ("properties", .record [(name, .bool true)])]

theorem respelled_expandedRow : Respelled (.model .widget) (.record (expandedRow "isExpanded"))
    (.record (expandedRow "is_expanded")) := by
  have outer : (expandedRow "isExpanded").Renames InputModel.widget.keys
      (expandedRow "is_expanded") :=
    .of_named (Eq.refl 3) (by decide +kernel) (by decide +kernel) (by decide +kernel)
      (by decide +kernel)
  have inner : Fields.Renames InputModel.properties.keys [("isExpanded", .bool true)]
      [("is_expanded", .bool true)] :=
    .of_named (Eq.refl 1) (by decide +kernel) (by decide +kernel) (by decide +kernel)
      (by decide +kernel)
  refine .record outer (fun p hp e he hn => ?_) fun _ => trivial
  simp only [expandedRow, List.zip_cons_cons, List.zip_nil_right, List.mem_cons, List.not_mem_nil,
    or_false] at hp
  rcases hp with rfl | rfl | rfl
  · exact .same _ _
  · exact .same _ _
  · have properties : e = (.word "properties", .model .properties) := by
      simp only [InputModel.fields, List.mem_cons, List.not_mem_nil, or_false] at he
      rcases he with rfl | rfl | rfl | rfl | rfl | rfl | rfl | rfl
      case inr.inr.inr.inl => rfl
      all_goals simp [Key.Names, Key.word, Text.ofString_inj] at hn
    subst properties
    refine .record inner (fun p hp e _ _ => ?_) fun _ => trivial
    rw [List.zip_cons_cons, List.zip_nil_right, List.mem_singleton] at hp
    subst hp
    exact .same _ _

theorem decode_of_respelled_expandedRow : ∃ w w',
    decode (.record (expandedRow "isExpanded")) = .ok w ∧
      decode (.record (expandedRow "is_expanded")) = .ok w' ∧
      (w' = w ↔ RespelledIf KeepsSource (.model .widget) (.record (expandedRow "isExpanded"))
        (.record (expandedRow "is_expanded"))) := by
  have read : (decode (.record (expandedRow "isExpanded"))).toOption.isSome := by decide +kernel
  cases h : decode (.record (expandedRow "isExpanded")) with
  | ok w =>
    obtain ⟨w', hw', same⟩ := decode_of_respelled h respelled_expandedRow
    exact ⟨w, w', rfl, hw', same⟩
  | failed issues =>
    rw [h] at read
    cases read

/-- The fields of a widget of an unknown name, its source type under some name. -/
def fancyBox (source : Text) : Fields :=
  [("id", .text "a"), ("type", .text "FancyBox"), (source, .text "Bar")]

/-- A source type in the second spelling is passed over for the name. -/
theorem fancyBox_passes_source :
    Respelled (.model .widget) (.record (fancyBox "sourceType"))
        (.record (fancyBox "source_type")) ∧
      (decode (.record (fancyBox "sourceType"))).toOption.map (·.sourceType) =
        some (some ("Bar" : Text)) ∧
      (decode (.record (fancyBox "source_type"))).toOption.map (·.sourceType) =
        some (some ("FancyBox" : Text)) := by
  refine ⟨?_, by decide +kernel, by decide +kernel⟩
  have names : (fancyBox "sourceType").Renames InputModel.widget.keys (fancyBox "source_type") :=
    .of_named (Eq.refl 3) (by decide +kernel) (by decide +kernel) (by decide +kernel)
      (by decide +kernel)
  refine .record names (fun p hp e _ _ => ?_) fun _ => trivial
  simp only [fancyBox, List.zip_cons_cons, List.zip_nil_right, List.mem_cons, List.not_mem_nil,
    or_false] at hp
  rcases hp with rfl | rfl | rfl <;> exact .same _ _

end Widget

end DesignTree
