import DesignTree.Decode.Scalar

/-! # Records by their slots

A slot is a field that a record can have, with its value if the field is there. A record that is
written slot by slot (`Fields.ofSlots`) shows each of its slots to a reader that looks for it by its
two spellings (`shows_ofSlots`), as long as no slot is spelled like another one. So a model is read
back from what is written of it as soon as its slots are: `ReadsBack` says of a single kind of
value what reading makes of what was written.
-/

namespace DesignTree

/-- A field that a record can have, and its value if it is there. -/
abbrev FieldSlot := Key × Option Value

/-- No field is spelled like another one: the first spellings differ, and the second spelling of a
field is its first one or nobody's. -/
def Key.Separate (ks : List Key) : Prop :=
  (ks.map (·.camel)).Nodup ∧ ∀ k ∈ ks, k.snake = k.camel ∨ k.snake ∉ ks.map (·.camel)

@[simp]
theorem Key.camel_word (name : Text) : (Key.word name).camel = name := rfl

@[simp]
theorem Key.snake_word (name : Text) : (Key.word name).snake = name := rfl

namespace Entries

variable {α : Type}

theorem get?_append (es fs : Entries α) (name : Text) :
    get? (es ++ fs) name = (es.get? name).or (fs.get? name) := by
  induction es with
  | nil => rfl
  | cons e rest ih =>
    obtain ⟨k, v⟩ := e
    rw [List.cons_append, get?, get?, ih]
    split <;> rfl

end Entries

namespace Fields

/-- The record with the values of slots, in their order. -/
def ofSlots (slots : List FieldSlot) : Fields :=
  slots.flatMap fun e => optionalField e.1.camel id e.2

/-- Slots that a reader finds in a record: each under its first spelling, or not at all. -/
def Shows (fs : Fields) (slots : List FieldSlot) : Prop :=
  ∀ e ∈ slots, e.1.find? fs = e.2.map fun v => (e.1.camel, v)

theorem shows_append {fs : Fields} {slots others : List FieldSlot} :
    fs.Shows (slots ++ others) ↔ fs.Shows slots ∧ fs.Shows others :=
  List.forall_mem_append

theorem shows_cons {fs : Fields} {e : FieldSlot} {rest : List FieldSlot} :
    fs.Shows (e :: rest) ↔ e.1.find? fs = (e.2.map fun v => (e.1.camel, v)) ∧ fs.Shows rest :=
  List.forall_mem_cons

@[simp]
theorem optionalField_some {α : Type} (name : Text) (f : α → Value) (a : α) :
    optionalField name f (some a) = [(name, f a)] := rfl

@[simp]
theorem optionalField_map {α : Type} (name : Text) (f : α → Value) (o : Option α) :
    optionalField name id (o.map f) = optionalField name f o := by
  cases o <;> rfl

theorem ofSlots_cons (e : FieldSlot) (rest : List FieldSlot) :
    ofSlots (e :: rest) = optionalField e.1.camel id e.2 ++ ofSlots rest := rfl

theorem ofSlots_append (slots others : List FieldSlot) :
    ofSlots (slots ++ others) = ofSlots slots ++ ofSlots others :=
  List.flatMap_append

theorem get?_optionalField (k name : Text) (o : Option Value) :
    Entries.get? (optionalField k id o) name = if k = name then o else none := by
  cases o with
  | none => simp [optionalField]
  | some v => simp [optionalField, Entries.get?]

theorem get?_ofSlots_of_notMem {slots : List FieldSlot} {name : Text}
    (h : name ∉ slots.map (·.1.camel)) : (ofSlots slots).get? name = none := by
  induction slots with
  | nil => rfl
  | cons e rest ih =>
    rw [List.map_cons, List.mem_cons, not_or] at h
    rw [ofSlots_cons, Entries.get?_append, get?_optionalField, if_neg (Ne.symm h.1), ih h.2]
    rfl

theorem get?_ofSlots {slots : List FieldSlot} (h : (slots.map (·.1.camel)).Nodup) {e : FieldSlot}
    (he : e ∈ slots) : (ofSlots slots).get? e.1.camel = e.2 := by
  induction slots with
  | nil => exact absurd he List.not_mem_nil
  | cons first rest ih =>
    rw [List.map_cons, List.nodup_cons] at h
    rw [ofSlots_cons, Entries.get?_append, get?_optionalField]
    rcases List.mem_cons.1 he with rfl | hr
    · rw [if_pos rfl, get?_ofSlots_of_notMem h.1, Option.or_none]
    · have differ : first.1.camel ≠ e.1.camel := by
        intro same
        refine h.1 ?_
        rw [same]
        exact List.mem_map_of_mem hr
      rw [if_neg differ, ih h.2 hr, Option.none_or]

/-- A record that is written slot by slot shows its slots. -/
theorem shows_ofSlots {slots : List FieldSlot} (h : Key.Separate (slots.map (·.1))) :
    (ofSlots slots).Shows slots := by
  obtain ⟨camels, snakes⟩ := h
  rw [List.map_map] at camels snakes
  intro e he
  have found := get?_ofSlots camels he
  unfold Key.find?
  rw [found]
  cases hv : e.2 with
  | some v => rfl
  | none =>
    have absent : (ofSlots slots).get? e.1.snake = none := by
      rcases snakes e.1 (List.mem_map_of_mem he) with same | new
      · rw [same, found, hv]
      · exact get?_ofSlots_of_notMem new
    rw [absent]
    rfl

/-- A field of one word that is shown stands under this word. -/
theorem get?_of_shown {fs : Fields} {name : Text} {v : Value}
    (h : (Key.word name).find? fs = (some v).map fun v => (name, v)) : fs.get? name = some v := by
  unfold Key.find? Key.word at h
  cases hv : fs.get? name with
  | none =>
    rw [hv] at h
    cases h
  | some w =>
    rw [hv] at h
    cases h
    rfl

end Fields

/-! ## Reading back -/

/-- A list is read back if its items are. -/
theorem Decoded.list_of_forall {α β : Type} {toValue : α → Value} {read : Value → Decoded β}
    {norm : α → β} {as : List α} (h : ∀ a ∈ as, read (toValue a) = .ok (norm a)) :
    Decoded.list read (.list (as.map toValue)) = .ok (as.map norm) := by
  have items (i : Nat) : Decoded.items read i (as.map toValue) = .ok (as.map norm) := by
    induction as generalizing i with
    | nil => rfl
    | cons a rest ih =>
      rw [List.map_cons, Decoded.items, h a List.mem_cons_self,
        ih fun b hb => h b (List.mem_cons_of_mem a hb)]
      rfl
  exact items 0

/-- Reading makes `norm a` of what is written of `a`, and what is written is never the absent
value. -/
structure ReadsBack {α β : Type} (toValue : α → Value) (read : Value → Decoded β) (norm : α → β) :
    Prop where
  read : ∀ a, read (toValue a) = .ok (norm a)
  present : ∀ a, (toValue a).isNull = false

namespace Fields

variable {α β : Type} {fs : Fields} {k : Key} {toValue : α → Value} {read : Value → Decoded β}
  {norm : α → β}

theorem required_of_read {v : Value} {b : β} (hr : read v = .ok b)
    (h : k.find? fs = (some v).map fun v => (k.camel, v)) : fs.required k read = .ok b := by
  unfold required
  rw [h, Option.map_some]
  simp only [hr, Decoded.under_ok]

theorem orElse_of_read {v : Value} {b : β} (default : β) (hr : read v = .ok b)
    (h : k.find? fs = (some v).map fun v => (k.camel, v)) : fs.orElse k default read = .ok b := by
  unfold orElse
  rw [h, Option.map_some]
  simp only [hr, Decoded.under_ok]

theorem required_of_shown (c : ReadsBack toValue read norm) {a : α}
    (h : k.find? fs = (some (toValue a)).map fun v => (k.camel, v)) :
    fs.required k read = .ok (norm a) :=
  required_of_read (c.read a) h

theorem orElse_of_shown (c : ReadsBack toValue read norm) (default : β) {a : α}
    (h : k.find? fs = (some (toValue a)).map fun v => (k.camel, v)) :
    fs.orElse k default read = .ok (norm a) :=
  orElse_of_read default (c.read a) h

theorem optional_of_shown (c : ReadsBack toValue read norm) {o : Option α}
    (h : k.find? fs = (o.map toValue).map fun v => (k.camel, v)) :
    fs.optional k read = .ok (o.map norm) := by
  unfold optional orElse
  rw [h]
  cases o with
  | none => rfl
  | some a =>
    have nullable : Decoded.nullable read (toValue a) = .ok (some (norm a)) := by
      have present := c.present a
      unfold Decoded.nullable
      split
      · next hn =>
        rw [hn] at present
        cases present
      · rw [c.read, Decoded.map_ok]
    simp only [Option.map_some, nullable, Decoded.under_ok]

end Fields

namespace ReadsBack

variable {α β : Type} {toValue : α → Value} {read : Value → Decoded β} {norm : α → β}

theorem text : ReadsBack .text Decoded.text id := ⟨fun _ => rfl, fun _ => rfl⟩

theorem bool : ReadsBack .bool Decoded.bool id := ⟨fun _ => rfl, fun _ => rfl⟩

theorem int : ReadsBack (fun n => .number (.int n)) Decoded.int id := ⟨fun _ => rfl, fun _ => rfl⟩

theorem double : ReadsBack .ofDouble Decoded.double id := ⟨fun _ => rfl, fun _ => rfl⟩

/-- Members of a vocabulary are read back if their spellings are. -/
theorem spelled [Spelled α] (h : ∀ a : α, Decoded.spelled (.ofSpelled a) = .ok a) :
    ReadsBack .ofSpelled (Decoded.spelled (α := α)) id := ⟨h, fun _ => rfl⟩

/-- A model is read back if reading needs no more of a record than the slots that are written. -/
theorem record {model : Text} {read : Fields → Decoded β} (keys : List Key)
    (slots : α → List FieldSlot) (hk : Key.Separate keys) (hs : ∀ a, (slots a).map (·.1) = keys)
    (write : ∀ a, toValue a = .record (Fields.ofSlots (slots a)))
    (h : ∀ a fs, fs.Shows (slots a) → read fs = .ok (norm a)) :
    ReadsBack toValue (Decoded.record model read) norm := by
  refine ⟨fun a => ?_, fun a => ?_⟩
  · rw [write]
    exact h a _ (Fields.shows_ofSlots (hs a ▸ hk))
  · rw [write]
    rfl

theorem list (c : ReadsBack toValue read norm) :
    ReadsBack (fun as => .list (as.map toValue)) (Decoded.list read) (List.map norm) :=
  ⟨fun _ => Decoded.list_of_forall fun a _ => c.read a, fun _ => rfl⟩

end ReadsBack

end DesignTree
