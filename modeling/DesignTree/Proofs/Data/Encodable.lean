import DesignTree.Data.Encodable

/-! # Encodable values stay as they are

A map or a value without a type that has once gone into a document goes into it unchanged the next
time: its names hold no surrogates any more, and its numbers are finite.
-/

namespace DesignTree

namespace Entries

variable {α : Type}

theorem toEncodable_of_encodable {es : Entries α} (h : ∀ e ∈ es, e.1.hasSurrogate = false) :
    es.toEncodable = es := by
  have none : (es.any fun e => e.1.hasSurrogate) = false := by
    rw [List.any_eq_false]
    intro e he
    rw [h e he]
    exact Bool.false_ne_true
  rw [toEncodable, none]
  rfl

/-- The entries that go into a document have names that can be encoded, and values of the map. -/
theorem of_mem_toEncodable {es : Entries α} {e : Text × α} (he : e ∈ es.toEncodable) :
    e.1.hasSurrogate = false ∧ ∃ f ∈ es, e.2 = f.2 := by
  have fold (items done : Entries α)
      (hd : ∀ e ∈ done, e.1.hasSurrogate = false ∧ ∃ f ∈ es, e.2 = f.2)
      (hs : ∀ f ∈ items, f ∈ es) :
      ∀ e ∈ items.foldl (fun (done : Entries α) e => done.set e.1.toEncodable e.2) done,
        e.1.hasSurrogate = false ∧ ∃ f ∈ es, e.2 = f.2 := by
    induction items generalizing done with
    | nil => exact hd
    | cons item rest ih =>
      rw [List.foldl_cons]
      refine ih _ (fun e he => ?_) fun f hf => hs f (List.mem_cons_of_mem _ hf)
      rcases eq_or_mem_of_mem_set he with rfl | hm
      · exact ⟨Text.hasSurrogate_toEncodable _, item, hs item List.mem_cons_self, rfl⟩
      · exact hd e hm
  unfold toEncodable at he
  split at he
  · exact fold es [] (by simp) (fun f hf => hf) e he
  · next h =>
    have encodable := List.any_eq_false.1 (Bool.eq_false_iff.2 h) e he
    exact ⟨Bool.eq_false_iff.2 encodable, e, he, rfl⟩

theorem toEncodable_toEncodable (es : Entries α) : es.toEncodable.toEncodable = es.toEncodable :=
  toEncodable_of_encodable fun _ he => (of_mem_toEncodable he).1

end Entries

namespace Value

theorem encodableFields_of_encodable {fs : List (Text × Value)}
    (h : ∀ e ∈ fs, e.2.toEncodable = e.2) : encodableFields fs = fs := by
  induction fs with
  | nil => rfl
  | cons e rest ih =>
    obtain ⟨name, v⟩ := e
    rw [encodableFields, h (name, v) List.mem_cons_self,
      ih fun e he => h e (List.mem_cons_of_mem _ he)]

mutual

/-- A value without a type goes into a document unchanged the next time. -/
theorem toEncodable_toEncodable (v : Value) : v.toEncodable.toEncodable = v.toEncodable := by
  cases v with
  | null => rfl
  | bool b => rfl
  | number n =>
    cases n with
    | int i => rfl
    | float x => cases x <;> rfl
  | text s => rfl
  | list items => rw [toEncodable, toEncodable, encodableItems_encodableItems items]
  | record fs =>
    have values : ∀ e ∈ Entries.toEncodable (encodableFields fs), e.2.toEncodable = e.2 := by
      intro e he
      obtain ⟨-, f, hf, same⟩ := Entries.of_mem_toEncodable he
      rw [same]
      exact toEncodable_of_mem_encodableFields fs f hf
    rw [toEncodable, toEncodable, encodableFields_of_encodable values,
      Entries.toEncodable_toEncodable]

theorem encodableItems_encodableItems (vs : List Value) :
    encodableItems (encodableItems vs) = encodableItems vs := by
  cases vs with
  | nil => rfl
  | cons v rest =>
    rw [encodableItems, encodableItems, toEncodable_toEncodable v,
      encodableItems_encodableItems rest]

theorem toEncodable_of_mem_encodableFields (fs : List (Text × Value)) :
    ∀ e ∈ encodableFields fs, e.2.toEncodable = e.2 := by
  cases fs with
  | nil => simp [encodableFields]
  | cons f rest =>
    obtain ⟨name, v⟩ := f
    intro e he
    rcases List.mem_cons.1 he with rfl | hr
    · exact toEncodable_toEncodable v
    · exact toEncodable_of_mem_encodableFields rest e hr

end

end Value

end DesignTree
