import DesignTree.Decode.Basic
import Mathlib.Data.List.Forall2
import Mathlib.Data.List.Nodup
import Mathlib.Data.List.Pairwise

/-! # The two spellings of a field

A record in which some fields are named in their second spelling in place of the first one
(`Fields.Renames`) has under every key what it had (`Renames.find?_eq_of_pair`), as long as no two
keys have a spelling in common. So what is read from the fields of a record is read from the renamed
record too (`Decoded.Keeps`), and the fields that no key names are left over as they were
(`Renames.filter_unnamed`).
-/

namespace DesignTree

theorem Entries.get?_eq_none {α : Type} {es : Entries α} {name : Text} (h : name ∉ es.keys) :
    es.get? name = none := by
  by_contra found
  obtain ⟨v, hv⟩ := Option.ne_none_iff_exists'.1 found
  exact h (List.mem_map_of_mem (Entries.mem_of_get? hv))

/-! ## Names of keys -/

namespace Key

/-- A name is one of the two spellings of a key. -/
abbrev Names (k : Key) (name : Text) : Prop := name = k.camel ∨ name = k.snake

/-- The spellings of a key, each of them once. -/
def spellings (k : Key) : List Text := if k.camel = k.snake then [k.camel] else [k.camel, k.snake]

/-- No two keys have a spelling in common. -/
def Apart (ks : List Key) : Prop := (ks.flatMap spellings).Nodup

theorem mem_spellings {k : Key} {name : Text} : name ∈ k.spellings ↔ k.Names name := by
  unfold spellings
  split
  · next h => simp [Names, ← h]
  · simp [Names]

/-- A name belongs to one key at most. -/
theorem Apart.eq_of_names {ks : List Key} (apart : Apart ks) {k k' : Key} (hk : k ∈ ks)
    (hk' : k' ∈ ks) {name : Text} (h : k.Names name) (h' : k'.Names name) : k = k' := by
  obtain ⟨-, disjoint⟩ := List.nodup_flatMap.1 apart
  have : Std.Symm (Function.onFun List.Disjoint spellings) := ⟨fun _ _ hd _ hn hn' => hd hn' hn⟩
  by_contra differ
  exact disjoint.forall hk hk' differ (mem_spellings.2 h) (mem_spellings.2 h')

theorem names_of_find? {k : Key} {fs : Fields} {e : Text × Value} (h : k.find? fs = some e) :
    k.Names e.1 ∧ e ∈ fs := by
  unfold find? at h
  split at h
  · next hv =>
    cases h
    exact ⟨.inl rfl, Entries.mem_of_get? hv⟩
  · obtain ⟨v, hv, rfl⟩ := Option.map_eq_some_iff.1 h
    exact ⟨.inr rfl, Entries.mem_of_get? hv⟩

theorem find?_word (name : Text) (fs : Fields) :
    (word name).find? fs = (fs.get? name).map ((name, ·)) := by
  simp only [find?, word]
  cases fs.get? name <;> rfl

theorem find?_eq_none {k : Key} {fs : Fields} (h : ∀ e ∈ fs, ¬ k.Names e.1) :
    k.find? fs = none := by
  by_contra found
  obtain ⟨e, he⟩ := Option.ne_none_iff_exists'.1 found
  obtain ⟨hn, hm⟩ := names_of_find? he
  exact h e hm hn

/-- The record has at most one of the two spellings. -/
def SpelledOnce (k : Key) (fs : Fields) : Prop :=
  k.camel ∈ fs.keys → k.snake ∈ fs.keys → k.camel = k.snake

instance (k : Key) (fs : Fields) : Decidable (k.SpelledOnce fs) :=
  inferInstanceAs (Decidable (_ → _ → _))

/-- Names of one key in such a record are the same. -/
theorem SpelledOnce.eq_of_names {k : Key} {fs : Fields} (once : k.SpelledOnce fs) {n n' : Text}
    (hm : n ∈ fs.keys) (hn : k.Names n) (hm' : n' ∈ fs.keys) (hn' : k.Names n') : n = n' := by
  rcases hn with rfl | rfl <;> rcases hn' with rfl | rfl
  · rfl
  · exact once hm hm'
  · exact (once hm' hm).symm
  · rfl

/-- A field that is spelled once is found under its key. -/
theorem SpelledOnce.find?_eq_some {k : Key} {fs : Fields} (once : k.SpelledOnce fs)
    (nodup : fs.keys.Nodup) {e : Text × Value} (he : e ∈ fs) (hn : k.Names e.1) :
    k.find? fs = some e := by
  have present := Entries.get?_of_mem nodup he
  have underCamel (hc : e.1 = k.camel) : k.find? fs = some e := by
    rw [hc] at present
    rw [find?, present, ← hc]
  rcases hn with hc | hs
  · exact underCamel hc
  · cases hv : fs.get? k.camel with
    | some v =>
      have camel : k.camel ∈ fs.keys := List.mem_map_of_mem (Entries.mem_of_get? hv)
      have snake : k.snake ∈ fs.keys := hs ▸ List.mem_map_of_mem he
      exact underCamel (hs.trans (once camel snake).symm)
    | none =>
      rw [hs] at present
      rw [find?, hv, present, ← hs]
      rfl

/-- Two records have related values under a key, or neither of them has one. -/
def Relates (k : Key) (R : Value → Value → Prop) (fs gs : Fields) : Prop :=
  Option.Rel (fun a b => R a.2 b.2) (k.find? fs) (k.find? gs)

theorem Relates.map_eq {k : Key} {fs gs : Fields} (h : k.Relates Eq fs gs) :
    (k.find? gs).map (·.2) = (k.find? fs).map (·.2) := by
  unfold Relates at h
  generalize k.find? fs = a, k.find? gs = b at h
  cases h with
  | none => rfl
  | some same => exact congrArg some same.symm

end Key

namespace Fields

/-- The second record is the first one with some fields of the given keys in their second spelling.
Nothing else has changed but the values under these keys, and no field is there twice. -/
structure Renames (ks : List Key) (fs gs : Fields) : Prop where
  length : fs.length = gs.length
  name : ∀ p ∈ fs.zip gs, p.2.1 = p.1.1 ∨ ∃ k ∈ ks, p.1.1 = k.camel ∧ p.2.1 = k.snake
  rest : ∀ p ∈ fs.zip gs, (∀ k ∈ ks, ¬ k.Names p.1.1) → p.2 = p.1
  nodup : gs.keys.Nodup
  once : ∀ k ∈ ks, k.SpelledOnce gs

namespace Renames

variable {ks : List Key} {fs gs : Fields}

/-- Where every field has a key there is no rest. -/
theorem of_named (length : fs.length = gs.length)
    (name : ∀ p ∈ fs.zip gs, p.2.1 = p.1.1 ∨ ∃ k ∈ ks, p.1.1 = k.camel ∧ p.2.1 = k.snake)
    (named : ∀ p ∈ fs.zip gs, ∃ k ∈ ks, k.Names p.1.1) (nodup : gs.keys.Nodup)
    (once : ∀ k ∈ ks, k.SpelledOnce gs) : Renames ks fs gs := by
  refine ⟨length, name, fun p hp unnamed => ?_, nodup, once⟩
  obtain ⟨k, hk, hn⟩ := named p hp
  exact absurd hn (unnamed k hk)

theorem names_iff (h : Renames ks fs gs) (apart : Key.Apart ks) {k : Key} (hk : k ∈ ks)
    {p : (Text × Value) × (Text × Value)} (hp : p ∈ fs.zip gs) :
    k.Names p.1.1 ↔ k.Names p.2.1 := by
  rcases h.name p hp with same | ⟨k', hk', camel, snake⟩
  · rw [same]
  · constructor
    · intro hn
      rw [apart.eq_of_names hk hk' hn (.inl camel)]
      exact .inr snake
    · intro hn
      rw [apart.eq_of_names hk hk' hn (.inr snake)]
      exact .inl camel

theorem map_fst_zip (h : Renames ks fs gs) : (fs.zip gs).map Prod.fst = fs :=
  List.map_fst_zip (Nat.le_of_eq h.length)

theorem map_snd_zip (h : Renames ks fs gs) : (fs.zip gs).map Prod.snd = gs :=
  List.map_snd_zip (Nat.le_of_eq h.length.symm)

theorem exists_pair_right (h : Renames ks fs gs) {e : Text × Value} (he : e ∈ gs) :
    ∃ p ∈ fs.zip gs, p.2 = e := by
  rwa [← h.map_snd_zip, List.mem_map] at he

theorem exists_pair (h : Renames ks fs gs) {name : Text} (hn : name ∈ fs.keys) :
    ∃ p ∈ fs.zip gs, p.1.1 = name := by
  obtain ⟨e, he, rfl⟩ := List.mem_map.1 hn
  rw [← h.map_fst_zip, List.mem_map] at he
  obtain ⟨p, hp, rfl⟩ := he
  exact ⟨p, hp, rfl⟩

/-- The names of the renamed record tell the places of both records apart. -/
theorem nodup_places (h : Renames ks fs gs) : ((fs.zip gs).map fun p => p.2.1).Nodup := by
  have names : (Entries.keys ((fs.zip gs).map Prod.snd)).Nodup := h.map_snd_zip.symm ▸ h.nodup
  rwa [Entries.keys, List.map_map] at names

/-- A key has one place at most. -/
theorem eq_of_names (h : Renames ks fs gs) (apart : Key.Apart ks) {k : Key} (hk : k ∈ ks)
    {p q : (Text × Value) × (Text × Value)} (hp : p ∈ fs.zip gs) (hq : q ∈ fs.zip gs)
    (hpn : k.Names p.1.1) (hqn : k.Names q.1.1) : p = q := by
  have left : p.2.1 ∈ gs.keys := List.mem_map_of_mem (List.of_mem_zip hp).2
  have right : q.2.1 ∈ gs.keys := List.mem_map_of_mem (List.of_mem_zip hq).2
  have same : p.2.1 = q.2.1 := (h.once k hk).eq_of_names left ((h.names_iff apart hk hp).1 hpn)
    right ((h.names_iff apart hk hq).1 hqn)
  exact List.inj_on_of_nodup_map h.nodup_places hp hq same

/-- A field that stands in its first spelling stood so before. -/
theorem camel_left (h : Renames ks fs gs) (apart : Key.Apart ks) {k : Key} (hk : k ∈ ks)
    {p : (Text × Value) × (Text × Value)} (hp : p ∈ fs.zip gs) (hc : p.2.1 = k.camel) :
    p.1.1 = k.camel := by
  rcases h.name p hp with same | ⟨k', hk', camel, snake⟩
  · rw [← same, hc]
  · rw [camel, apart.eq_of_names hk' hk (.inr snake) (.inl hc)]

/-- No field was there twice before. -/
theorem spelledOnce (h : Renames ks fs gs) (apart : Key.Apart ks) {k : Key} (hk : k ∈ ks) :
    k.SpelledOnce fs := by
  intro camel snake
  obtain ⟨p, hp, hpc⟩ := h.exists_pair camel
  obtain ⟨q, hq, hqs⟩ := h.exists_pair snake
  rw [← hpc, ← hqs, h.eq_of_names apart hk hp hq (.inl hpc) (.inr hqs)]

/-- The names of the record differed from each other before. -/
theorem nodup_left (h : Renames ks fs gs) (apart : Key.Apart ks) : fs.keys.Nodup := by
  have distinct : ∀ p ∈ fs.zip gs, ∀ q ∈ fs.zip gs, p.1.1 = q.1.1 → p = q := by
    intro p hp q hq same
    by_cases named : ∃ k ∈ ks, k.Names p.1.1
    · obtain ⟨k, hk, hn⟩ := named
      exact h.eq_of_names apart hk hp hq hn (same ▸ hn)
    · have unnamed : ∀ k ∈ ks, ¬ k.Names p.1.1 := fun k hk hn => named ⟨k, hk, hn⟩
      have stays : p.2.1 = q.2.1 := by
        rw [h.rest p hp unnamed, h.rest q hq (same ▸ unnamed), same]
      exact List.inj_on_of_nodup_map h.nodup_places hp hq stays
  have names : Entries.keys ((fs.zip gs).map Prod.fst) = fs.keys :=
    congrArg Entries.keys h.map_fst_zip
  rw [← names, Entries.keys, List.map_map]
  exact List.Nodup.map_on (fun p hp q hq same => distinct p hp q hq same) (.of_map _ h.nodup_places)

/-- What stands in one place of both records under a key is what both have under it. -/
theorem find?_eq_of_pair (h : Renames ks fs gs) (apart : Key.Apart ks) {k : Key} (hk : k ∈ ks)
    {p : (Text × Value) × (Text × Value)} (hp : p ∈ fs.zip gs) (hn : k.Names p.1.1) :
    k.find? fs = some p.1 ∧ k.find? gs = some p.2 := by
  obtain ⟨left, right⟩ := List.of_mem_zip hp
  exact ⟨(h.spelledOnce apart hk).find?_eq_some (h.nodup_left apart) left hn,
    (h.once k hk).find?_eq_some h.nodup right ((h.names_iff apart hk hp).1 hn)⟩

/-- Values that are related in every place of a key are related under the key. -/
theorem relates (h : Renames ks fs gs) (apart : Key.Apart ks) {k : Key} (hk : k ∈ ks)
    {R : Value → Value → Prop} (values : ∀ p ∈ fs.zip gs, k.Names p.1.1 → R p.1.2 p.2.2) :
    k.Relates R fs gs := by
  by_cases present : ∃ p ∈ fs.zip gs, k.Names p.1.1
  · obtain ⟨p, hp, hn⟩ := present
    obtain ⟨left, right⟩ := h.find?_eq_of_pair apart hk hp hn
    rw [Key.Relates, left, right]
    exact .some (values p hp hn)
  · have left : k.find? fs = none := by
      refine Key.find?_eq_none fun e he hn => ?_
      obtain ⟨p, hp, hpn⟩ := h.exists_pair (List.mem_map_of_mem he)
      exact present ⟨p, hp, hpn ▸ hn⟩
    have right : k.find? gs = none := by
      refine Key.find?_eq_none fun e he hn => ?_
      obtain ⟨p, hp, rfl⟩ := h.exists_pair_right he
      exact present ⟨p, hp, (h.names_iff apart hk hp).2 hn⟩
    rw [Key.Relates, left, right]
    exact .none

/-- A value that does not go from the first spelling to the second one stays under the first. -/
theorem get?_camel (h : Renames ks fs gs) (apart : Key.Apart ks) {k : Key} (hk : k ∈ ks)
    (values : ∀ p ∈ fs.zip gs, k.Names p.1.1 → p.1.2 = p.2.2)
    (stays : k.camel ∈ fs.keys → k.snake ∉ gs.keys) : gs.get? k.camel = fs.get? k.camel := by
  by_cases camel : k.camel ∈ fs.keys
  · obtain ⟨p, hp, hc⟩ := h.exists_pair camel
    obtain ⟨left, right⟩ := List.of_mem_zip hp
    have hc' : p.2.1 = k.camel := by
      rcases (h.names_iff apart hk hp).1 (.inl hc) with same | snake
      · exact same
      · exact absurd (snake ▸ List.mem_map_of_mem right) (stays camel)
    have before := Entries.get?_of_mem (h.nodup_left apart) left
    have after := Entries.get?_of_mem h.nodup right
    rw [hc] at before
    rw [hc'] at after
    rw [before, after, values p hp (.inl hc)]
  · have after : k.camel ∉ gs.keys := by
      intro hm
      obtain ⟨e, he, hc⟩ := List.mem_map.1 hm
      obtain ⟨p, hp, rfl⟩ := h.exists_pair_right he
      exact camel (h.camel_left apart hk hp hc ▸ List.mem_map_of_mem (List.of_mem_zip hp).1)
    rw [Entries.get?_eq_none camel, Entries.get?_eq_none after]

/-- The fields that no key names are the same in both records. -/
theorem filter_unnamed (h : Renames ks fs gs) (apart : Key.Apart ks) :
    gs.filter (fun e => ∀ k ∈ ks, ¬ k.Names e.1) = fs.filter fun e => ∀ k ∈ ks, ¬ k.Names e.1 := by
  have agree : ∀ p ∈ fs.zip gs, (∀ k ∈ ks, ¬ k.Names p.2.1) ↔ ∀ k ∈ ks, ¬ k.Names p.1.1 := by
    intro p hp
    exact forall₂_congr fun k hk => not_congr (h.names_iff apart hk hp).symm
  calc gs.filter (fun e => ∀ k ∈ ks, ¬ k.Names e.1)
      = ((fs.zip gs).filter fun p => ∀ k ∈ ks, ¬ k.Names p.2.1).map Prod.snd := by
        conv_lhs => rw [← h.map_snd_zip, List.filter_map]
        rfl
    _ = ((fs.zip gs).filter fun p => ∀ k ∈ ks, ¬ k.Names p.1.1).map Prod.snd := by
        rw [List.filter_congr fun p hp => decide_eq_decide.2 (agree p hp)]
    _ = ((fs.zip gs).filter fun p => ∀ k ∈ ks, ¬ k.Names p.1.1).map Prod.fst := by
        refine List.map_congr_left fun p hp => ?_
        obtain ⟨hz, unnamed⟩ := List.mem_filter.1 hp
        exact h.rest p hz (of_decide_eq_true unnamed)
    _ = fs.filter fun e => ∀ k ∈ ks, ¬ k.Names e.1 := by
        conv_rhs => rw [← h.map_fst_zip, List.filter_map]
        rfl

end Renames

end Fields

/-! ## Readings that keep what was read -/

namespace Decoded

variable {α β : Type}

/-- What the first reading gives the second one gives too. -/
def Keeps (a b : Decoded α) : Prop := ∀ x, a = .ok x → b = .ok x

theorem nullable_of_ne {read : Value → Decoded α} {v : Value} (h : v ≠ .null) :
    Decoded.nullable read v = some <$> read v := by
  cases v with
  | null => exact absurd rfl h
  | _ => rfl

namespace Keeps

theorem rfl {a : Decoded α} : a.Keeps a := fun _ h => h

theorem map {a b : Decoded α} (f : α → β) (h : a.Keeps b) : (f <$> a).Keeps (f <$> b) := by
  intro y hy
  obtain ⟨x, hx, rfl⟩ := map_eq_ok_iff.1 hy
  exact map_eq_ok_iff.2 ⟨x, h x hx, Eq.refl _⟩

theorem seq {f g : Decoded (α → β)} {a b : Decoded α} (hf : f.Keeps g) (ha : a.Keeps b) :
    (f <*> a).Keeps (g <*> b) := by
  intro y hy
  obtain ⟨r, x, hr, hx, rfl⟩ := seq_eq_ok_iff.1 hy
  exact seq_eq_ok_iff.2 ⟨r, x, hf r hr, ha x hx, Eq.refl _⟩

theorem under {a b : Decoded α} (part part' : Text) (h : a.Keeps b) :
    (a.under part).Keeps (b.under part') :=
  fun x hx => under_eq_ok_iff.2 (h x (under_eq_ok_iff.1 hx))

/-- A reading that takes the absent value too keeps what it reads, if both values are absent or
neither of them is. -/
theorem nullable {read : Value → Decoded α} {v w : Value} (hn : v = .null ↔ w = .null)
    (h : (read v).Keeps (read w)) : (Decoded.nullable read v).Keeps (Decoded.nullable read w) := by
  by_cases hv : v = .null
  · rw [hv, hn.1 hv]
    exact .rfl
  · rw [nullable_of_ne hv, nullable_of_ne fun hw => hv (hn.2 hw)]
    exact h.map some

/-- The items of two lists are read alike if each item is. -/
theorem list {read : Value → Decoded α} {vs ws : List Value}
    (h : List.Forall₂ (fun v w => (read v).Keeps (read w)) vs ws) :
    (Decoded.list read (.list vs)).Keeps (Decoded.list read (.list ws)) := by
  have items (i : Nat) : (items read i vs).Keeps (items read i ws) := by
    induction h generalizing i with
    | nil => exact .rfl
    | cons first _ ih => exact ((first.under _ _).map _).seq (ih (i + 1))
  exact items 0

end Keeps

/-- A reading keeps what it reads along a relation of values. -/
def Respects (R : Value → Value → Prop) (read : Value → Decoded α) : Prop :=
  ∀ v w, R v w → (read v).Keeps (read w)

end Decoded

namespace Key.Relates

variable {α : Type} {k : Key} {R : Value → Value → Prop} {fs gs : Fields} {read : Value → Decoded α}

theorem required (h : k.Relates R fs gs) (hr : Decoded.Respects R read) :
    (fs.required k read).Keeps (gs.required k read) := by
  unfold Key.Relates at h
  unfold Fields.required
  generalize k.find? fs = a, k.find? gs = b at h
  cases h with
  | none => exact .rfl
  | some related => exact (hr _ _ related).under _ _

theorem orElse (h : k.Relates R fs gs) (default : α) (hr : Decoded.Respects R read) :
    (fs.orElse k default read).Keeps (gs.orElse k default read) := by
  unfold Key.Relates at h
  unfold Fields.orElse
  generalize k.find? fs = a, k.find? gs = b at h
  cases h with
  | none => exact .rfl
  | some related => exact (hr _ _ related).under _ _

end Key.Relates

/-- What a field is read from is its value alone, whatever its spelling. -/
theorem Fields.orElse_eq_ok_iff {α : Type} {fs : Fields} {k : Key} {default : α}
    {read : Value → Decoded α} {a : α} : fs.orElse k default read = .ok a ↔
      ((k.find? fs).map (·.2) = none ∧ a = default) ∨
        ∃ v, (k.find? fs).map (·.2) = some v ∧ read v = .ok a := by
  unfold orElse
  cases k.find? fs with
  | none => simp [eq_comm]
  | some e => simp [Decoded.under_eq_ok_iff]

end DesignTree
