import DesignTree.Variant.Synthesis
import Mathlib.Data.List.Forall2

/-! # What a property matrix holds

The configurations of a matrix are all choices of one value for each property that varies
(`mem_choices_iff`), and `combinationCount` is their number. The matrix of a reusable widget has
each scalar value that a property takes, or one that is the same (`has_of_valueWith`). So a
recorded variation, with the widget's own values for what it leaves out, is one of the
configurations (`exists_shows`).
-/

namespace DesignTree

/-! ## Values that are the same -/

namespace Number

theorem alike_iff {a b : Number} :
    a.alike b = true ↔
      (a = .float (.notANumber true) ∧ b = .float (.notANumber true)) ∨ a.same b = true := by
  unfold alike
  split
  · simp
  · next h =>
    refine ⟨.inr, fun hab => hab.resolve_left ?_⟩
    rintro ⟨rfl, rfl⟩
    exact h rfl rfl

theorem same_notANumber (b : Number) (named : Bool) :
    same (.float (.notANumber named)) b = false := rfl

theorem alike_comm (a b : Number) : a.alike b = b.alike a := by
  rw [Bool.eq_iff_iff, alike_iff, alike_iff, same_comm, and_comm]

theorem alike_trans {a b c : Number} (h : a.alike b = true) (g : b.alike c = true) :
    a.alike c = true := by
  rw [alike_iff] at h g ⊢
  rcases h with ⟨rfl, rfl⟩ | h
  · exact .inl ⟨rfl, g.elim (·.2) fun hs => by simp [same_notANumber] at hs⟩
  · rcases g with ⟨rfl, rfl⟩ | g
    · rw [same_comm, same_notANumber] at h
      cases h
    · exact .inr (same_trans h g)

end Number

namespace Scalar

theorem same_comm (a b : Scalar) : a.same b = b.same a := by
  cases a <;> cases b <;> simp only [same, Number.alike_comm, Bool.beq_comm]

theorem same_trans {a b c : Scalar} (h : a.same b = true) (g : b.same c = true) :
    a.same c = true := by
  cases a <;> cases b <;> cases c <;> simp_all [same]
  exact Number.alike_trans h g

/-- Whether two values are both there and the same. -/
def agree (a b : Option Scalar) : Bool := a.any fun s => b.any s.same

theorem agree_iff {a b : Option Scalar} :
    agree a b = true ↔ ∃ s t, a = some s ∧ b = some t ∧ s.same t = true := by
  cases a <;> cases b <;> simp [agree]

theorem agree_comm (a b : Option Scalar) : agree a b = agree b a := by
  cases a <;> cases b <;> simp [agree, same_comm]

theorem agree_trans {a b c : Option Scalar} (h : agree a b = true) (g : agree b c = true) :
    agree a c = true := by
  obtain ⟨s, t, rfl, rfl, hst⟩ := agree_iff.1 h
  obtain ⟨_, u, ht, rfl, htu⟩ := agree_iff.1 g
  cases ht
  exact agree_iff.2 ⟨s, u, rfl, rfl, same_trans hst htu⟩

end Scalar

/-- What one item establishes and all items keep holds at the end of a fold over them. -/
theorem foldl_of_mem {α β : Type} {p : β → Prop} {f : β → α → β} {xs : List α} {x : α}
    (hx : x ∈ xs) (made : ∀ b, p (f b x)) (kept : ∀ b y, p b → p (f b y)) (b : β) :
    p (xs.foldl f b) := by
  induction xs generalizing b with
  | nil => exact absurd hx List.not_mem_nil
  | cons y rest ih =>
    rcases List.mem_cons.1 hx with rfl | hr
    · exact List.foldlRecOn rest f (made b) fun b hb y _ => kept b y hb
    · exact ih hr (f b y)

namespace PropertyMatrix

/-! ## Configurations -/

theorem mem_choices_iff {es : Entries (List Scalar)} {c : Configuration} :
    c ∈ choices es ↔ List.Forall₂ (fun e p => e.1 = p.1 ∧ e.2 ∈ p.2) c es := by
  induction es generalizing c with
  | nil => rw [choices, List.mem_singleton, List.forall₂_nil_right_iff]
  | cons p rest ih =>
    obtain ⟨key, values⟩ := p
    rw [choices, List.mem_flatMap, List.forall₂_cons_right_iff]
    simp only [List.mem_map]
    constructor
    · rintro ⟨v, hv, tail, ht, rfl⟩
      exact ⟨(key, v), tail, ⟨rfl, hv⟩, ih.1 ht, rfl⟩
    · rintro ⟨⟨_, v⟩, tail, ⟨rfl, hv⟩, ht, rfl⟩
      exact ⟨v, hv, tail, ih.2 ht, rfl⟩

theorem keys_of_mem_choices {es : Entries (List Scalar)} {c : Configuration}
    (h : c ∈ choices es) : c.keys = es.keys := by
  have chosen := mem_choices_iff.1 h
  clear h
  induction chosen with
  | nil => rfl
  | cons hp _ ih =>
    rw [Entries.keys, List.map_cons, hp.1]
    exact congrArg (List.cons _) ih

/-- Where each property has a value as wanted, there is a configuration of such values. -/
theorem exists_mem_choices {q : Text → Scalar → Prop} {es : Entries (List Scalar)}
    (h : ∀ p ∈ es, ∃ t ∈ p.2, q p.1 t) : ∃ c ∈ choices es, ∀ e ∈ c, q e.1 e.2 := by
  induction es with
  | nil => exact ⟨[], by simp [choices], by simp⟩
  | cons p rest ih =>
    obtain ⟨t, ht, hq⟩ := h p List.mem_cons_self
    obtain ⟨c, hc, hrest⟩ := ih fun p' hp' => h p' (List.mem_cons_of_mem p hp')
    refine ⟨(p.1, t) :: c, ?_, List.forall_mem_cons.2 ⟨hq, hrest⟩⟩
    exact mem_choices_iff.2 (.cons ⟨rfl, ht⟩ (mem_choices_iff.1 hc))

theorem foldl_length_choices (n : Nat) (es : Entries (List Scalar)) :
    es.foldl (fun n e => n * e.2.length) n = n * (choices es).length := by
  induction es generalizing n with
  | nil => simp [choices]
  | cons p rest ih => simp [choices, ih, Nat.mul_assoc, List.length_flatMap]

theorem length_combinations (m : PropertyMatrix) : m.combinations.length = m.combinationCount := by
  unfold combinations combinationCount
  split
  · rfl
  · rw [foldl_length_choices, Nat.one_mul]

/-- Within the limit all configurations are taken. -/
theorem leading_of_count_le {m : PropertyMatrix} {k : Nat} (h : m.combinationCount ≤ k) :
    m.leading k = m.combinations := by
  rw [leading_eq, List.take_of_length_le]
  rw [length_combinations]
  exact h

/-! ## Values -/

/-- A matrix has a value of a property, or one that is the same. -/
def Has (m : PropertyMatrix) (key : Text) (s : Scalar) : Prop :=
  ∃ values, m.values.get? key = some values ∧ ∃ t ∈ values, t.same s = true

variable {m : PropertyMatrix} {key : Text} {s : Scalar}

theorem mem_insertNew {seen : List Scalar} {t : Scalar} (h : t ∈ seen) (u : Scalar) :
    t ∈ insertNew seen u := by
  unfold insertNew
  split
  · exact h
  · exact List.mem_append_left _ h

theorem mem_or_same_insertNew (seen : List Scalar) (s : Scalar) :
    s ∈ insertNew seen s ∨ ∃ t ∈ insertNew seen s, t.same s = true := by
  unfold insertNew
  split
  · next h => exact .inr (by simpa using h)
  · exact .inl (by simp)

theorem exists_same_insertNew (seen : List Scalar) (hs : s.same s = true) :
    ∃ t ∈ insertNew seen s, t.same s = true :=
  (mem_or_same_insertNew seen s).elim (fun own => ⟨s, own, hs⟩) id

theorem Has.add (h : m.Has key s) (name : Text) (v : Value) : (m.add name v).Has key s := by
  obtain ⟨values, hg, t, ht, hs⟩ := h
  unfold PropertyMatrix.add
  split
  · next u _ =>
    by_cases hk : key = name
    · subst hk
      refine ⟨_, Entries.get?_set_self _ _ _, t, ?_, hs⟩
      rw [hg]
      exact mem_insertNew ht u
    · refine ⟨values, ?_, t, ht, hs⟩
      rw [Entries.get?_set_of_ne _ hk, hg]
  · exact ⟨values, hg, t, ht, hs⟩

theorem has_add (m : PropertyMatrix) (key : Text) {v : Value} (hv : Scalar.ofValue? v = some s)
    (hs : s.same s = true) : (m.add key v).Has key s := by
  rw [PropertyMatrix.add, hv]
  exact ⟨_, Entries.get?_set_self _ _ _, exists_same_insertNew _ hs⟩

theorem Has.addAll (h : m.Has key s) (fs : Fields) : (m.addAll fs).Has key s :=
  List.foldlRecOn (motive := fun m : PropertyMatrix => m.Has key s) fs _ h fun _ hm e _ =>
    Has.add hm e.1 e.2

theorem has_addAll (m : PropertyMatrix) {fs : Fields} {v : Value} (hf : (key, v) ∈ fs)
    (hv : Scalar.ofValue? v = some s) (hs : s.same s = true) : (m.addAll fs).Has key s :=
  foldl_of_mem (p := fun m : PropertyMatrix => m.Has key s) hf (fun m => has_add m key hv hs)
    (fun _ e hm => Has.add hm e.1 e.2) m

theorem nodup_keys_add (h : m.values.keys.Nodup) (name : Text) (v : Value) :
    (m.add name v).values.keys.Nodup := by
  unfold PropertyMatrix.add
  split
  · exact Entries.nodup_keys_set h _ _
  · exact h

theorem nodup_keys_addAll (h : m.values.keys.Nodup) (fs : Fields) :
    (m.addAll fs).values.keys.Nodup :=
  List.foldlRecOn (motive := fun m : PropertyMatrix => m.values.keys.Nodup) fs _ h fun _ hm e _ =>
    nodup_keys_add hm e.1 e.2

end PropertyMatrix

/-! ## The matrix of a reusable widget -/

namespace Configuration

theorem exists_of_get?_ofFields {fs : Fields} {key : Text} {s : Scalar}
    (h : Entries.get? (ofFields fs) key = some s) :
    ∃ v, (key, v) ∈ fs ∧ Scalar.ofValue? v = some s := by
  obtain ⟨e, he, hs⟩ := List.mem_filterMap.1 (Entries.mem_of_get? h)
  obtain ⟨t, ht, hk⟩ := Option.map_eq_some_iff.1 hs
  cases hk
  exact ⟨e.2, he, ht⟩

end Configuration

namespace Definition

/-- The scalar value of a property with a recorded variation on top of the widget's own values. -/
def valueWith (d : Definition) (v : RecordedVariant) (key : Text) : Option Scalar :=
  Entries.get? (Configuration.ofFields v.properties) key <|>
    Entries.get? (Configuration.ofFields d.widget.properties.interchange) key

/-- The properties that vary. -/
def varying (d : Definition) : List Text := (PropertyMatrix.ofDefinition d).keys

/-- A configuration has the values that a recorded variation gives. -/
def Shows (d : Definition) (v : RecordedVariant) (c : Configuration) : Prop :=
  ∀ e ∈ c, Scalar.agree (some e.2) (d.valueWith v e.1) = true

/-- All values of properties, those that do not vary included. -/
def collected (d : Definition) : PropertyMatrix :=
  d.variants.foldl (fun m v => m.addAll v.properties)
    (({} : PropertyMatrix).addAll d.widget.properties.interchange)

variable {d : Definition} {v : RecordedVariant}

theorem nodup_keys_collected (d : Definition) : d.collected.values.keys.Nodup :=
  List.foldlRecOn (motive := fun m : PropertyMatrix => m.values.keys.Nodup) d.variants _
    (PropertyMatrix.nodup_keys_addAll (m := {}) List.nodup_nil _) fun _ hm v _ =>
      PropertyMatrix.nodup_keys_addAll hm v.properties

/-- Each scalar value that a recorded variation gives to a property is collected. -/
theorem has_of_valueWith (hv : v ∈ d.variants) {key : Text} {s : Scalar}
    (h : d.valueWith v key = some s) (hs : s.same s = true) : d.collected.Has key s := by
  rw [valueWith, Option.orElse_eq_orElse, Option.orElse_eq_or, Option.or_eq_some_iff] at h
  unfold collected
  rcases h with hg | ⟨-, hg⟩
  · obtain ⟨value, hp, hvalue⟩ := Configuration.exists_of_get?_ofFields hg
    exact foldl_of_mem (p := fun m : PropertyMatrix => m.Has key s) hv
      (fun m => PropertyMatrix.has_addAll m hp hvalue hs)
      (fun _ u hm => PropertyMatrix.Has.addAll hm u.properties) _
  · obtain ⟨value, hp, hvalue⟩ := Configuration.exists_of_get?_ofFields hg
    have own := PropertyMatrix.has_addAll {} hp hvalue hs
    exact List.foldlRecOn (motive := fun m : PropertyMatrix => m.Has key s) d.variants _ own
      fun _ hm u _ => PropertyMatrix.Has.addAll hm u.properties

theorem keys_of_mem_combinations {c : Configuration}
    (h : c ∈ (PropertyMatrix.ofDefinition d).combinations) : c.keys = d.varying := by
  unfold PropertyMatrix.combinations at h
  split at h
  · exact absurd h List.not_mem_nil
  · exact PropertyMatrix.keys_of_mem_choices h

/-- A recorded variation that gives a value to each property that varies is shown by a
configuration. -/
theorem exists_shows (hv : v ∈ d.variants) (hm : d.varying ≠ [])
    (h : ∀ key ∈ d.varying, Scalar.agree (d.valueWith v key) (d.valueWith v key) = true) :
    ∃ c ∈ (PropertyMatrix.ofDefinition d).combinations, d.Shows v c := by
  have values : ∀ p ∈ (PropertyMatrix.ofDefinition d).values, ∃ t ∈ p.2,
      Scalar.agree (some t) (d.valueWith v p.1) = true := by
    intro p hp
    obtain ⟨s, t, hs, ht, hst⟩ := Scalar.agree_iff.1 (h p.1 (List.mem_map.2 ⟨p, hp, rfl⟩))
    obtain rfl : s = t := by simpa [hs] using ht
    obtain ⟨values, hg, u, hu, same⟩ := has_of_valueWith hv hs hst
    have found := Entries.get?_of_mem d.nodup_keys_collected (List.mem_filter.1 hp).1
    rw [hg, Option.some.injEq] at found
    exact ⟨u, found ▸ hu, Scalar.agree_iff.2 ⟨u, s, rfl, hs, same⟩⟩
  obtain ⟨c, hc, shows⟩ := PropertyMatrix.exists_mem_choices
    (q := fun key t => Scalar.agree (some t) (d.valueWith v key) = true) values
  refine ⟨c, ?_, shows⟩
  have vary : (PropertyMatrix.ofDefinition d).isEmpty = false := by
    rw [PropertyMatrix.isEmpty, List.isEmpty_eq_false_iff]
    intro he
    exact hm (by rw [varying, PropertyMatrix.keys, he]; rfl)
  rw [PropertyMatrix.combinations, vary]
  exact hc

end Definition

end DesignTree
