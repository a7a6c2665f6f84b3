import DesignTree.Proofs.Data.Grouping
import DesignTree.Proofs.Variant.Matrix

/-! # Values as they are first seen

A property matrix is filled value by value. What comes of it can be told without the steps: the
properties stand as they first come, each with those of its values that are not the same as an
earlier one (`PropertyMatrix.values_collect`). So the properties that vary, and their values, are
read off the list of all scalar values of a reusable widget (`Definition.values_ofDefinition`).
-/

namespace DesignTree

/-! ## Lists of values -/

namespace Scalar

/-- The values of a list that are not the same as an earlier one. -/
def firstSeen (l : List Scalar) : List Scalar := l.eraseDupsBy same

/-- A further value is first seen unless one that is the same has been. -/
theorem firstSeen_append_singleton (l : List Scalar) (s : Scalar) :
    firstSeen (l ++ [s]) = PropertyMatrix.insertNew (firstSeen l) s := by
  -- The loop holds what it has seen in reverse, and tests against it from the other side.
  have loop (l seen : List Scalar) : List.eraseDupsBy.loop same (l ++ [s]) seen =
      PropertyMatrix.insertNew (List.eraseDupsBy.loop same l seen) s := by
    induction l generalizing seen with
    | nil =>
      have met : (seen.reverse.any fun t => t.same s) = seen.any (s.same ·) := by
        rw [List.any_reverse]
        exact congrArg seen.any (funext fun t => same_comm t s)
      rw [List.nil_append, List.eraseDupsBy.loop, List.eraseDupsBy.loop, PropertyMatrix.insertNew,
        met]
      cases seen.any (s.same ·) with
      | true => rfl
      | false => exact List.reverse_cons
    | cons t rest ih =>
      rw [List.cons_append, List.eraseDupsBy.loop, List.eraseDupsBy.loop]
      cases seen.any (t.same ·) with
      | true => exact ih seen
      | false => exact ih (t :: seen)
  exact loop l []

theorem mem_of_mem_firstSeen {l : List Scalar} {s : Scalar} (h : s ∈ firstSeen l) : s ∈ l := by
  induction l using List.reverseRecOn with
  | nil => exact h
  | append_singleton l t ih =>
    rw [firstSeen_append_singleton, PropertyMatrix.insertNew] at h
    rw [List.mem_append]
    split at h
    · exact .inl (ih h)
    · exact (List.mem_append.1 h).imp_left ih

/-- Each value is first seen, or is the same as one that is. -/
theorem mem_or_same_firstSeen {l : List Scalar} {s : Scalar} (h : s ∈ l) :
    s ∈ firstSeen l ∨ ∃ t ∈ firstSeen l, t.same s = true := by
  induction l using List.reverseRecOn with
  | nil => exact absurd h List.not_mem_nil
  | append_singleton l t ih =>
    rw [firstSeen_append_singleton]
    rcases List.mem_append.1 h with h | h
    · refine (ih h).imp (fun first => PropertyMatrix.mem_insertNew first t) ?_
      rintro ⟨u, hu, same⟩
      exact ⟨u, PropertyMatrix.mem_insertNew hu t, same⟩
    · obtain rfl := List.mem_singleton.1 h
      exact PropertyMatrix.mem_or_same_insertNew _ s

/-- No two first-seen values are the same. -/
theorem pairwise_firstSeen (l : List Scalar) :
    (firstSeen l).Pairwise fun a b => a.same b = false := by
  induction l using List.reverseRecOn with
  | nil => exact List.Pairwise.nil
  | append_singleton l s ih =>
    rw [firstSeen_append_singleton, PropertyMatrix.insertNew]
    split
    · exact ih
    · next fresh =>
      rw [List.any_eq_true] at fresh
      refine List.pairwise_append.2 ⟨ih, List.pairwise_singleton _ _, fun a ha b hb => ?_⟩
      rw [List.mem_singleton.1 hb]
      exact Bool.eq_false_iff.2 fun same => fresh ⟨a, ha, same⟩

end Scalar

/-! ## Matrices -/

/-- The values that are listed for a property. -/
def Configuration.listed (c : Configuration) (key : Text) : List Scalar :=
  (c.filter fun e => e.1 = key).map (·.2)

theorem Configuration.listed_append_singleton (c : Configuration) (e : Text × Scalar) (key : Text) :
    listed (c ++ [e]) key = if e.1 = key then c.listed key ++ [e.2] else c.listed key := by
  unfold listed
  by_cases h : e.1 = key <;> simp [h]

namespace PropertyMatrix

/-- Adds a scalar value of a property. -/
def put (m : PropertyMatrix) (e : Text × Scalar) : PropertyMatrix :=
  ⟨m.values.set e.1 (insertNew ((m.values.get? e.1).getD []) e.2)⟩

/-- The matrix of a list of scalar values. -/
def collect (c : Configuration) : PropertyMatrix := c.foldl put {}

theorem addAll_eq (m : PropertyMatrix) (fs : Fields) :
    m.addAll fs = (Configuration.ofFields fs).foldl put m := by
  rw [Configuration.ofFields, List.foldl_filterMap, addAll]
  refine congrArg (fun f => fs.foldl f m) (funext fun m => funext fun e => ?_)
  rw [add]
  cases Scalar.ofValue? e.2 <;> rfl

theorem collect_append_singleton (c : Configuration) (e : Text × Scalar) :
    collect (c ++ [e]) = (collect c).put e := List.foldl_append

theorem keys_collect (c : Configuration) : (collect c).values.keys = c.keys.eraseDups := by
  induction c using List.reverseRecOn with
  | nil => rfl
  | append_singleton c e ih =>
    have keys : Entries.keys (c ++ [e]) = Entries.keys c ++ [e.1] := List.map_append
    rw [collect_append_singleton, put, Entries.keys_set, ih, keys, eraseDups_append_singleton]
    simp only [List.mem_eraseDups]

theorem getD_get?_collect (c : Configuration) (key : Text) :
    ((collect c).values.get? key).getD [] = Scalar.firstSeen (c.listed key) := by
  induction c using List.reverseRecOn with
  | nil => rfl
  | append_singleton c e ih =>
    rw [collect_append_singleton, put, Configuration.listed_append_singleton]
    by_cases h : e.1 = key
    · subst h
      rw [if_pos rfl, Entries.get?_set_self, Option.getD_some, ih,
        Scalar.firstSeen_append_singleton]
    · rw [if_neg h, Entries.get?_set_of_ne _ (Ne.symm h), ih]

/-- Properties stand as they first come, each with its first-seen values. -/
theorem values_collect (c : Configuration) :
    (collect c).values =
      c.keys.eraseDups.map fun key => (key, Scalar.firstSeen (c.listed key)) := by
  have distinct : (collect c).values.keys.Nodup := by
    rw [keys_collect]
    exact nodup_eraseDups _
  rw [Entries.eq_map_getD distinct [], keys_collect]
  simp only [getD_get?_collect]

end PropertyMatrix

/-! ## Reusable widgets -/

namespace Definition

/-- The scalar values of the properties of a reusable widget: its own, and then those of its
recorded variations. -/
def scalars (d : Definition) : Configuration :=
  Configuration.ofFields d.widget.properties.interchange ++
    d.variants.flatMap fun v => Configuration.ofFields v.properties

/-- The distinct values that a property takes, as they are first seen. -/
def valuesOf (d : Definition) (key : Text) : List Scalar := Scalar.firstSeen (d.scalars.listed key)

/-- The properties that take two values at least, as they are first seen. -/
def varyingKeys (d : Definition) : List Text :=
  d.scalars.keys.eraseDups.filter fun key => 2 ≤ (d.valuesOf key).length

theorem collected_eq (d : Definition) : d.collected = PropertyMatrix.collect d.scalars := by
  rw [PropertyMatrix.collect, scalars, List.foldl_append, List.foldl_flatMap,
    ← PropertyMatrix.addAll_eq, collected]
  simp only [PropertyMatrix.addAll_eq]

/-- The matrix of a reusable widget has the properties that vary, each with its values. -/
theorem values_ofDefinition (d : Definition) :
    (PropertyMatrix.ofDefinition d).values =
      d.varyingKeys.map fun key => (key, d.valuesOf key) := by
  change d.collected.values.filter (fun e => 1 < e.2.length) = _
  rw [collected_eq, PropertyMatrix.values_collect, List.filter_map]
  rfl

theorem nodup_varyingKeys (d : Definition) : d.varyingKeys.Nodup := (nodup_eraseDups _).filter _

end Definition

end DesignTree
