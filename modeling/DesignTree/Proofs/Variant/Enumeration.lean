import DesignTree.Proofs.Variant.FirstSeen
import DesignTree.Proofs.Variant.Synthesis
import Mathlib.Algebra.GroupWithZero.Nat

/-! # The order of configurations

A choice of one value for each property that varies is named by the places of the values in their
lists, a pick. All picks can be listed in lexicographic order (`picks`, `pairwise_picks`), and the
configurations of a matrix are those of the picks in this order (`choices_eq_map_picks`). So the
variants that are made are those of the first picks, as many as the limit lets through
(`Synthesizer.variants_enumerate`).
-/

namespace DesignTree

/-! ## Picks -/

/-- All lists with an entry below each of some bounds, the first entry growing slowest. -/
def picks : List Nat → List (List Nat)
  | [] => [[]]
  | n :: rest => (List.range n).flatMap fun i => (picks rest).map (i :: ·)

theorem mem_picks_iff {bounds p : List Nat} :
    p ∈ picks bounds ↔ List.Forall₂ (· < ·) p bounds := by
  induction bounds generalizing p with
  | nil => rw [picks, List.mem_singleton, List.forall₂_nil_right_iff]
  | cons n rest ih =>
    rw [picks, List.mem_flatMap, List.forall₂_cons_right_iff]
    simp only [List.mem_range, List.mem_map]
    constructor
    · rintro ⟨i, hi, tail, ht, rfl⟩
      exact ⟨i, tail, hi, ih.1 ht, rfl⟩
    · rintro ⟨i, tail, hi, ht, rfl⟩
      exact ⟨i, hi, tail, ih.2 ht, rfl⟩

/-- Picks are listed in lexicographic order, each of them once. -/
theorem pairwise_picks (bounds : List Nat) : (picks bounds).Pairwise (· < ·) := by
  induction bounds with
  | nil => exact List.pairwise_singleton _ _
  | cons n rest ih =>
    rw [picks, List.pairwise_flatMap]
    constructor
    · intro i _
      rw [List.pairwise_map]
      exact ih.imp fun h => List.cons_lt_cons_iff.2 (.inr ⟨rfl, h⟩)
    · refine List.pairwise_lt_range.imp fun {i j} h p hp q hq => ?_
      obtain ⟨_, -, rfl⟩ := List.mem_map.1 hp
      obtain ⟨_, -, rfl⟩ := List.mem_map.1 hq
      exact List.cons_lt_cons_iff.2 (.inl h)

theorem length_picks (bounds : List Nat) : (picks bounds).length = bounds.prod := by
  induction bounds with
  | nil => rfl
  | cons n rest ih => simp [picks, List.length_flatMap, ih]

/-- What is left over of a list in order comes after what is taken of it. -/
theorem lt_of_mem_take {l : List (List Nat)} (h : l.Pairwise (· < ·)) {n : Nat} {p q : List Nat}
    (hp : p ∈ l.take n) (hq : q ∈ l) (late : q ∉ l.take n) : p < q := by
  rw [← List.take_append_drop n l] at h hq
  have left : q ∈ l.drop n := (List.mem_append.1 hq).resolve_left late
  exact (List.pairwise_append.1 h).2.2 p hp q left

/-! ## Configurations of picks -/

namespace Configuration

/-- Two configurations have a property with values that are not the same. -/
def Differ (a b : Configuration) : Prop :=
  ∃ key s t, Entries.get? a key = some s ∧ Entries.get? b key = some t ∧ s.same t = false

theorem Differ.of_mem {a b : Configuration} (ha : a.keys.Nodup) (hb : b.keys.Nodup)
    {key : Text} {s t : Scalar} (hs : (key, s) ∈ a) (ht : (key, t) ∈ b)
    (h : s.same t = false) : a.Differ b :=
  ⟨key, s, t, Entries.get?_of_mem ha hs, Entries.get?_of_mem hb ht, h⟩

end Configuration

namespace PropertyMatrix

/-- The configuration that a pick names, where properties have lists of values. -/
def picked (values : Text → List Scalar) (keys : List Text) (p : List Nat) : Configuration :=
  (keys.zip p).filterMap fun (key, i) => (values key)[i]?.map (key, ·)

/-- The numbers of values of properties. -/
def valueCounts (values : Text → List Scalar) (keys : List Text) : List Nat :=
  keys.map fun key => (values key).length

variable {values : Text → List Scalar} {keys : List Text} {p q : List Nat}

theorem picked_cons {key : Text} {i : Nat} (h : i < (values key).length) (p : List Nat) :
    picked values (key :: keys) (i :: p) = (key, (values key)[i]) :: picked values keys p := by
  rw [picked, List.zip_cons_cons, List.filterMap_cons_some]
  · rfl
  · simp [h]

/-- The choices of one value for each property are those of all picks, in order. -/
theorem choices_eq_map_picks (values : Text → List Scalar) (keys : List Text) :
    choices (keys.map fun key => (key, values key)) =
      (picks (valueCounts values keys)).map (picked values keys) := by
  induction keys with
  | nil => rfl
  | cons key rest ih =>
    -- The left side runs over values and the right side over places: both run over `Fin` here.
    have places : values key = (List.finRange (values key).length).map fun i => (values key)[i] :=
      (List.map_getElem_finRange _).symm
    have below : List.range (values key).length =
        (List.finRange (values key).length).map Fin.val :=
      (List.map_coe_finRange_eq_range).symm
    rw [valueCounts, List.map_cons, List.map_cons, choices, picks, ih, List.map_flatMap, below,
      List.flatMap_map]
    conv_lhs => rw [places, List.flatMap_map]
    refine List.flatMap_congr fun i _ => ?_
    rw [List.map_map, List.map_map]
    exact List.map_congr_left fun p _ => (picked_cons i.isLt p).symm

theorem keys_picked (hp : List.Forall₂ (· < ·) p (valueCounts values keys)) :
    (picked values keys p).keys = keys := by
  induction keys generalizing p with
  | nil => rfl
  | cons key rest ih =>
    obtain ⟨i, tail, hi, ht, rfl⟩ := List.forall₂_cons_right_iff.1 hp
    rw [picked_cons hi, Entries.keys, List.map_cons]
    exact congrArg (List.cons key) (ih ht)

/-- Of two values at different places of a list without repetition neither is the other one. -/
theorem same_eq_false_of_lt {l : List Scalar} (distinct : l.Pairwise fun s t => s.same t = false)
    {i j : Nat} (h : i < j) {s t : Scalar} (hs : l[i]? = some s) (ht : l[j]? = some t) :
    s.same t = false := by
  obtain ⟨hi, rfl⟩ := List.getElem?_eq_some_iff.1 hs
  obtain ⟨hj, rfl⟩ := List.getElem?_eq_some_iff.1 ht
  exact List.pairwise_iff_getElem.1 distinct i j hi hj h

/-- Of two picks in order, the later one has a later value of some property. -/
theorem exists_later_of_lt (hp : List.Forall₂ (· < ·) p (valueCounts values keys))
    (hq : List.Forall₂ (· < ·) q (valueCounts values keys)) (h : p < q) :
    ∃ key, ∃ i j : Nat, ∃ s t, i < j ∧ (values key)[i]? = some s ∧ (values key)[j]? = some t ∧
      (key, s) ∈ picked values keys p ∧ (key, t) ∈ picked values keys q := by
  induction keys generalizing p q with
  | nil =>
    rw [List.forall₂_nil_right_iff.1 hp, List.forall₂_nil_right_iff.1 hq] at h
    exact absurd h (List.lt_irrefl [])
  | cons key rest ih =>
    obtain ⟨i, tail, hi, ht, rfl⟩ := List.forall₂_cons_right_iff.1 hp
    obtain ⟨j, others, hj, ho, rfl⟩ := List.forall₂_cons_right_iff.1 hq
    rw [picked_cons hi, picked_cons hj]
    -- Either the first property tells the two apart, or a later one does.
    rcases List.cons_lt_cons_iff.1 h with lt | ⟨rfl, lt⟩
    · exact ⟨key, i, j, _, _, lt, List.getElem?_eq_getElem hi, List.getElem?_eq_getElem hj,
        List.mem_cons_self, List.mem_cons_self⟩
    · obtain ⟨other, k, l, s, t, hkl, hk, hl, hs, hqt⟩ := ih ht ho lt
      exact ⟨other, k, l, s, t, hkl, hk, hl, List.mem_cons_of_mem _ hs, List.mem_cons_of_mem _ hqt⟩

/-- Two picks differ at a property, and so do their configurations. -/
theorem exists_mem_picked (distinct : ∀ key, (values key).Pairwise fun s t => s.same t = false)
    (hp : List.Forall₂ (· < ·) p (valueCounts values keys))
    (hq : List.Forall₂ (· < ·) q (valueCounts values keys)) (h : p ≠ q) :
    ∃ key s t, (key, s) ∈ picked values keys p ∧ (key, t) ∈ picked values keys q ∧
      s.same t = false := by
  rcases List.le_total p q with le | le
  · obtain ⟨key, i, j, s, t, hij, hi, hj, hs, ht⟩ :=
      exists_later_of_lt hp hq ((List.le_iff_lt_or_eq.1 le).resolve_right h)
    exact ⟨key, s, t, hs, ht, same_eq_false_of_lt (distinct key) hij hi hj⟩
  · obtain ⟨key, i, j, s, t, hij, hi, hj, hs, ht⟩ :=
      exists_later_of_lt hq hp ((List.le_iff_lt_or_eq.1 le).resolve_right h.symm)
    refine ⟨key, t, s, ht, hs, ?_⟩
    rw [Scalar.same_comm]
    exact same_eq_false_of_lt (distinct key) hij hi hj

/-- The values of a configuration are among those that its properties have. -/
theorem mem_of_mem_picked {e : Text × Scalar} (h : e ∈ picked values keys p) :
    e.2 ∈ values e.1 := by
  obtain ⟨⟨key, i⟩, -, he⟩ := List.mem_filterMap.1 h
  obtain ⟨s, hs, rfl⟩ := Option.map_eq_some_iff.1 he
  exact List.mem_of_getElem? hs

end PropertyMatrix

/-! ## First configurations -/

namespace Definition

open PropertyMatrix

/-- A pick has the place of one of its values for each property that varies. -/
def IsPick (d : Definition) (p : List Nat) : Prop :=
  List.Forall₂ (· < ·) p (valueCounts d.valuesOf d.varyingKeys)

/-- The configuration that a pick names. -/
def configurationAt (d : Definition) (p : List Nat) : Configuration :=
  picked d.valuesOf d.varyingKeys p

/-- Variants have the first ones of all configurations of a reusable widget, up to a limit. -/
structure Enumerates (d : Definition) (limit : Nat) (vs : List ComponentVariant) : Prop where
  /-- The configurations are those of picks in lexicographic order, none of which is passed over. -/
  ordered : ∃ ps : List (List Nat), vs.map (·.properties) = ps.map d.configurationAt ∧
    ps.Pairwise (· < ·) ∧ (∀ p ∈ ps, d.IsPick p) ∧
    ∀ p ∈ ps, ∀ q, d.IsPick q → q ∉ ps → p < q
  /-- There are as many as there are picks, unless the limit cuts them down. -/
  length : vs.length = min limit (valueCounts d.valuesOf d.varyingKeys).prod
  distinct : vs.Pairwise fun v u => Configuration.Differ v.properties u.properties
  keys : ∀ v ∈ vs, v.properties.keys = d.varyingKeys

variable {d : Definition} {p q : List Nat}

theorem isEmpty_ofDefinition (d : Definition) :
    (PropertyMatrix.ofDefinition d).isEmpty = d.varyingKeys.isEmpty := by
  rw [PropertyMatrix.isEmpty, values_ofDefinition, List.isEmpty_map]

/-- All configurations are those of the picks. -/
theorem combinations_eq (h : d.varyingKeys ≠ []) :
    (PropertyMatrix.ofDefinition d).combinations =
      (picks (valueCounts d.valuesOf d.varyingKeys)).map d.configurationAt := by
  have vary : (PropertyMatrix.ofDefinition d).isEmpty = false := by
    rw [isEmpty_ofDefinition, List.isEmpty_eq_false_iff]
    exact h
  rw [combinations, vary, if_neg Bool.false_ne_true, values_ofDefinition, choices_eq_map_picks]
  rfl

theorem configurations_eq (h : d.varyingKeys ≠ []) (limit : Nat) :
    d.configurations limit =
      ((picks (valueCounts d.valuesOf d.varyingKeys)).take limit).map d.configurationAt := by
  rw [configurations, leading_eq, combinations_eq h, List.map_take]

theorem keys_configurationAt (h : d.IsPick p) : (d.configurationAt p).keys = d.varyingKeys :=
  keys_picked h

theorem differ_configurationAt (hp : d.IsPick p) (hq : d.IsPick q) (h : p ≠ q) :
    (d.configurationAt p).Differ (d.configurationAt q) := by
  have nodup {p : List Nat} (hp : d.IsPick p) : (d.configurationAt p).keys.Nodup := by
    rw [keys_configurationAt hp]
    exact d.nodup_varyingKeys
  obtain ⟨key, s, t, hs, ht, differ⟩ :=
    exists_mem_picked (fun _ => Scalar.pairwise_firstSeen _) hp hq h
  exact .of_mem (nodup hp) (nodup hq) hs ht differ

/-- Variants of the first configurations enumerate them. -/
theorem enumerates_of_properties {limit : Nat} {vs : List ComponentVariant}
    (h : d.varyingKeys ≠ []) (hvs : vs.map (·.properties) = d.configurations limit) :
    d.Enumerates limit vs := by
  let ps := (picks (valueCounts d.valuesOf d.varyingKeys)).take limit
  have valid : ∀ p ∈ ps, d.IsPick p := fun p hp => mem_picks_iff.1 (List.mem_of_mem_take hp)
  have ascending : ps.Pairwise (· < ·) := (pairwise_picks _).sublist (List.take_sublist _ _)
  rw [configurations_eq h] at hvs
  refine ⟨⟨ps, hvs, ascending, valid, fun p hp q hq late => ?_⟩, ?_, ?_, ?_⟩
  · exact lt_of_mem_take (pairwise_picks _) hp (mem_picks_iff.2 hq) late
  · rw [← length_picks, ← List.length_take, ← List.length_map (·.properties), hvs, List.length_map]
  · rw [← List.pairwise_map (f := ComponentVariant.properties) (R := Configuration.Differ), hvs,
      List.pairwise_map]
    refine ascending.imp_of_mem fun {p q} hp hq lt => ?_
    refine differ_configurationAt (valid p hp) (valid q hq) ?_
    rintro rfl
    exact List.lt_irrefl p lt
  · intro v hv
    have member : v.properties ∈ vs.map (·.properties) := List.mem_map.2 ⟨v, hv, rfl⟩
    rw [hvs] at member
    obtain ⟨p, hp, found⟩ := List.mem_map.1 member
    rw [← found]
    exact keys_configurationAt (valid p hp)

end Definition

/-! ## Limits -/

theorem Count.toNat_eq_ok_iff {c : Count} {n : Nat} : c.toNat = .ok n ↔ c.toNumber = .int n := by
  unfold toNat
  cases c.toNumber with
  | float x => simp
  | int i =>
    simp only [Number.int.injEq]
    split
    · rw [Except.ok.injEq]
      omega
    · simp only [reduceCtorEq, false_iff]
      omega

namespace Synthesizer

open InRun

variable {s : Synthesizer} {d : Definition} {run after : Run} {vs : List ComponentVariant}

/-- What a given limit comes to: its own number, or the greatest limit where it lies above that. -/
theorem limit_cases {given : Count} {n : Nat} (hl : limitOf given.toValue = .ok s.limit)
    (hn : s.limit.toNat = .ok n) :
    (given.toNumber = .int n ∧ n ≤ ceiling) ∨
      (Number.less (.int ceiling) given.toNumber = true ∧ n = ceiling) := by
  have least : given.min ceiling = s.limit := by
    cases given <;> exact Except.ok.inj hl
  have greatest : Count.toNumber ceiling = .int ceiling := rfl
  rw [← least, Count.toNat_eq_ok_iff, Count.min, greatest] at hn
  by_cases above : Number.less (.int ceiling) given.toNumber = true
  · rw [if_pos above] at hn
    have same : (ceiling : Int) = n := Number.int.inj hn
    exact .inr ⟨above, by omega⟩
  · rw [if_neg above] at hn
    rw [hn, Number.less_int, decide_eq_true_eq] at above
    exact .inl ⟨hn, by omega⟩

/-! ## The variants of a widget -/

/-- The variants of configurations have their names and the configurations themselves. -/
theorem named_of_mapM {cs : List Configuration}
    (h : (cs.mapM (s.variant d)).Yields run vs after) :
    vs.map (fun v => (v.name, v.properties)) = cs.map fun c => (d.configurationName c, c) := by
  induction cs generalizing run vs with
  | nil =>
    rw [(yields_mapM_nil.1 h).1]
    rfl
  | cons c rest ih =>
    obtain ⟨v, mid, others, hv, ho, rfl⟩ := yields_mapM_cons.1 h
    obtain ⟨m, -, rfl⟩ := yields_variant.1 hv
    rw [List.map_cons, List.map_cons, ih ho]

theorem properties_of_mapM {cs : List Configuration}
    (h : (cs.mapM (s.variant d)).Yields run vs after) : vs.map (·.properties) = cs := by
  have second := congrArg (List.map Prod.snd) (named_of_mapM h)
  rw [List.map_map, List.map_map] at second
  exact second.trans (List.map_id _)

/-- If no property varies there is the default variant alone, and otherwise the variants are those
of configurations. -/
theorem variants_cases (h : (s.variants d).Yields run vs after) :
    (d.varyingKeys = [] ∧ ∃ m, (s.lower d.widget).Yields run m after ∧
      vs = [{ name := Variant.defaultName,
              properties := [(Variant.placeholderKey, .text "default")], nodeSpec := m }]) ∨
    (d.varyingKeys ≠ [] ∧ ∃ k, s.limit.toNat = .ok k ∧
      ((d.configurations k).mapM (s.variant d)).Yields run vs after) := by
  rw [yields_variants, Definition.isEmpty_ofDefinition] at h
  by_cases vary : d.varyingKeys = []
  · rw [vary] at h
    exact .inl ⟨vary, h⟩
  · rw [if_neg (by simpa using vary)] at h
    exact .inr ⟨vary, h⟩

/-- **The variants are the first configurations.** Let variants of a reusable widget be made under a
limit that is given. If none of the widget's properties varies there is the default variant alone.
Otherwise the variants have the configurations of the widget in lexicographic order: a configuration
has each property that varies, properties stand as they first come and values as they are first
seen, and the first property varies slowest. There are as many as the smaller one of the given limit
and the greatest limit, or else all of them, and no two are the same. -/
theorem variants_enumerate {given : Count} (hl : limitOf given.toValue = .ok s.limit)
    (hy : (s.variants d).Yields run vs after) :
    (d.varyingKeys = [] → ∃ node, vs = [{ name := "Default",
                                           properties := [("variant", .text "default")],
                                           nodeSpec := node }]) ∧
      (d.varyingKeys ≠ [] → ∃ n : Nat, d.Enumerates n vs ∧
        ((given.toNumber = .int n ∧ n ≤ ceiling) ∨
          (Number.less (.int ceiling) given.toNumber = true ∧ n = ceiling))) := by
  rw [yields_variants, Definition.isEmpty_ofDefinition] at hy
  constructor
  · intro none
    rw [none] at hy
    obtain ⟨m, -, hvs⟩ := hy
    exact ⟨m, hvs⟩
  · intro some
    rw [if_neg (by simpa using some)] at hy
    obtain ⟨n, hn, hv⟩ := hy
    exact ⟨n, Definition.enumerates_of_properties some (properties_of_mapM hv), limit_cases hl hn⟩

theorem variants_enumerate_button :
    let save : Widget := { id := "save", kind := .button,
                           properties := { style := some "primary", size := some "medium" } }
    let big : RecordedVariant := { name := "Big", properties := [("size", .text "large")] }
    let quiet : RecordedVariant := { name := "Quiet", properties := [("style", .text "secondary")] }
    let button : Definition := { widget := save, name := "Button", variants := [big, quiet] }
    let s : Synthesizer := { limit := (3 : Nat) }
    button.varyingKeys = ["style", "size"] ∧
      ∃ vs after, (s.variants button).Yields {} vs after ∧ button.Enumerates 3 vs := by
  intro save big quiet button s
  have given : limitOf (Count.toValue (3 : Nat)) = .ok s.limit := limitOf_ofNat 3
  have vary : button.varyingKeys = ["style", "size"] := by decide +kernel
  obtain ⟨vs, after, hy⟩ := returns_iff.2 (by decide +kernel :
    (runFrom {} (s.variants button)).1.isOk = true)
  obtain ⟨-, all⟩ := variants_enumerate given hy
  obtain ⟨n, enumerated, count⟩ := all (by simp [vary])
  have three : n = 3 := by
    rcases count with ⟨same, -⟩ | ⟨above, -⟩
    · have := Number.int.inj same
      omega
    · exact absurd above (by decide +kernel)
  exact ⟨vary, vs, after, hy, three ▸ enumerated⟩

end Synthesizer

end DesignTree
