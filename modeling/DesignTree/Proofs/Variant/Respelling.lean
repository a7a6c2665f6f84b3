import DesignTree.Proofs.Variant.Selection
import DesignTree.Proofs.Variant.SwitchName
import DesignTree.Proofs.Widget.Override

/-! # Overrides in another spelling

A recorded variation can name a typed property in either spelling, and its widget is the same
(`Definition.SpelledAlike.variantWidget`). The property matrix takes the names as they are, so that
one property can be two of the matrix. Switches and configurations stay what they are exactly if the
matrix does (`Definition.unchanged_iff`), which is so where no name that is spelled anew varies
(`Definition.SpelledAlike.ofDefinition_eq`).
-/

namespace DesignTree

open WidgetProperties (SameProperty)

/-! ## Lists side by side -/

/-- A filter can take its part before duplicates are left out, or after. -/
theorem eraseDups_filter {α : Type} [DecidableEq α] (p : α → Bool) (l : List α) :
    l.eraseDups.filter p = (l.filter p).eraseDups := by
  induction l using List.reverseRecOn with
  | nil => rfl
  | append_singleton l a ih =>
    rw [eraseDups_append_singleton, List.filter_append]
    cases hp : p a with
    | true =>
      rw [List.filter_cons_of_pos hp, List.filter_nil, eraseDups_append_singleton, ← ih]
      by_cases h : a ∈ l <;> simp [h, hp]
    | false =>
      rw [List.filter_cons_of_neg (by simp [hp]), List.filter_nil, List.append_nil, ← ih]
      by_cases h : a ∈ l <;> simp [h, hp]

theorem mapM_congr {m : Type → Type} [Monad m] [LawfulMonad m] {α β : Type} {f g : α → m β}
    {l : List α} (h : ∀ a ∈ l, f a = g a) : l.mapM f = l.mapM g := by
  induction l with
  | nil => rfl
  | cons a rest ih =>
    rw [List.forall_mem_cons] at h
    rw [List.mapM_cons, List.mapM_cons, h.1, ih h.2]

theorem eraseDups_flatMap_replicate {α : Type} [DecidableEq α] {l : List α} (h : l.Nodup)
    (n : Nat) :
    (l.flatMap fun a => List.replicate (n + 1) a).eraseDups = l := by
  induction l with
  | nil => rfl
  | cons a rest ih =>
    rw [List.nodup_cons] at h
    have own : (List.replicate n a).filter (fun b => !b == a) = [] := by simp
    have others : (rest.flatMap fun a => List.replicate (n + 1) a).filter (fun b => !b == a) =
        rest.flatMap fun a => List.replicate (n + 1) a := by
      refine List.filter_eq_self.2 fun b hb => ?_
      obtain ⟨c, hc, hb⟩ := List.mem_flatMap.1 hb
      rw [List.eq_of_mem_replicate hb]
      simpa using fun same : c = a => h.1 (same ▸ hc)
    rw [List.flatMap_cons, List.replicate_succ, List.cons_append, List.eraseDups_cons,
      List.filter_append, own, List.nil_append, others, ih h.2]

/-- Lists that are related item by item, and searched with the same outcome for the places, give
related items. -/
theorem rel_find?_of_findIdx? {α β : Type} {R : α → β → Prop} {p : α → Bool} {q : β → Bool}
    {as : List α} {bs : List β} (h : List.Forall₂ R as bs)
    (place : as.findIdx? p = bs.findIdx? q) : Option.Rel R (as.find? p) (bs.find? q) := by
  induction h with
  | nil => exact .none
  | @cons a b as bs first _ ih =>
    rw [List.findIdx?_cons, List.findIdx?_cons] at place
    rw [List.find?_cons, List.find?_cons]
    cases ha : p a with
    | true =>
      cases hb : q b with
      | true => exact .some first
      | false => cases hq : bs.findIdx? q <;> simp [ha, hb, hq] at place
    | false =>
      cases hb : q b with
      | true => cases hp : as.findIdx? p <;> simp [ha, hb, hp] at place
      | false =>
        rw [ha, hb] at place
        exact ih (Option.map_injective (fun _ _ => Nat.succ.inj) place)

theorem findIdx?_congr {α β : Type} {p : α → Bool} {q : β → Bool} {as : List α} {bs : List β}
    (h : List.Forall₂ (fun a b => q b = p a) as bs) : bs.findIdx? q = as.findIdx? p := by
  induction h with
  | nil => rfl
  | cons same _ ih => rw [List.findIdx?_cons, List.findIdx?_cons, same, ih]

/-! ## Entries in another spelling -/

namespace Entries

variable {α : Type} {es es' : Entries α}

/-- The same values under names of the same properties. -/
def SpelledAlike (es es' : Entries α) : Prop :=
  List.Forall₂ (fun e e' => e'.2 = e.2 ∧ SameProperty e.1 e'.1) es es'

theorem SpelledAlike.refl (es : Entries α) : es.SpelledAlike es :=
  List.forall₂_same.2 fun _ _ => ⟨rfl, .inl rfl⟩

/-- Where the names are the same, so are the entries. -/
theorem SpelledAlike.eq_of_keys (h : es.SpelledAlike es') (names : es.keys = es'.keys) :
    es = es' := by
  induction h with
  | nil => rfl
  | cons same _ ih =>
    rw [keys, keys, List.map_cons, List.map_cons, List.cons.injEq] at names
    rw [Prod.ext names.1 same.1.symm, ih names.2]

theorem SpelledAlike.keys (h : es.SpelledAlike es') :
    List.Forall₂ SameProperty es.keys es'.keys :=
  forall₂_map (h.imp fun _ _ same => same.2)

/-- The same values, under other names only where both names meet a condition. -/
def AlikeBut (touched : Text → Prop) (es es' : Entries α) : Prop :=
  List.Forall₂ (fun e e' => e'.2 = e.2 ∧ (e'.1 = e.1 ∨ touched e.1 ∧ touched e'.1)) es es'

variable {touched : Text → Prop} {name : Text}

/-- Any other name is looked up with the same outcome. -/
theorem AlikeBut.get? (h : es.AlikeBut touched es') (free : ¬ touched name) :
    es'.get? name = es.get? name := by
  induction h with
  | nil => rfl
  | @cons e e' _ _ same _ ih =>
    obtain ⟨value, stays | ⟨left, right⟩⟩ := same
    · rw [Entries.get?, Entries.get?, stays, value, ih]
    · have left : e.1 ≠ name := fun he => free (he ▸ left)
      have right : e'.1 ≠ name := fun he => free (he ▸ right)
      rw [Entries.get?, Entries.get?, if_neg left, if_neg right, ih]

/-- Names that meet a condition are the same ones if it leaves the touched names out. -/
theorem AlikeBut.filter_keys (h : es.AlikeBut touched es') {p q : Text → Bool}
    (same : ∀ name, ¬ touched name → q name = p name)
    (out : ∀ name, touched name → p name = false ∧ q name = false) :
    es'.keys.filter q = es.keys.filter p := by
  have agree : q = p := by
    funext name
    by_cases ht : touched name
    · rw [(out name ht).1, (out name ht).2]
    · exact same name ht
  induction h with
  | nil => rfl
  | @cons e e' _ _ own _ ih =>
    rw [Entries.keys, Entries.keys, List.map_cons, List.map_cons] at *
    obtain ⟨-, stays | ⟨left, right⟩⟩ := own
    · rw [List.filter_cons, List.filter_cons, stays, ih, agree]
    · rw [List.filter_cons, List.filter_cons, (out _ left).1, (out _ right).2]
      exact ih

end Entries

theorem WidgetProperties.merged_eq (p : WidgetProperties) {o o' : Fields} (h : o.SpelledAlike o') :
    p.merged o' = p.merged o := by
  have fold (fs : Fields) : o'.foldl (fun fs e => fs.set (overrideName e.1) e.2) fs =
      o.foldl (fun fs e => fs.set (overrideName e.1) e.2) fs := by
    induction h generalizing fs with
    | nil => rfl
    | @cons e e' _ _ same _ ih =>
      rw [List.foldl_cons, List.foldl_cons, ih, same.1, overrideName_eq_iff.2 same.2]
  have empty : o'.isEmpty = o.isEmpty := by cases h <;> rfl
  unfold merged
  rw [empty, fold]

namespace Configuration

variable {fs gs : Fields} {touched : Text → Prop}

/-- Scalar values are picked out of both records in the same places. -/
theorem alikeBut_ofFields (h : fs.AlikeBut touched gs) :
    Entries.AlikeBut touched (ofFields fs) (ofFields gs) := by
  induction h with
  | nil => exact .nil
  | @cons e e' _ _ same _ ih =>
    rw [ofFields, ofFields, List.filterMap_cons, List.filterMap_cons, same.1]
    cases Scalar.ofValue? e.2 with
    | none => exact ih
    | some s => exact .cons ⟨rfl, same.2⟩ ih

theorem listed_eq_of_alikeBut {c c' : Configuration} (h : Entries.AlikeBut touched c c')
    {key : Text} (free : ¬ touched key) : c'.listed key = c.listed key := by
  induction h with
  | nil => rfl
  | @cons e e' _ _ same _ ih =>
    unfold listed at ih ⊢
    obtain ⟨value, stays | ⟨left, right⟩⟩ := same
    · rw [List.filter_cons, List.filter_cons, stays]
      by_cases hk : e.1 = key <;> simp [hk, value, ih]
    · have left : e.1 ≠ key := fun he => free (he ▸ left)
      have right : e'.1 ≠ key := fun he => free (he ▸ right)
      simp [left, right, ih]

end Configuration

/-! ## Reusable widgets -/

/-- The same variation with its overrides in other spellings. -/
structure RecordedVariant.SpelledAlike (v v' : RecordedVariant) : Prop where
  name : v'.name = v.name
  styling : v'.styling = v.styling
  properties : Entries.SpelledAlike v.properties v'.properties

namespace Definition

/-- The same reusable widget with the overrides of its recorded variations in other spellings. -/
structure SpelledAlike (d d' : Definition) : Prop where
  widget : d'.widget = d.widget
  name : d'.name = d.name
  variants : List.Forall₂ RecordedVariant.SpelledAlike d.variants d'.variants

/-- A name that an override has in one of two reusable widgets, and another one in the other. -/
def Respells (d d' : Definition) (name : Text) : Prop :=
  ∃ p ∈ d.variants.zip d'.variants, ∃ e ∈ p.1.properties.zip p.2.properties,
    e.1.1 ≠ e.2.1 ∧ (name = e.1.1 ∨ name = e.2.1)

/-- The place of the first recorded variation that agrees with a configuration. -/
def place? (d : Definition) (c : Configuration) : Option Nat :=
  d.variants.findIdx? fun v => (Configuration.ofFields v.properties).agrees c.toFields

variable {d d' : Definition} {c : Configuration}

namespace SpelledAlike

/-- What a variation overrides is the same in either spelling. -/
theorem variantWidget (h : d.SpelledAlike d') {v v' : RecordedVariant} (hv : v.SpelledAlike v') :
    d'.variantWidget v' = d.variantWidget v := by
  rw [Definition.variantWidget, Definition.variantWidget, Widget.withOverrides,
    Widget.withOverrides, h.widget, hv.styling, WidgetProperties.merged_eq _ hv.properties]

theorem recorded? (h : d.SpelledAlike d') (place : d'.place? c = d.place? c) :
    Option.Rel RecordedVariant.SpelledAlike (d.recorded? c) (d'.recorded? c) :=
  rel_find?_of_findIdx? h.variants place.symm

theorem configured (h : d.SpelledAlike d') (place : d'.place? c = d.place? c) :
    d'.configured c = d.configured c := by
  have found := h.recorded? place
  unfold Definition.configured
  generalize d.recorded? c = first, d'.recorded? c = second at found ⊢
  cases found with
  | none => rw [h.widget]
  | some hv => exact h.variantWidget hv

theorem configurationName (h : d.SpelledAlike d') (place : d'.place? c = d.place? c) :
    d'.configurationName c = d.configurationName c := by
  have found := h.recorded? place
  unfold Definition.configurationName
  generalize d.recorded? c = first, d'.recorded? c = second at found ⊢
  cases found with
  | none => rfl
  | some hv => simp only [hv.name]

theorem variant (h : d.SpelledAlike d') (place : d'.place? c = d.place? c) (s : Synthesizer) :
    s.variant d' c = s.variant d c := by
  unfold Synthesizer.variant Synthesizer.variantWidget Synthesizer.unfitWarning
  rw [h.configured place, h.configurationName place, h.widget, h.name]

theorem switches (h : d.SpelledAlike d')
    (matrix : PropertyMatrix.ofDefinition d' = PropertyMatrix.ofDefinition d) :
    d'.switches = d.switches := by
  unfold Definition.switches kindSwitches textSwitch iconSwitch matrixSwitches
  rw [matrix, h.widget]

/-- Where the matrix and the places of recorded variations stay, the same variants are made. -/
theorem variants_eq (h : d.SpelledAlike d')
    (matrix : PropertyMatrix.ofDefinition d' = PropertyMatrix.ofDefinition d)
    (place : ∀ c ∈ (PropertyMatrix.ofDefinition d).combinations, d'.place? c = d.place? c)
    (s : Synthesizer) : s.variants d' = s.variants d := by
  have each (n : Nat) : ((PropertyMatrix.ofDefinition d).leading n).mapM (s.variant d') =
      ((PropertyMatrix.ofDefinition d).leading n).mapM (s.variant d) := by
    refine mapM_congr fun c hc => h.variant (place c ?_) s
    rw [PropertyMatrix.leading_eq] at hc
    exact List.mem_of_mem_take hc
  unfold Synthesizer.variants Synthesizer.onlyVariant
  rw [matrix, h.widget]
  simp only [each]

end SpelledAlike

/-! ## Names that do not vary -/

theorem mem_varyingKeys_iff {key : Text} : key ∈ d.varyingKeys ↔ 2 ≤ (d.valuesOf key).length := by
  refine ⟨length_valuesOf, fun two => List.mem_filter.2 ⟨?_, decide_eq_true two⟩⟩
  obtain ⟨s, hs⟩ := List.exists_mem_of_length_pos (Nat.lt_of_lt_of_le Nat.zero_lt_two two)
  obtain ⟨e, he, -⟩ := List.mem_map.1 (Scalar.mem_of_mem_firstSeen hs)
  obtain ⟨he, same⟩ := List.mem_filter.1 he
  rw [List.mem_eraseDups, ← of_decide_eq_true same]
  exact List.mem_map_of_mem he

namespace SpelledAlike

theorem alikeBut (h : d.SpelledAlike d') : List.Forall₂ (fun v v' : RecordedVariant =>
    Entries.AlikeBut (d.Respells d') v.properties v'.properties) d.variants d'.variants := by
  obtain ⟨length, variants⟩ := List.forall₂_iff_zip.1 h.variants
  refine List.forall₂_iff_zip.2 ⟨length, fun {v v'} hv => ?_⟩
  obtain ⟨length, properties⟩ := List.forall₂_iff_zip.1 (variants hv).properties
  refine List.forall₂_iff_zip.2 ⟨length, fun {e e'} he => ⟨(properties he).1, ?_⟩⟩
  by_cases stays : e.1 = e'.1
  · exact .inl stays.symm
  · exact .inr ⟨⟨(v, v'), hv, (e, e'), he, stays, .inl rfl⟩,
      ⟨(v, v'), hv, (e, e'), he, stays, .inr rfl⟩⟩

theorem scalars (h : d.SpelledAlike d') :
    Entries.AlikeBut (d.Respells d') d.scalars d'.scalars := by
  rw [Definition.scalars, Definition.scalars, h.widget]
  refine List.rel_append (List.forall₂_same.2 fun _ _ => ⟨rfl, .inl rfl⟩) ?_
  exact List.rel_flatMap h.alikeBut fun _ _ hv => Configuration.alikeBut_ofFields hv

theorem valuesOf (h : d.SpelledAlike d') {key : Text} (free : ¬ d.Respells d' key) :
    d'.valuesOf key = d.valuesOf key := by
  rw [Definition.valuesOf, Configuration.listed_eq_of_alikeBut h.scalars free, Definition.valuesOf]

variable (still : ∀ name, d.Respells d' name → name ∉ d.varyingKeys ∧ name ∉ d'.varyingKeys)

include still

theorem varyingKeys (h : d.SpelledAlike d') : d'.varyingKeys = d.varyingKeys := by
  unfold Definition.varyingKeys
  rw [eraseDups_filter, eraseDups_filter]
  refine congrArg List.eraseDups
    (h.scalars.filter_keys (fun key free => ?_) fun key respelled => ?_)
  · rw [h.valuesOf free]
  · obtain ⟨before, after⟩ := still key respelled
    exact ⟨decide_eq_false (mt mem_varyingKeys_iff.2 before),
      decide_eq_false (mt mem_varyingKeys_iff.2 after)⟩

/-- A matrix without the properties that are spelled anew stays as it is. -/
theorem ofDefinition_eq (h : d.SpelledAlike d') :
    PropertyMatrix.ofDefinition d' = PropertyMatrix.ofDefinition d := by
  have values :
      (PropertyMatrix.ofDefinition d').values = (PropertyMatrix.ofDefinition d).values := by
    rw [values_ofDefinition, values_ofDefinition, h.varyingKeys still]
    refine List.map_congr_left fun key hkey => ?_
    rw [h.valuesOf fun respelled => (still key respelled).1 hkey]
  cases hm : PropertyMatrix.ofDefinition d
  rw [hm] at values
  exact congrArg PropertyMatrix.mk values

/-- Configurations without these properties agree with the same recorded variations. -/
theorem place?_eq (h : d.SpelledAlike d')
    (hc : c ∈ (PropertyMatrix.ofDefinition d).combinations) : d'.place? c = d.place? c := by
  refine findIdx?_congr (h.alikeBut.imp fun v v' hv => ?_)
  rw [Bool.eq_iff_iff, Configuration.agrees_iff, Configuration.agrees_iff]
  refine forall₂_congr fun e he => ?_
  have vary : e.1 ∈ d.varyingKeys := by
    rw [← varying_eq, ← keys_of_mem_combinations hc]
    exact List.mem_map_of_mem he
  rw [(Configuration.alikeBut_ofFields hv).get? fun respelled => (still e.1 respelled).1 vary]

end SpelledAlike

/-! ## What configurations tell about the matrix -/

end Definition

namespace PropertyMatrix

variable {es es' : Entries (List Scalar)}

theorem choices_ne_nil (h : ∀ e ∈ es, e.2 ≠ []) : choices es ≠ [] := by
  obtain ⟨c, hc, -⟩ := exists_mem_choices (q := fun _ _ => True) fun e he =>
    (List.exists_mem_of_ne_nil e.2 (h e he)).imp fun _ ht => ⟨ht, trivial⟩
  exact List.ne_nil_of_mem hc

/-- The first property has each of its values in as many choices as there are for the others. -/
theorem heads_choices (key : Text) (values : List Scalar) (rest : Entries (List Scalar)) :
    (choices ((key, values) :: rest)).filterMap (fun c => c.head?.map (·.2)) =
      values.flatMap fun v => List.replicate (choices rest).length v := by
  rw [choices, List.filterMap_flatMap]
  refine List.flatMap_congr fun v _ => ?_
  rw [List.filterMap_map]
  simp [Function.comp_def]

theorem length_choices_cons (key : Text) (values : List Scalar) (rest : Entries (List Scalar)) :
    (choices ((key, values) :: rest)).length = values.length * (choices rest).length := by
  simp [choices, List.length_flatMap]

/-- Choices of one value for each property tell the values, if each property has some and none
twice. -/
theorem choices_inj (keys : es.keys = es'.keys) (h : ∀ e ∈ es, e.2 ≠ [] ∧ e.2.Nodup)
    (h' : ∀ e ∈ es', e.2 ≠ [] ∧ e.2.Nodup) (same : choices es = choices es') : es = es' := by
  induction es generalizing es' with
  | nil => exact (List.map_eq_nil_iff.1 keys.symm).symm
  | cons e rest ih =>
    obtain ⟨key, values⟩ := e
    obtain ⟨⟨_, values'⟩, rest', rfl⟩ := List.exists_cons_of_ne_nil fun none : es' = [] => by
      rw [none] at keys
      cases keys
    rw [Entries.keys, Entries.keys, List.map_cons, List.map_cons, List.cons.injEq] at keys
    obtain ⟨rfl, keys⟩ := keys
    rw [List.forall_mem_cons] at h h'
    have some := choices_ne_nil fun e he => (h.2 e he).1
    have some' := choices_ne_nil fun e he => (h'.2 e he).1
    obtain ⟨n, hn⟩ := Nat.exists_eq_succ_of_ne_zero (mt List.length_eq_zero_iff.1 some)
    obtain ⟨n', hn'⟩ := Nat.exists_eq_succ_of_ne_zero (mt List.length_eq_zero_iff.1 some')
    have first : values = values' := by
      have heads := congrArg (List.filterMap fun c => c.head?.map (·.2)) same
      rw [heads_choices, heads_choices, hn, hn'] at heads
      have erased := congrArg List.eraseDups heads
      rwa [eraseDups_flatMap_replicate h.1.2, eraseDups_flatMap_replicate h'.1.2] at erased
    subst first
    obtain ⟨v, more, rfl⟩ := List.exists_cons_of_ne_nil h.1.1
    have count : (choices rest).length = (choices rest').length := by
      have lengths := congrArg List.length same
      rw [length_choices_cons, length_choices_cons] at lengths
      exact Nat.eq_of_mul_eq_mul_left (Nat.succ_pos more.length) lengths
    rw [choices, choices, List.flatMap_cons, List.flatMap_cons] at same
    have tails := List.append_inj_left same (by simp [count])
    have tails := List.map_injective_iff.2 (fun _ _ h => (List.cons.inj h).2) tails
    rw [ih keys h.2 h'.2 tails]

end PropertyMatrix

/-- The two spellings of a property have different titles. -/
theorem WidgetProperties.SameProperty.eq_of_title {a b : Text} (h : SameProperty a b)
    (title : Variant.propertyTitle a = Variant.propertyTitle b) : a = b := by
  have apart : ∀ k ∈ typedKeys, Variant.propertyTitle k.camel = Variant.propertyTitle k.snake →
      k.camel = k.snake := by decide +kernel
  obtain rfl | ⟨k, hk, rfl | rfl, rfl | rfl⟩ := h
  · rfl
  · rfl
  · exact apart k hk title
  · exact (apart k hk title.symm).symm
  · rfl

namespace Definition

variable {d d' : Definition}

theorem WithoutNaN.nodup_valuesOf (h : d.WithoutNaN) (key : Text) : (d.valuesOf key).Nodup := by
  refine (Scalar.pairwise_firstSeen _).imp_of_mem fun {s t} hs _ apart same => ?_
  rw [same, h.same_self (same ▸ hs)] at apart
  cases apart

theorem SpelledAlike.withoutNaN (h : d.SpelledAlike d') (hd : d.WithoutNaN) : d'.WithoutNaN := by
  intro e' he'
  obtain ⟨e, he, value, -⟩ := exists_of_mem_forall₂ h.scalars he'
  rw [value]
  exact hd e he

/-- Without numbers that lie nowhere, configurations tell the values of the properties that vary. -/
theorem values_eq_of_combinations (hd : d.WithoutNaN) (hd' : d'.WithoutNaN)
    (keys : d.varyingKeys = d'.varyingKeys) (same : (PropertyMatrix.ofDefinition d).combinations =
      (PropertyMatrix.ofDefinition d').combinations) :
    (PropertyMatrix.ofDefinition d).values = (PropertyMatrix.ofDefinition d').values := by
  have several {d : Definition} (hd : d.WithoutNaN) :
      ∀ e ∈ (PropertyMatrix.ofDefinition d).values, e.2 ≠ [] ∧ e.2.Nodup := by
    rw [values_ofDefinition]
    intro e he
    obtain ⟨key, hkey, rfl⟩ := List.mem_map.1 he
    have two := length_valuesOf hkey
    exact ⟨List.ne_nil_of_length_pos (Nat.lt_of_lt_of_le Nat.zero_lt_two two),
      hd.nodup_valuesOf key⟩
  by_cases none : d.varyingKeys = []
  · rw [values_ofDefinition, values_ofDefinition, ← keys, none]
    rfl
  · have vary : d'.varyingKeys ≠ [] := keys ▸ none
    rw [PropertyMatrix.combinations, isEmpty_ofDefinition, List.isEmpty_eq_false_iff.2 none,
      PropertyMatrix.combinations, isEmpty_ofDefinition, List.isEmpty_eq_false_iff.2 vary] at same
    refine PropertyMatrix.choices_inj ?_ (several hd) (several hd') same
    rw [← PropertyMatrix.keys, ← PropertyMatrix.keys]
    exact (varying_eq d).trans (keys.trans (varying_eq d').symm)

theorem exists_mem_combinations (h : d.varyingKeys ≠ []) :
    ∃ c, c ∈ (PropertyMatrix.ofDefinition d).combinations := by
  have offers : d.Offers [] := ⟨List.nodup_nil, by simp, by simp⟩
  obtain ⟨c, hc, -⟩ := offers.exists_switchesTo h
  exact ⟨c, hc⟩

theorem keys_of_combination {c : Configuration}
    (hc : c ∈ (PropertyMatrix.ofDefinition d).combinations) : c.keys = d.varyingKeys := by
  rw [keys_of_mem_combinations hc, varying_eq]

/-- Properties that vary are the same ones in other spellings if configurations are. -/
theorem forall₂_varyingKeys (h : List.Forall₂ Entries.SpelledAlike
    (PropertyMatrix.ofDefinition d).combinations (PropertyMatrix.ofDefinition d').combinations) :
    List.Forall₂ SameProperty d.varyingKeys d'.varyingKeys := by
  by_cases none : d'.varyingKeys = []
  · by_cases none' : d.varyingKeys = []
    · rw [none, none']
      exact .nil
    · obtain ⟨c, hc⟩ := exists_mem_combinations none'
      obtain ⟨c', hc', alike⟩ := exists_of_mem_forall₂ h.flip hc
      rw [← keys_of_combination hc, ← keys_of_combination hc']
      exact Entries.SpelledAlike.keys alike
  · obtain ⟨c', hc'⟩ := exists_mem_combinations none
    obtain ⟨c, hc, alike⟩ := exists_of_mem_forall₂ h hc'
    rw [← keys_of_combination hc, ← keys_of_combination hc']
    exact alike.keys

/-- Properties in other spellings that have the same switches are the same. -/
theorem varyingKeys_eq_of_switches (h : List.Forall₂ SameProperty d.varyingKeys d'.varyingKeys)
    (switches : d'.switches = d.switches) : d.varyingKeys = d'.varyingKeys := by
  have count (d : Definition) : d.matrixSwitches.length = d.varyingKeys.length := by
    rw [← List.length_map (·.name), names_matrixSwitches, List.length_map]
  have own : d'.matrixSwitches = d.matrixSwitches := by
    unfold Definition.switches at switches
    simp only [List.append_assoc] at switches
    exact List.append_inj_left switches (by rw [count, count, h.length_eq])
  have titles := congrArg (List.map (·.name)) own
  rw [names_matrixSwitches, names_matrixSwitches] at titles
  generalize d.varyingKeys = ks, d'.varyingKeys = ks' at h titles
  induction h with
  | nil => rfl
  | cons same _ ih =>
    rw [List.map_cons, List.map_cons, List.cons.injEq] at titles
    rw [same.eq_of_title titles.1.symm, ih titles.2]

/-- **What shows of a matrix.** Switches stay as they are, and configurations too but for the
spelling of their names, exactly if the matrix stays. -/
theorem unchanged_iff (h : d.SpelledAlike d') (hd : d.WithoutNaN) :
    (d'.switches = d.switches ∧ List.Forall₂ Entries.SpelledAlike
      (PropertyMatrix.ofDefinition d).combinations (PropertyMatrix.ofDefinition d').combinations) ↔
    PropertyMatrix.ofDefinition d' = PropertyMatrix.ofDefinition d := by
  constructor
  · rintro ⟨switches, alike⟩
    have keys := varyingKeys_eq_of_switches (forall₂_varyingKeys alike) switches
    obtain ⟨length, each⟩ := List.forall₂_iff_zip.1 alike
    have same : List.Forall₂ Eq (PropertyMatrix.ofDefinition d).combinations
        (PropertyMatrix.ofDefinition d').combinations := by
      refine List.forall₂_iff_zip.2 ⟨length, fun {c c'} hc => ?_⟩
      obtain ⟨left, right⟩ := List.of_mem_zip hc
      refine (each hc).eq_of_keys ?_
      rw [keys_of_combination left, keys_of_combination right, keys]
    rw [List.forall₂_eq_eq_eq] at same
    have values := values_eq_of_combinations hd (h.withoutNaN hd) keys same
    exact congrArg PropertyMatrix.mk values.symm
  · intro matrix
    rw [matrix]
    exact ⟨h.switches matrix, List.forall₂_same.2 fun c _ => .refl c⟩

/-- **When the spelling of overrides does not matter.** Let the overrides of recorded variations be
spelled in another way. The widgets of the variations are always the same. Switches stay as they
are, and configurations too but for spelling, exactly if the matrix does. If besides each
configuration has its recorded variation at the same place, the same variants are made. All this is
so if no name that is spelled anew varies, before or after. -/
theorem overrides_spelledAlike (h : d.SpelledAlike d') :
    List.Forall₂ (fun v v' => d'.variantWidget v' = d.variantWidget v) d.variants d'.variants ∧
    (d.WithoutNaN → ((d'.switches = d.switches ∧ List.Forall₂ Entries.SpelledAlike
        (PropertyMatrix.ofDefinition d).combinations (PropertyMatrix.ofDefinition d').combinations) ↔
      PropertyMatrix.ofDefinition d' = PropertyMatrix.ofDefinition d)) ∧
    (PropertyMatrix.ofDefinition d' = PropertyMatrix.ofDefinition d →
      (∀ c ∈ (PropertyMatrix.ofDefinition d).combinations, d'.place? c = d.place? c) →
      ∀ s : Synthesizer, s.variants d' = s.variants d) ∧
    ((∀ name, d.Respells d' name → name ∉ d.varyingKeys ∧ name ∉ d'.varyingKeys) →
      d'.switches = d.switches ∧ ∀ s : Synthesizer, s.variants d' = s.variants d) := by
  refine ⟨h.variants.imp fun _ _ => h.variantWidget, unchanged_iff h, h.variants_eq,
    fun still => ?_⟩
  have matrix := h.ofDefinition_eq still
  exact ⟨h.switches matrix, h.variants_eq matrix fun c hc => h.place?_eq still hc⟩

theorem overrides_spelledAlike_star :
    let save : Widget := { id := "save", kind := .button, properties := { size := some "medium" } }
    let big : RecordedVariant :=
      { name := "Big", properties := [("size", .text "large"), ("iconData", .text "star")] }
    let other : RecordedVariant :=
      { name := "Big", properties := [("size", .text "large"), ("icon_data", .text "star")] }
    let button : Definition := { widget := save, name := "Button", variants := [big] }
    let respelled : Definition := { widget := save, name := "Button", variants := [other] }
    button.SpelledAlike respelled ∧ button.varyingKeys = ["size"] ∧
      respelled.switches = button.switches ∧
      ∀ s : Synthesizer, s.variants respelled = s.variants button := by
  intro save big other button respelled
  have size : SameProperty "size" "size" := .inl rfl
  have icon : SameProperty "iconData" "icon_data" := by decide
  have alike : button.SpelledAlike respelled :=
    ⟨rfl, rfl, .cons ⟨rfl, rfl, .cons ⟨rfl, size⟩ (.cons ⟨rfl, icon⟩ .nil)⟩ .nil⟩
  have vary : button.varyingKeys = ["size"] := by decide +kernel
  have vary' : respelled.varyingKeys = ["size"] := by decide +kernel
  obtain ⟨-, -, -, unchanged⟩ := overrides_spelledAlike alike
  refine ⟨alike, vary, unchanged ?_⟩
  rw [vary, vary']
  rintro name ⟨p, hp, e, he, differ, own⟩
  obtain rfl := List.mem_singleton.1 hp
  have fresh : ∀ e ∈ big.properties.zip other.properties, e.1.1 ≠ e.2.1 →
      e.1.1 ∉ (["size"] : List Text) ∧ e.2.1 ∉ (["size"] : List Text) := by decide
  obtain ⟨left, right⟩ := fresh e he differ
  rcases own with rfl | rfl
  · exact ⟨left, left⟩
  · exact ⟨right, right⟩

/-- A property that varies under its first spelling is lost where an override has the second one. -/
theorem switches_of_respelled_expanded :
    let pane : Widget :=
      { id := "pane", kind := .container, properties := { isExpanded := some true } }
    let fixed : RecordedVariant := { name := "Fixed", properties := [("isExpanded", .bool false)] }
    let other : RecordedVariant := { name := "Fixed", properties := [("is_expanded", .bool false)] }
    let before : Definition := { widget := pane, name := "Pane", variants := [fixed] }
    let after : Definition := { widget := pane, name := "Pane", variants := [other] }
    let names (d : Definition) : List Text :=
      ((InRun.runFrom {} (Synthesizer.variants {} d)).1.toOption.getD []).map (·.name)
    before.SpelledAlike after ∧
      before.switches.map (·.name) = ["Is Expanded"] ∧ after.switches = [] ∧
      names before = ["IsExpanded", "Fixed"] ∧ names after = ["Default"] := by
  intro pane fixed other before after names
  have expanded : SameProperty "isExpanded" "is_expanded" := by decide
  refine ⟨⟨rfl, rfl, .cons ⟨rfl, rfl, .cons ⟨rfl, expanded⟩ .nil⟩ .nil⟩, ?_⟩
  decide +kernel

end Definition

end DesignTree
