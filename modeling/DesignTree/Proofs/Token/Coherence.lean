import DesignTree.Proofs.Data.Replacement
import DesignTree.Proofs.Token.Modes
import Mathlib.Algebra.GroupWithZero.Nat

/-! # Coherence of token tables

A table comes about by calls, each of which adds the collections of one theme, or of several taken
together as modes. Collections are kept under their own names, and tokens of a collection have
names of their own and say which collection they are in; each call leaves it so
(`TokenTable.WellKept.after`). Therefore what is listed is found, and what is found is listed, after
any number of calls (`TokenTable.coherent_built`). A call replaces the collections of its name, in
their places, and no other ones (`TokenTable.Replaces`).
-/

namespace DesignTree

open Token

namespace Token

/-- Neither a theme nor a section can be mistaken in the name of a collection: the last two letters
tell the sections apart. -/
theorem collectionName_inj {theme theme' : Text} {s s' : Section}
    (h : collectionName theme s = collectionName theme' s') : theme = theme' ∧ s = s' := by
  have name (theme : Text) (s : Section) : collectionName theme s = theme ++ (" " ++ s.words) := by
    cases s <;> exact congrArg (theme ++ ·) (by decide)
  have ending (theme : Text) (s : Section) :
      (collectionName theme s).toList.reverse.take 2 = s.words.toList.reverse.take 2 := by
    rw [name, Text.toList_append, List.reverse_append,
      List.take_append_of_le_length (by cases s <;> decide)]
    cases s <;> decide
  have endings : ∀ s s' : Section,
      s.words.toList.reverse.take 2 = s'.words.toList.reverse.take 2 → s = s' := by
    intro s s'
    cases s <;> cases s' <;> decide
  obtain rfl := endings s s' (by rw [← ending theme s, h, ending])
  rw [name, name, Text.ext_iff, Text.toList_append, Text.toList_append theme',
    List.append_left_inj] at h
  exact ⟨Text.ext_iff.2 h, rfl⟩

end Token

/-! ## Collections of either kind -/

/-- What there is to collections of one mode as well as of several: their names and tokens, and of
tokens the names and the collections that they say they are in. -/
structure CollectionKind (γ τ : Type) where
  name : γ → Text
  tokens : γ → List τ
  label : τ → Text
  home : τ → Text

namespace CollectionKind

/-- Collections of one mode. -/
def single : CollectionKind Collection Variable :=
  ⟨Collection.name, Collection.tokens, Variable.name, Variable.collection⟩

/-- Collections of several modes. -/
def modal : CollectionKind ModalCollection ModalVariable :=
  ⟨ModalCollection.name, ModalCollection.tokens, ModalVariable.name, ModalVariable.collection⟩

variable {γ τ : Type} (k : CollectionKind γ τ)

/-- A collection whose tokens are its own and have different names. -/
structure Proper (c : γ) : Prop where
  labels : ((k.tokens c).map k.label).Nodup
  home : ∀ v ∈ k.tokens c, k.home v = k.name c

/-- Collections that are kept under their own names. -/
structure Keeps (es : Entries γ) : Prop where
  keys : es.keys.Nodup
  own : ∀ e ∈ es, k.name e.2 = e.1
  proper : ∀ e ∈ es, k.Proper e.2

/-- The first token of a name in the collection of another name. -/
def find? (es : Entries γ) (collection name : Text) : Option τ :=
  (es.get? collection).bind fun c => (k.tokens c).find? (k.label · == name)

/-- Looking up goes together with listing. -/
structure Agrees (listed : List γ) (lookup : Text → Text → Option τ) : Prop where
  labels : ∀ c ∈ listed, ((k.tokens c).map k.label).Nodup
  found : ∀ c ∈ listed, ∀ v ∈ k.tokens c,
    k.home v = k.name c ∧ lookup (k.home v) (k.label v) = some v
  listed : ∀ collection name v, lookup collection name = some v →
    k.home v = collection ∧ k.label v = name ∧
      ∃ c ∈ listed, k.name c = collection ∧ v ∈ k.tokens c

variable {k} {es : Entries γ}

theorem keeps_nil : k.Keeps [] :=
  ⟨List.nodup_nil, fun _ h => absurd h List.not_mem_nil, fun _ h => absurd h List.not_mem_nil⟩

/-- Further collections that are proper can be put under their names. -/
theorem Keeps.put (h : k.Keeps es) {cs : List γ} (hcs : ∀ c ∈ cs, k.Proper c) :
    k.Keeps (cs.foldl (fun es c => es.set (k.name c) c) es) := by
  refine ⟨Entries.nodup_keys_foldl_set h.keys, fun e he => ?_, fun e he => ?_⟩
  · rcases Entries.exists_or_mem_of_mem_foldl_set he with ⟨c, -, rfl⟩ | old
    · rfl
    · exact h.own e old
  · rcases Entries.exists_or_mem_of_mem_foldl_set he with ⟨c, hc, rfl⟩ | old
    · exact hcs c hc
    · exact h.proper e old

theorem Keeps.agrees (h : k.Keeps es) : k.Agrees (es.map (·.2)) (k.find? es) := by
  refine ⟨List.forall_mem_map.2 fun e he => (h.proper e he).labels,
    List.forall_mem_map.2 fun e he v hv => ?_, fun collection name v found => ?_⟩
  · have home := (h.proper e he).home v hv
    refine ⟨home, ?_⟩
    rw [find?, home, h.own e he, Entries.get?_of_mem h.keys he, Option.bind_some]
    have first := find?_filterMap_of_nodup (f := some) k.label k.label
      (fun _ _ same => congrArg k.label (Option.some.inj same).symm) (h.proper e he).labels hv
    rw [List.filterMap_some] at first
    exact first
  · obtain ⟨c, hc, hv⟩ := Option.bind_eq_some_iff.1 found
    have kept := Entries.mem_of_get? hc
    have mem := List.mem_of_find?_eq_some hv
    have own : k.name c = collection := h.own _ kept
    refine ⟨((h.proper _ kept).home v mem).trans own, by simpa using List.find?_some hv, c,
      List.mem_map.2 ⟨_, kept, rfl⟩, own, mem⟩

end CollectionKind

namespace TokenTable

/-! ## Calls -/

/-- A call that adds collections to a table. -/
inductive Call
  | addTheme (theme : Theme) (name : Text)
  | addModes (themes : List Theme) (names : List Text) (name : Text)

/-- A table after a call. A call that fails leaves it as it was. -/
def after (t : TokenTable) : Call → TokenTable
  | .addTheme theme name => t.addTheme theme name
  | .addModes themes names name => (t.addModes themes names name).toOption.getD t

/-- The table that comes about by some calls. -/
def built (calls : List Call) : TokenTable := calls.foldl after {}

/-- A table that looks up what it lists. -/
structure Coherent (t : TokenTable) : Prop where
  single : CollectionKind.single.Agrees t.collections t.get?
  modal : CollectionKind.modal.Agrees t.modalCollectionList t.getModal?
  count : t.variableCount = (t.collections.map (·.tokens.length)).sum +
    (t.modalCollectionList.map (·.tokens.length)).sum

/-- A table whose collections are kept as they should be. -/
structure WellKept (t : TokenTable) : Prop where
  single : CollectionKind.single.Keeps t.single
  modal : CollectionKind.modal.Keeps t.modal

theorem WellKept.coherent {t : TokenTable} (h : t.WellKept) : t.Coherent := by
  refine ⟨h.single.agrees, h.modal.agrees, ?_⟩
  rw [variableCount, tokens, modalVariables, List.length_flatMap, List.length_flatMap]

/-- The modes of several themes are added, unless their names are too many or too few. -/
theorem after_addModes (t : TokenTable) {themes : List Theme} {names : List Text}
    (hl : themes.length = names.length) (hn : themes ≠ []) (name : Text) :
    t.after (.addModes themes names name) =
      { t with
        modal := (modalCollections (themes.zip names) name).foldl (fun cs c => cs.set c.name c)
          t.modal
        issues := t.issues ++ modalColorNotes (themes.zip names) } := by
  unfold after addModes
  simp only
  rw [if_neg (not_not.2 hl), if_neg (by simpa using hn)]
  rfl

theorem after_addModes_of_unfit (t : TokenTable) {themes : List Theme} {names : List Text}
    (h : themes.length ≠ names.length ∨ themes = []) (name : Text) :
    t.after (.addModes themes names name) = t := by
  unfold after addModes
  simp only
  split
  · rfl
  · next hl =>
    obtain rfl := h.resolve_left hl
    rfl

theorem proper_themeCollection (theme : Theme) (name : Text) (s : Section) :
    CollectionKind.single.Proper (themeCollection theme name s) := by
  refine ⟨nodup_names_themeCollection theme name s, fun v hv => ?_⟩
  exact (collection_of_mem_themeCollection hv).trans (name_themeCollection theme name s).symm

theorem proper_modalCollection {themes : List (Theme × Text)} (hn : themes ≠ []) (name : Text)
    (s : Section) : CollectionKind.modal.Proper (modalCollection themes name s) := by
  obtain ⟨base, rest, rfl⟩ := List.exists_cons_of_ne_nil hn
  refine ⟨nodup_names_modalCollection base rest name s, fun v hv => ?_⟩
  exact (collection_of_mem_modalCollection hv).trans (name_modalCollection _ name s).symm

/-- A call leaves a table well kept. -/
theorem WellKept.after {t : TokenTable} (h : t.WellKept) (call : Call) :
    (t.after call).WellKept := by
  cases call with
  | addTheme theme name =>
    have proper : ∀ c ∈ themeCollections theme name, CollectionKind.single.Proper c := by
      rw [themeCollections_eq]
      exact List.forall_mem_map.2 fun s _ => proper_themeCollection theme name s
    exact ⟨h.single.put proper, h.modal⟩
  | addModes ts names name =>
    by_cases fit : ts.length = names.length ∧ ts ≠ []
    · have named : ts.zip names ≠ [] := by
        rw [Ne, List.zip_eq_nil_iff]
        rintro (none | none)
        · exact fit.2 none
        · exact fit.2 (List.length_eq_zero_iff.1 (by rw [fit.1, none, List.length_nil]))
      have proper : ∀ c ∈ modalCollections (ts.zip names) name,
          CollectionKind.modal.Proper c := by
        rw [modalCollections_eq]
        exact List.forall_mem_map.2 fun s _ => proper_modalCollection named name s
      rw [after_addModes t fit.1 fit.2]
      exact ⟨h.single, h.modal.put proper⟩
    · rw [not_and_or, not_ne_iff] at fit
      rw [after_addModes_of_unfit t fit]
      exact h

/-- What calls build is well kept. -/
theorem wellKept_built (calls : List Call) : (built calls).WellKept :=
  have empty : WellKept {} := ⟨CollectionKind.keeps_nil, CollectionKind.keeps_nil⟩
  List.foldlRecOn calls after empty fun _ kept call _ => kept.after call

/-! ## What a call replaces -/

/-- The collections of a name, one for each section, take the places of those that are there, and
further ones follow. Nothing else changes. -/
structure Replaces {γ : Type} (old new : Entries γ) (name : Text) (made : Section → γ) : Prop where
  own : ∀ s, new.get? (collectionName name s) = some (made s)
  rest : ∀ other, (∀ s, other ≠ collectionName name s) → new.get? other = old.get? other
  others : ∀ theme, theme ≠ name → ∀ s,
    new.get? (collectionName theme s) = old.get? (collectionName theme s)
  keys : new.keys =
    old.keys ++ (Section.all.map (collectionName name)).filter fun key => key ∉ old.keys

theorem replaces_foldl {γ : Type} {label : γ → Text} {name : Text} {made : Section → γ}
    (h : ∀ s, label (made s) = collectionName name s) (old : Entries γ) :
    Replaces old ((Section.all.map made).foldl (fun cs c => cs.set (label c) c) old) name made := by
  have labels : (Section.all.map made).map label = Section.all.map (collectionName name) := by
    rw [List.map_map]
    exact List.map_congr_left fun s _ => h s
  have rest (other : Text) (ho : ∀ s, other ≠ collectionName name s) :
      ((Section.all.map made).foldl (fun cs c => cs.set (label c) c) old).get? other =
        old.get? other := by
    refine Entries.get?_foldl_set_of_notMem (List.forall_mem_map.2 fun s _ => ?_)
    rw [h]
    exact (ho s).symm
  refine ⟨fun s => ?_, rest, fun theme ht s => ?_, ?_⟩
  · rw [← h s]
    refine Entries.get?_foldl_set_of_unique (List.mem_map_of_mem (mem_sections s)) ?_
    refine List.forall_mem_map.2 fun s' _ same => ?_
    rw [h, h] at same
    rw [(collectionName_inj same).2]
  · exact rest _ fun s' same => ht (collectionName_inj same).1
  · rw [← labels]
    exact Entries.keys_foldl_set (labels ▸ nodup_collectionNames name)

theorem replaces_addTheme (t : TokenTable) (theme : Theme) (name : Text) :
    Replaces t.single (t.addTheme theme name).single name (themeCollection theme name) :=
  replaces_foldl (name_themeCollection theme name) t.single

theorem replaces_addModes (t : TokenTable) {themes : List Theme} {names : List Text}
    (hl : themes.length = names.length) (hn : themes ≠ []) (name : Text) :
    Replaces t.modal (t.after (.addModes themes names name)).modal name
      (modalCollection (themes.zip names) name) := by
  rw [after_addModes t hl hn]
  exact replaces_foldl (name_modalCollection (themes.zip names) name) t.modal

/-- **Looking up agrees with listing.** Whatever is added to a table, and however often: tokens of a
collection have names of their own, each listed token is found under its own collection and name,
and what is found is listed there. A theme that is added replaces the collections of its name of one
mode, and several themes those of several modes; if their names are too many or too few, or if there
are no themes, nothing changes. -/
theorem coherent_built (calls : List Call) :
    (built calls).Coherent ∧
    (∀ theme name, let t := built (calls ++ [.addTheme theme name])
      Replaces (built calls).single t.single name (themeCollection theme name) ∧
        t.modal = (built calls).modal) ∧
    (∀ themes names name, themes.length = names.length → themes ≠ [] →
      let t := built (calls ++ [.addModes themes names name])
      Replaces (built calls).modal t.modal name (modalCollection (themes.zip names) name) ∧
        t.single = (built calls).single) ∧
    ∀ themes names name, themes.length ≠ names.length ∨ themes = [] →
      built (calls ++ [.addModes themes names name]) = built calls := by
  have last (call : Call) : built (calls ++ [call]) = (built calls).after call :=
    List.foldl_append
  refine ⟨(wellKept_built calls).coherent, fun theme name => ?_, fun themes names name hl hn => ?_,
    fun themes names name unfit => ?_⟩
  · rw [last]
    exact ⟨replaces_addTheme _ theme name, rfl⟩
  · rw [last]
    refine ⟨replaces_addModes _ hl hn name, ?_⟩
    rw [after_addModes _ hl hn]
  · rw [last, after_addModes_of_unfit _ unfit]

theorem coherent_built_app :
    let light : Theme := { colorScheme := { colors := .of [(.primary, "#6750A4")] },
                           spacing := .of [("small", 8)] }
    let dark : Theme := { colorScheme := { colors := .of [(.primary, "#D0BCFF")] },
                          textTheme := { styles := .of [(.bodyMedium, { fontSize := some 14 })] } }
    let calls : List Call := [.addTheme light "App", .addModes [light, dark] ["Light"] "App",
                              .addModes [light, dark] ["Light", "Dark"] "App"]
    (built calls).Coherent ∧ (built calls).variableCount = 5 ∧
      Replaces (built calls).single (built (calls ++ [.addTheme dark "App"])).single "App"
        (themeCollection dark "App") := by
  intro light dark calls
  obtain ⟨coherent, replaces, -⟩ := coherent_built calls
  exact ⟨coherent, by decide +kernel, (replaces dark "App").1⟩

end TokenTable

end DesignTree
