import DesignTree.Proofs.Conversion.Basic
import DesignTree.Proofs.Widget.Reading

/-! # Unknown kinds before and after reading

A check of a document looks for unknown names among the kinds of its records, and a conversion for
unknown names among the source types of custom widgets. Mostly these are the same names, since a
widget of an unknown kind is read as a custom one, with the name of its kind as its source type.
They differ for a record that gives a source type of its own: a known one hides an unknown kind, and
an unknown one makes an unsupported widget of a known kind. So the two numbers balance with the
records of these two sorts, but for unknown kinds whose source type is given as the absent value
(`unsupportedWidgets_of_check`).
-/

namespace DesignTree

/-- The kinds are spelled in lower case and without blanks around. -/
theorem WidgetKind.plain_spelling (k : WidgetKind) :
    Text.trim (Text.lower (spelling k)) = spelling k := by
  cases k <;> decide +kernel

/-- A name that is spelled like a kind also stands for one. -/
theorem WidgetKind.isSome_ofName? (name : Text) :
    (ofName? name).isSome = (resolve? name).isSome := by
  unfold ofName?
  cases h : (Spelled.ofText? name : Option WidgetKind) with
  | none => rfl
  | some k =>
    have same : spelling k = name := by
      simpa using List.find?_some h
    have plain : Text.trim (Text.lower name) = name := same ▸ plain_spelling k
    simp [resolve?, plain, h]

namespace RawWidget

/-- Whether a value is a name that stands for no kind. -/
def isUnknownName : Value → Bool
  | .text s => (WidgetKind.resolve? s).isNone
  | _ => false

/-- Whether a value is a name for the kind of custom widgets. -/
def namesCustom : Value → Bool
  | .text s => WidgetKind.resolve? s = some .custom
  | _ => false

/-- Whether a record is of a custom widget, and the source type that it gives is an unknown name. -/
def hasUnknownSource (fs : Fields) : Bool :=
  (fs.get? "type").any namesCustom && ((Widget.sourceKey.find? fs).map (·.2)).any isUnknownName

/-- Whether a record is of an unknown kind, and the source type that it gives is a known name. -/
def hidesUnknownKind (fs : Fields) : Bool :=
  hasInvalidKind fs && (fs.get? "sourceType").any namesKind

/-- Whether a record is of an unknown kind, and gives the absent value as its source type. -/
def losesUnknownKind (fs : Fields) : Bool :=
  hasInvalidKind fs && (fs.get? "sourceType").any Value.isNull

section Record

variable {fs : Fields} {w : Widget} {raw : Text}

theorem hasInvalidKind_of_text (ht : fs.get? "type" = some (.text raw)) :
    hasInvalidKind fs = (WidgetKind.resolve? raw).isNone := by
  rw [hasInvalidKind, ht, Option.any_some, namesKind, WidgetKind.isSome_ofName?]
  cases WidgetKind.resolve? raw <;> rfl

/-- The name of the source type decides which custom widgets are unsupported. -/
theorem isUnsupported_of_custom (h : w.kind = .custom) :
    w.isUnsupported = isUnknownName (.ofOption .text w.sourceType) := by
  rw [Widget.isUnsupported, h]
  cases w.sourceType <;> rfl

/-- An unknown kind is unsupported, unless the source type that is given hides it. -/
theorem isUnsupported_of_unknown (h : Widget.decode (.record fs) = .ok w)
    (unknown : Widget.HasUnknownName fs raw) (kind : w.kind = .custom)
    (given : (fs.get? "sourceType").any Value.isNull = false) :
    w.isUnsupported = !(fs.get? "sourceType").any namesKind := by
  have source := Widget.source_of_decode h
  rw [Widget.source?_of_unknown unknown, Option.getD_some] at source
  rw [isUnsupported_of_custom kind, ← source]
  cases hs : fs.get? "sourceType" with
  | none => simp [isUnknownName, unknown.2]
  | some v =>
    rw [hs] at source given
    cases v with
    | text s =>
      rw [Option.getD_some, Option.any_some, isUnknownName, namesKind, WidgetKind.isSome_ofName?]
      cases WidgetKind.resolve? s <;> rfl
    | null => cases given
    | _ => cases hw : w.sourceType <;> rw [hw] at source <;> cases source

/-- A custom widget is unsupported if the source type that is given is an unknown name. -/
theorem isUnsupported_of_known (h : Widget.decode (.record fs) = .ok w)
    (ht : fs.get? "type" = some (.text raw)) (hk : WidgetKind.resolve? raw = some .custom)
    (kind : w.kind = .custom) :
    w.isUnsupported = ((Widget.sourceKey.find? fs).map (·.2)).any isUnknownName := by
  have source := Widget.source_of_decode h
  rw [Widget.source?_of_known ht hk] at source
  rw [isUnsupported_of_custom kind, ← source]
  cases (Widget.sourceKey.find? fs).map (·.2) with
  | some v => rfl
  | none =>
    rw [Option.none_or]
    split
    · rfl
    · simp [isUnknownName, hk]

/-- The records that a check counts and those that a conversion counts, each with the records whose
source type makes the difference. The absent value as a source type leaves it open. -/
structure Balance (invalid unknown unsupported hidden lost : Nat) : Prop where
  unsupported_le : unsupported + hidden ≤ invalid + unknown
  invalid_le : invalid + unknown ≤ unsupported + hidden + lost

theorem balance_of_unknown (h : Widget.decode (.record fs) = .ok w)
    (unknown : Widget.HasUnknownName fs raw) (kind : w.kind = .custom) :
    Balance 1 0 w.isUnsupported.toNat ((fs.get? "sourceType").any namesKind).toNat
      ((fs.get? "sourceType").any Value.isNull).toNat := by
  cases hn : (fs.get? "sourceType").any Value.isNull with
  | false =>
    rw [isUnsupported_of_unknown h unknown kind hn]
    cases (fs.get? "sourceType").any namesKind <;> exact ⟨Nat.le_refl _, Nat.le_refl _⟩
  | true =>
    have unnamed : (fs.get? "sourceType").any namesKind = false := by
      obtain ⟨v, hv, null⟩ := (Option.any_eq_true ..).1 hn
      rw [hv]
      cases v <;> first | rfl | cases null
    rw [unnamed]
    cases w.isUnsupported <;> exact ⟨by decide, by decide⟩

/-- One record balances. -/
theorem balance_of_decode (h : Widget.decode (.record fs) = .ok w) :
    Balance (hasInvalidKind fs).toNat (hasUnknownSource fs).toNat w.isUnsupported.toNat
      (hidesUnknownKind fs).toNat (losesUnknownKind fs).toNat := by
  obtain ⟨raw, ht, kind⟩ := Widget.kind_of_decode h
  rw [hasUnknownSource, hidesUnknownKind, losesUnknownKind, hasInvalidKind_of_text ht, ht,
    Option.any_some, namesCustom]
  cases hk : WidgetKind.resolve? raw with
  | none =>
    rw [hk] at kind
    simpa using balance_of_unknown h ⟨ht, hk⟩ kind
  | some k =>
    rw [hk] at kind
    by_cases custom : k = .custom
    · subst custom
      rw [isUnsupported_of_known h ht hk kind]
      exact ⟨by simp, by simp⟩
    · have supported : w.isUnsupported = false := by
        rw [Widget.isUnsupported, kind, Option.getD_some, decide_eq_false custom, Bool.false_and]
      rw [supported]
      exact ⟨by simp, by simp [custom]⟩

/-- The records of a whole document balance. -/
theorem balance_of_forall₂ {ds : List Fields} {ws : List Widget}
    (h : List.Forall₂ (fun d u => Widget.decode (.record d) = .ok u) ds ws) :
    Balance (ds.countP hasInvalidKind) (ds.countP hasUnknownSource)
      (ws.countP Widget.isUnsupported) (ds.countP hidesUnknownKind)
      (ds.countP losesUnknownKind) := by
  induction h with
  | nil => exact ⟨Nat.le_refl _, Nat.le_refl _⟩
  | @cons d u ds ws first _ ih =>
    obtain ⟨own, own'⟩ := balance_of_decode first
    obtain ⟨others, others'⟩ := ih
    have count {α : Type} (p : α → Bool) (a : α) (l : List α) :
        (a :: l).countP p = l.countP p + (p a).toNat := by
      cases hp : p a <;> simp [hp]
    rw [count, count, count, count, count]
    exact ⟨by omega, by omega⟩

end Record

/-- A document that is read as a widget is checked without a fault. -/
theorem forall_answerable_of_decode {fs : Fields} {w : Widget}
    (h : Widget.decode (.record fs) = .ok w) : ∀ d ∈ widgets (.record fs), Answerable d := by
  intro d hd
  obtain ⟨u, -, hu⟩ := exists_of_mem_forall₂ (Widget.forall₂_widgets_of_decode h).flip hd
  exact Widget.answerable_of_decode hu

end RawWidget

namespace Converter

open RawWidget

/-- **Unknown kinds before and after reading.** A check of a document that is read as a widget
answers. The invalid kinds that it reports, and the records of custom widgets that give an unknown
source type, are as many as the unsupported widgets that a conversion counts, and the records of an
unknown kind that give a known source type. Only records of an unknown kind that give the absent
value as their source type can make a difference. -/
theorem unsupportedWidgets_of_check (path : Text) (fs : Fields) (w : Widget)
    (h : Widget.decode (.record fs) = .ok w) :
    ∃ found, check path (.record fs) = .ok found ∧
      Balance (found.countP Finding.isInvalidKind) ((widgets (.record fs)).countP hasUnknownSource)
        (w.walk.countP Widget.isUnsupported) ((widgets (.record fs)).countP hidesUnknownKind)
        ((widgets (.record fs)).countP losesUnknownKind) ∧
      ∀ (c : Converter) (theme : Option Theme) (ds : List Definition) (modes : Entries Theme)
        (r : Conversion), c.convert w theme ds modes = .ok r →
          r.statistics.unsupportedWidgets = w.walk.countP Widget.isUnsupported := by
  have answers := settled fs path
  obtain ⟨found, checked⟩ := answers.ok_iff.2 (forall_answerable_of_decode h)
  rw [checked] at answers
  refine ⟨found, checked, ?_, ?_⟩
  · rw [answers.2]
    exact balance_of_forall₂ (Widget.forall₂_widgets_of_decode h)
  · intro c theme ds modes r hr
    obtain ⟨tokens, node, catalog, after, library, -, -, -, rfl⟩ := convert_eq_ok_iff.1 hr
    rfl

/-- Three widgets that give source types of their own: one is unsupported, and the two others are of
an unknown kind, of which one gives a known source type and the other one the absent value. -/
def unknownKinds : Fields :=
  [("id", .text "page"), ("type", .text "Column"), ("children", .list [
    .record [("id", .text "a"), ("type", .text "custom"), ("sourceType", .text "FancyBox")],
    .record [("id", .text "b"), ("type", .text "FancyBox"), ("sourceType", .text "Row")],
    .record [("id", .text "c"), ("type", .text "FancyBox"), ("sourceType", .null)]])]

theorem unsupportedWidgets_of_unknownKinds :
    ∃ w found, Widget.decode (.record unknownKinds) = .ok w ∧
      check "root" (.record unknownKinds) = .ok found ∧
      Balance (found.countP Finding.isInvalidKind) 1 (w.walk.countP Widget.isUnsupported) 1 1 ∧
      found.countP Finding.isInvalidKind = 2 ∧ w.walk.countP Widget.isUnsupported = 1 := by
  have unknown : (widgets (.record unknownKinds)).countP hasUnknownSource = 1 := by decide +kernel
  have hidden : (widgets (.record unknownKinds)).countP hidesUnknownKind = 1 := by decide +kernel
  have lost : (widgets (.record unknownKinds)).countP losesUnknownKind = 1 := by decide +kernel
  have invalid : (check "root" (.record unknownKinds)).toOption.map
      (fun found => found.countP Finding.isInvalidKind) = some 2 := by decide +kernel
  have unsupported : (Widget.decode (.record unknownKinds)).toOption.map
      (fun w => w.walk.countP Widget.isUnsupported) = some 1 := by decide +kernel
  cases h : Widget.decode (.record unknownKinds) with
  | ok w =>
    obtain ⟨found, checked, balance, -⟩ := unsupportedWidgets_of_check "root" unknownKinds w h
    rw [unknown, hidden, lost] at balance
    rw [checked] at invalid
    rw [h] at unsupported
    exact ⟨w, found, rfl, checked, balance, Option.some.inj invalid, Option.some.inj unsupported⟩
  | failed issues =>
    rw [h] at unsupported
    cases unsupported

/-- An unsupported widget of a known kind: the check of the document finds nothing. -/
theorem unsupported_custom_unnoticed :
    let box : Fields := [("id", .text "a"), ("type", .text "custom"),
      ("sourceType", .text "FancyBox")]
    check "root" (.record box) = .ok [] ∧
      (Widget.decode (.record box)).toOption.map (fun w => w.walk.countP Widget.isUnsupported) =
        some 1 := by
  intro box
  exact ⟨rfl, by decide +kernel⟩

end Converter

end DesignTree
