import DesignTree.Proofs.Data.Grouping
import DesignTree.Proofs.Run.Return
import DesignTree.Proofs.Tree.Basic
import DesignTree.Proofs.Widget.Raw
import DesignTree.Proofs.Widget.SourceType

/-! # Widgets and the records they are read from

Where a document is read as a widget tree, each record of it that is meant to be a widget is read as
the widget at its place in the walk (`forall₂_widgets_of_decode`). Such a record names its kind by a
text, and nothing in it stands in the way of a check (`answerable_of_decode`).
-/

namespace DesignTree

theorem Decoded.list_eq_ok_iff {α : Type} {read : Value → Decoded α} {v : Value} {xs : List α} :
    Decoded.list read v = .ok xs ↔
      ∃ vs, v = .list vs ∧ List.Forall₂ (fun v x => read v = .ok x) vs xs := by
  have items (i : Nat) (vs : List Value) : Decoded.items read i vs = .ok xs ↔
      List.Forall₂ (fun v x => read v = .ok x) vs xs := by
    induction vs generalizing i xs with
    | nil => simp [Decoded.items, eq_comm]
    | cons v rest ih =>
      rw [Decoded.items, seq_eq_ok_iff]
      constructor
      · rintro ⟨_, others, hv, ho, rfl⟩
        obtain ⟨x, hx, rfl⟩ := map_eq_ok_iff.1 hv
        exact .cons (under_eq_ok_iff.1 hx) ((ih (i + 1)).1 ho)
      · intro h
        cases h with
        | @cons _ x _ others hx ho =>
          exact ⟨List.cons x, others, map_eq_ok_iff.2 ⟨x, under_eq_ok_iff.2 hx, rfl⟩,
            (ih (i + 1)).2 ho, rfl⟩
  cases v with
  | list vs => simpa [Decoded.list] using items 0 vs
  | _ => simp [Decoded.list, Decoded.fail]

theorem Fields.required_word_eq_ok_iff {α : Type} {fs : Fields} {name : Text}
    {read : Value → Decoded α} {a : α} :
    fs.required (.word name) read = .ok a ↔ ∃ v, fs.get? name = some v ∧ read v = .ok a := by
  rw [required, Key.find?_word]
  cases fs.get? name with
  | none => simp [Decoded.fail, Decoded.under]
  | some v => simp [Decoded.under_eq_ok_iff]

theorem Decoded.exists_text_of_spelled {α : Type} [Spelled α] {v : Value} {a : α}
    (h : Decoded.spelled v = .ok a) : ∃ s, v = .text s := by
  cases v with
  | text s => exact ⟨s, rfl⟩
  | _ => cases h

theorem WidgetKind.spelled_ofSpelled (k : WidgetKind) :
    Decoded.spelled (.ofSpelled k) = .ok k := by
  cases k <;> rfl

/-- The kind of a layout that is read is named by a text. -/
theorem Layout.exists_kind_of_decode {fs : Fields} {l : Layout} (h : decode (.record fs) = .ok l) :
    ∃ s, fs.get? "type" = some (.text s) := by
  cases hk : fs.required (.word "type") (Decoded.spelled (α := LayoutKind)) with
  | failed issues =>
    have unnamed : (Decoded.failed issues : Decoded LayoutKind).isOk = false := rfl
    have refused : (decode (.record fs)).isOk = false := by
      simp [decode, Decoded.record, hk, unnamed]
    rw [h] at refused
    cases refused
  | ok k =>
    obtain ⟨v, hv, hs⟩ := Fields.required_word_eq_ok_iff.1 hk
    obtain ⟨s, rfl⟩ := Decoded.exists_text_of_spelled hs
    exact ⟨s, hv⟩

namespace Widget

open RawWidget (widgets)

variable {fs : Fields} {w : Widget}

/-- The children of a widget are read from the values that are meant to be them. -/
theorem forall₂_children_of_decode (h : decode (.record fs) = .ok w) :
    List.Forall₂ (fun v u => decode v = .ok u) (RawWidget.children fs) w.children := by
  rw [decode_record, ofFields_eq_ok_iff] at h
  obtain ⟨-, -, -, -, hc, -⟩ := h
  rw [Fields.orElse_eq_ok_iff, Key.find?_word, Option.map_map] at hc
  unfold RawWidget.children
  rcases hc with ⟨absent, none⟩ | ⟨v, present, list⟩
  · rw [Option.map_eq_none_iff.1 absent, none]
    exact .nil
  · obtain ⟨found, hf, rfl⟩ := Option.map_eq_some_iff.1 present
    obtain ⟨vs, rfl, hvs⟩ := Decoded.list_eq_ok_iff.1 list
    rw [hf]
    exact hvs

/-- Each widget of a tree is read from the record at its place. -/
theorem forall₂_widgets_of_decode {v : Value} (h : decode v = .ok w) :
    List.Forall₂ (fun d u => decode (.record d) = .ok u) (widgets v) w.walk := by
  induction w using Widget.induct generalizing v with
  | step w ih =>
    cases v with
    | record fs =>
      rw [RawWidget.widgets_record, walk_eq, walkAll_eq_flatMap]
      refine .cons h ?_
      have below := forall₂_children_of_decode h
      generalize RawWidget.children fs = vs, w.children = ws at below ih
      induction below with
      | nil => exact .nil
      | @cons c u _ _ first _ ihr =>
        rw [List.flatMap_cons, List.flatMap_cons]
        exact List.rel_append (ih u List.mem_cons_self first)
          (ihr fun x hx => ih x (List.mem_cons_of_mem u hx))
    | _ => cases h

/-! ## Single records -/

/-- The kind of a widget is the one that its record names, or the one of unknown names. -/
theorem kind_of_decode (h : decode (.record fs) = .ok w) :
    ∃ raw, fs.get? "type" = some (.text raw) ∧
      w.kind = (WidgetKind.resolve? raw).getD .custom := by
  rw [decode_record, ofFields_eq_ok_iff] at h
  obtain ⟨v, hv, hk⟩ := Fields.required_word_eq_ok_iff.1 h.2.1
  rw [get?_type_resolveKind, Option.map_eq_some_iff] at hv
  obtain ⟨named, ht, rfl⟩ := hv
  cases named with
  | text raw =>
    rw [kindValue, WidgetKind.spelled_ofSpelled] at hk
    exact ⟨raw, ht, (Decoded.ok.inj hk).symm⟩
  | _ => cases hk

/-- The source type of a widget is what is found under the two spellings of it. -/
theorem source_of_decode (h : decode (.record fs) = .ok w) :
    (source? fs).getD .null = .ofOption .text w.sourceType := by
  rw [decode_record, ofFields_eq_ok_iff] at h
  exact optional_sourceKey_eq_ok_iff.1 h.2.2.1

theorem exists_id_of_decode (h : decode (.record fs) = .ok w) :
    ∃ s, fs.get? "id" = some (.text s) := by
  have differs : ("id" : Text) ≠ "type" ∧ ("id" : Text) ≠ "sourceType" := by
    simp [Text.ofString_inj]
  rw [decode_record, ofFields_eq_ok_iff] at h
  obtain ⟨id, hid, read⟩ := Fields.required_word_eq_ok_iff.1 h.1
  rw [get?_resolveKind fs differs.1 differs.2] at hid
  cases id with
  | text s => exact ⟨s, hid⟩
  | _ => cases read

/-- A layout among the fields of a widget that is read is read itself. -/
theorem exists_layout_of_decode (h : decode (.record fs) = .ok w) {layout : Fields}
    (hl : fs.get? "layout" = some (.record layout)) :
    ∃ l, Layout.decode (.record layout) = .ok l := by
  have differs : ("layout" : Text) ≠ "type" ∧ ("layout" : Text) ≠ "sourceType" := by
    simp [Text.ofString_inj]
  rw [decode_record, ofFields_eq_ok_iff] at h
  obtain ⟨-, -, -, -, -, -, read, -⟩ := h
  rw [Fields.optional, Fields.orElse_eq_ok_iff, Key.find?_word,
    get?_resolveKind fs differs.1 differs.2, hl] at read
  rcases read with ⟨absent, -⟩ | ⟨v, hv, read⟩
  · cases absent
  · cases hv
    obtain ⟨l, hl, -⟩ := Decoded.map_eq_ok_iff.1 read
    exact ⟨l, hl⟩

/-- Whatever is read as a widget stands in the way of no check. -/
theorem answerable_of_decode (h : decode (.record fs) = .ok w) : RawWidget.Answerable fs := by
  constructor
  · intro layout hl
    obtain ⟨l, read⟩ := exists_layout_of_decode h hl
    obtain ⟨s, hs⟩ := Layout.exists_kind_of_decode read
    rw [hs]
    rfl
  · intro child hc id hid _
    obtain ⟨u, -, hu⟩ := exists_of_mem_forall₂ (forall₂_children_of_decode h).flip hc
    obtain ⟨s, hs⟩ := exists_id_of_decode hu
    rw [hs] at hid
    cases hid
    rfl

end Widget

end DesignTree
