import DesignTree.Widget.Raw

/-! # What a check of documents answers

A check of a record goes through the records that are meant to be widgets (`widgets`). It looks up
the kind of a layout among the kinds there are, and the identifier of a child among those before it.
Lists and records cannot be looked up, so that a check answers exactly if it meets none of them in
these two places (`check_answers_iff`). `Answers` says this of a part of the check, together with
the number of kinds that the part reports as invalid.
-/

namespace DesignTree

/-- Whether a value can be looked up among others: lists and records cannot. -/
def Value.isHashable : Value → Bool
  | .list _ | .record _ => false
  | _ => true

namespace RawWidget

/-! ## The records of a document -/

/-- The values that are meant to be the children of a widget. -/
def children (fs : Fields) : List Value :=
  match fs.get? "children" with
  | some (.list items) => items
  | _ => []

mutual

/-- The records of a document that are meant to be widgets, each one before its children. -/
def widgets : Value → List Fields
  | .record fs => fs :: widgetsAmong fs
  | _ => []

/-- The records below a widget, by its fields. -/
def widgetsAmong : List (Text × Value) → List Fields
  | [] => []
  | (name, v) :: rest => if name = "children" then widgetsOfList v else widgetsAmong rest

def widgetsOfList : Value → List Fields
  | .list items => widgetsOfItems items
  | _ => []

def widgetsOfItems : List Value → List Fields
  | [] => []
  | v :: rest => widgets v ++ widgetsOfItems rest

end

theorem widgetsOfItems_eq_flatMap (vs : List Value) : widgetsOfItems vs = vs.flatMap widgets := by
  induction vs with
  | nil => rfl
  | cons v rest ih => rw [widgetsOfItems, ih, List.flatMap_cons]

theorem widgetsAmong_eq (fs : Fields) : widgetsAmong fs = (children fs).flatMap widgets := by
  induction fs with
  | nil => rfl
  | cons e rest ih =>
    obtain ⟨name, v⟩ := e
    rw [widgetsAmong, children, Entries.get?]
    by_cases h : name = "children"
    · rw [if_pos h, if_pos h]
      cases v with
      | list items => exact widgetsOfItems_eq_flatMap items
      | _ => rfl
    · rw [if_neg h, if_neg h, ih, children]

theorem widgets_record (fs : Fields) :
    widgets (.record fs) = fs :: (children fs).flatMap widgets := by
  rw [widgets, widgetsAmong_eq]

/-- What holds of all widgets of a document, by its own record and its children. -/
theorem forall_mem_widgets {p : Fields → Prop} {fs : Fields} :
    (∀ d ∈ widgets (.record fs), p d) ↔
      p fs ∧ ∀ gs, .record gs ∈ children fs → ∀ d ∈ widgets (.record gs), p d := by
  rw [widgets_record, List.forall_mem_cons]
  refine and_congr_right fun _ => ?_
  constructor
  · intro all gs hg d hd
    exact all d (List.mem_flatMap.2 ⟨_, hg, hd⟩)
  · intro all d hd
    obtain ⟨v, hv, hd⟩ := List.mem_flatMap.1 hd
    cases v with
    | record gs => exact all gs hv d hd
    | _ => exact absurd hd List.not_mem_nil

theorem sizeOf_lt_of_mem_children {fs gs : Fields} (h : .record gs ∈ children fs) :
    sizeOf gs < sizeOf fs := by
  unfold children at h
  split at h
  · next items hitems =>
    have field := List.sizeOf_lt_of_mem (Entries.mem_of_get? hitems)
    have item := List.sizeOf_lt_of_mem h
    simp only [Prod.mk.sizeOf_spec, Value.list.sizeOf_spec, Value.record.sizeOf_spec] at field item
    omega
  · exact absurd h List.not_mem_nil

/-- What holds of a record as soon as it holds of its children that are records holds of all
records. -/
theorem induct {motive : Fields → Prop}
    (step : ∀ fs, (∀ gs, .record gs ∈ children fs → motive gs) → motive fs) (fs : Fields) :
    motive fs :=
  step fs fun gs _ => induct step gs
termination_by sizeOf fs
decreasing_by exact sizeOf_lt_of_mem_children ‹_›

/-! ## What can be looked up -/

/-- The kind of a layout can be looked up. -/
def LayoutHashable (fs : Fields) : Prop :=
  ∀ layout, fs.get? "layout" = some (.record layout) →
    ((Entries.get? layout "type").getD .null).isHashable = true

/-- An identifier can be looked up, unless it counts as none. -/
def IdHashable (fs : Fields) : Prop :=
  ∀ id, fs.get? "id" = some id → id.isTruthy = true → id.isHashable = true

/-- A record in which all that a check looks up can be looked up: the kind of its layout, and the
identifiers of its children. -/
structure Answerable (fs : Fields) : Prop where
  layout : LayoutHashable fs
  ids : ∀ child, .record child ∈ children fs → IdHashable child

/-! ## Parts of a check -/

/-- Whether a finding is about the name of a kind that is none. -/
def Finding.isInvalidKind (f : Finding) : Bool := f.message.startsWith "Invalid widget type: "

/-- Whether a record names a kind, and this is none. -/
def hasInvalidKind (fs : Fields) : Bool := (fs.get? "type").any fun v => !namesKind v

/-- A part of a check that answers exactly if `p` holds, and then has `n` findings about kinds that
are none. Otherwise it meets a value that cannot be looked up. -/
def Answers (part : Except Fault (List Finding)) (p : Prop) (n : Nat) : Prop :=
  match part with
  | .ok found => p ∧ found.countP Finding.isInvalidKind = n
  | .error fault => ¬p ∧ ∃ v : Value, v.isHashable = false ∧ fault = .unhashable v

namespace Answers

variable {x y : Except Fault (List Finding)} {p q : Prop} {n m : Nat}

theorem congr (h : Answers x p n) (hp : p ↔ q) (hn : n = m) : Answers x q m := by
  rwa [← propext hp, ← hn]

/-- Two parts one after the other, with findings before theirs. -/
theorem append (hx : Answers x p n) (hy : Answers y q m) (before : List Finding) :
    Answers (do let a ← x; let b ← y; return before ++ a ++ b) (p ∧ q)
      (before.countP Finding.isInvalidKind + n + m) := by
  cases x with
  | error fault => exact ⟨fun h => hx.1 h.1, hx.2⟩
  | ok a =>
    cases y with
    | error fault => exact ⟨fun h => hy.1 h.2, hy.2⟩
    | ok b =>
      refine ⟨⟨hx.1, hy.1⟩, ?_⟩
      rw [List.countP_append, List.countP_append, hx.2, hy.2]

/-- A finding about something else before a part. -/
theorem cons (hx : Answers x p n) {f : Finding} (hf : f.isInvalidKind = false) :
    Answers (do let a ← x; return f :: a) p n := by
  cases x with
  | error fault => exact hx
  | ok a =>
    refine ⟨hx.1, ?_⟩
    rw [List.countP_cons_of_neg (by simp [hf])]
    exact hx.2

theorem ok_iff (h : Answers x p n) : (∃ found, x = .ok found) ↔ p := by
  cases x with
  | error fault => exact iff_of_false (by simp) h.1
  | ok found => exact iff_of_true ⟨found, rfl⟩ h.1

end Answers

/-- What is wrong with the names of a record. -/
def nameFindings (path : Text) (fs : Fields) : List Finding :=
  (if Entries.has fs "id" then [] else [missingField path "id"]) ++
    match fs.get? "type" with
    | none => [missingField path "type"]
    | some kind =>
      if namesKind kind then []
      else [⟨path, "Invalid widget type: " ++ Literal.text kind, "invalid_enum"⟩]

theorem checkNames_record (path : Text) (fs : Fields) :
    checkNames path (.record fs) = .ok (nameFindings path fs) := by
  unfold nameFindings
  cases hk : fs.get? "type" with
  | none =>
    simp only [checkNames, holds, Entries.has, hk]
    rfl
  | some kind =>
    cases hn : namesKind kind <;>
      simp [checkNames, holds, part, Entries.has, hk, hn, bind, Except.bind, pure, Except.pure] <;>
      rfl

theorem countP_nameFindings (path : Text) (fs : Fields) :
    (nameFindings path fs).countP Finding.isInvalidKind = (hasInvalidKind fs).toNat := by
  have missing : (if Entries.has fs "id" then [] else [missingField path "id"]).countP
      Finding.isInvalidKind = 0 := by split <;> rfl
  unfold nameFindings hasInvalidKind
  rw [List.countP_append, missing]
  cases fs.get? "type" with
  | none => rfl
  | some kind =>
    rw [Option.any_some]
    cases hn : namesKind kind with
    | true => simp only [hn, if_true]; rfl
    | false => simp only [hn, Bool.false_eq_true, if_false]; rfl

theorem namesLayout_of_isHashable {kind : Value} (h : kind.isHashable = true) :
    ∃ known, namesLayout kind = .ok known := by
  cases kind with
  | list items => cases h
  | record fs => cases h
  | _ => exact ⟨_, rfl⟩

theorem namesLayout_of_not_isHashable {kind : Value} (h : kind.isHashable = false) :
    namesLayout kind = .error (.unhashable kind) := by
  cases kind with
  | list items => rfl
  | record fs => rfl
  | _ => cases h

theorem answers_checkLayout (path : Text) (fs : Fields) :
    Answers (checkLayout path fs) (LayoutHashable fs) 0 := by
  unfold checkLayout LayoutHashable
  split
  · next h => exact ⟨by simp [h], rfl⟩
  · next h => exact ⟨by simp [h], rfl⟩
  · next layout h =>
    simp only [h, Option.some.injEq, Value.record.injEq, forall_eq']
    generalize (Entries.get? layout "type").getD .null = kind
    cases hk : kind.isHashable with
    | true =>
      obtain ⟨known, hn⟩ := namesLayout_of_isHashable hk
      rw [hn]
      cases known <;> exact ⟨rfl, rfl⟩
    | false =>
      rw [namesLayout_of_not_isHashable hk]
      exact ⟨Bool.false_ne_true, kind, hk, rfl⟩
  · next v hn hr h =>
    refine ⟨fun layout hl => ?_, rfl⟩
    exact absurd (Option.some_inj.1 (h.symm.trans hl)) (hr layout)

/-- The identifier of a child is found, unless it is one that cannot be looked up. -/
theorem childId?_outcome (fs : Fields) :
    match childId? fs with
    | .ok _ => IdHashable fs
    | .error fault => ¬IdHashable fs ∧ ∃ v : Value, v.isHashable = false ∧ fault = .unhashable v := by
  unfold childId? IdHashable
  cases h : fs.get? "id" with
  | none => simp
  | some v =>
    simp only [Option.some.injEq, forall_eq']
    cases ht : v.isTruthy with
    | false => simp
    | true =>
      cases v with
      | null => cases ht
      | list items => exact ⟨fun all => Bool.false_ne_true (all rfl), .list items, rfl, rfl⟩
      | record gs => exact ⟨fun all => Bool.false_ne_true (all rfl), .record gs, rfl, rfl⟩
      | _ => exact fun _ => rfl

/-! ## Whole checks -/

/-- A check of a record answers exactly if all that it looks up in the records of the document can
be looked up, and it reports each record of an invalid kind. -/
def Settled (fs : Fields) : Prop :=
  ∀ path, Answers (check path (.record fs)) (∀ d ∈ widgets (.record fs), Answerable d)
    ((widgets (.record fs)).countP hasInvalidKind)

/-- What holds of all records of a list holds of the one in front and of all later ones. -/
theorem forall_record_cons {p : Fields → Prop} {fs : Fields} {rest : List Value} :
    (∀ gs, .record gs ∈ Value.record fs :: rest → p gs) ↔
      p fs ∧ ∀ gs, .record gs ∈ rest → p gs := by
  constructor
  · intro all
    exact ⟨all fs List.mem_cons_self, fun gs hg => all gs (List.mem_cons_of_mem _ hg)⟩
  · rintro ⟨first, later⟩ gs hg
    rcases List.mem_cons.1 hg with same | hg
    · cases same
      exact first
    · exact later gs hg

theorem answers_checkItems {items : List Value} (settled : ∀ gs, .record gs ∈ items → Settled gs)
    (path : Text) (i : Nat) (seen : List ChildId) :
    Answers (checkItems path i seen items)
      (∀ gs, .record gs ∈ items → IdHashable gs ∧ ∀ d ∈ widgets (.record gs), Answerable d)
      ((items.flatMap widgets).countP hasInvalidKind) := by
  induction items generalizing i seen with
  | nil => exact ⟨by simp, rfl⟩
  | cons v rest ih =>
    have others (seen : List ChildId) := ih (fun gs h => settled gs (List.mem_cons_of_mem v h))
      (i + 1) seen
    rw [List.flatMap_cons, List.countP_append]
    cases v with
    | record fs =>
      have own := settled fs List.mem_cons_self (childPath path i)
      have outcome := childId?_outcome fs
      rw [checkItems]
      cases hid : childId? fs with
      | error fault =>
        rw [hid] at outcome
        refine ⟨fun all => ?_, outcome.2⟩
        exact outcome.1 (all fs List.mem_cons_self).1
      | ok id =>
        rw [hid] at outcome
        have found : IdHashable fs := outcome
        refine (own.append (others _) _).congr ?_ ?_
        · rw [forall_record_cons, and_iff_right found]
        · rw [Nat.add_right_cancel_iff, Nat.add_eq_right]
          split
          · split <;> rfl
          · rfl
    | _ =>
      exact ((others seen).cons rfl).congr (by simp) (by simp [widgets])

theorem checkChildren_eq (path : Text) (fs : Fields) :
    checkChildren path fs =
      match fs.get? "children" with
      | some v => checkChildList path v
      | none => .ok [] := by
  induction fs with
  | nil => rfl
  | cons e rest ih =>
    obtain ⟨name, v⟩ := e
    rw [checkChildren, Entries.get?]
    by_cases hn : name = "children"
    · rw [if_pos hn, if_pos hn]
    · rw [if_neg hn, if_neg hn, ih]

theorem answers_checkChildren {path : Text} {fs : Fields} {p : Prop} {n : Nat}
    (h : Answers (checkItems path 0 [] (children fs)) p n) :
    Answers (checkChildren path fs) p n := by
  rw [checkChildren_eq]
  unfold children at h
  cases hv : fs.get? "children" with
  | none =>
    rw [hv] at h
    exact h
  | some v =>
    rw [hv] at h
    cases v with
    | list items => exact h
    | _ => exact h

/-- Every check of a record is settled. -/
theorem settled (fs : Fields) : Settled fs := by
  induction fs using induct with
  | step fs ih =>
    intro path
    have below := answers_checkChildren (answers_checkItems ih path 0 [])
    rw [check, checkNames_record]
    refine ((answers_checkLayout path fs).append below (nameFindings path fs)).congr ?_ ?_
    · rw [forall_mem_widgets]
      constructor
      · rintro ⟨layout, all⟩
        exact ⟨⟨layout, fun gs hg => (all gs hg).1⟩, fun gs hg => (all gs hg).2⟩
      · rintro ⟨own, all⟩
        exact ⟨own.layout, fun gs hg => ⟨own.ids gs hg, all gs hg⟩⟩
    · rw [widgets_record, List.countP_cons, countP_nameFindings]
      cases hasInvalidKind fs <;> simp [Nat.add_comm]

/-- A check of a record answers exactly if no kind of a layout and no identifier of a child in the
document is a list or a record, empty identifiers apart. It ends in no other fault than that such a
value cannot be looked up. -/
theorem check_answers_iff (path : Text) (fs : Fields) :
    ((∃ found, check path (.record fs) = .ok found) ↔
        ∀ d ∈ widgets (.record fs), Answerable d) ∧
      ∀ fault, check path (.record fs) = .error fault →
        ∃ v : Value, v.isHashable = false ∧ fault = .unhashable v := by
  have answers := settled fs path
  refine ⟨answers.ok_iff, fun fault h => ?_⟩
  rw [h] at answers
  exact answers.2

/-- The kind of a layout is looked up before anything is known of it. -/
theorem check_layout_of_list :
    check "root" (.record [("id", .text "a"), ("type", .text "row"),
      ("layout", .record [("type", .list [.text "row"])])]) =
      .error (.unhashable (.list [.text "row"])) := by
  rfl

end RawWidget

end DesignTree
