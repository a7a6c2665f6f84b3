import DesignTree.Proofs.Style.Change
import DesignTree.Proofs.Style.Edit

/-! # What changes come to, told without the node

An account says of a change of a node what it writes, what it reports, and the rejection that ends
it, whatever the node was before: `a.For c t` says that it does so on all nodes with the traits `t`.
Accounts of changes that are made one after the other are put together by `Account.andThen`, so that
a whole styling has an account as soon as its steps have one.
-/

namespace DesignTree

/-! ## Results -/

namespace StyleResult

variable {a b c : StyleResult}

/-- A result that succeeds exactly if it has no error. -/
def Sound (r : StyleResult) : Prop := r.success = r.errors.isEmpty

theorem Sound.merge (ha : a.Sound) (hb : b.Sound) : (a.merge b).Sound := by
  unfold Sound StyleResult.merge at *
  simp only
  rw [ha, hb]
  cases a.errors <;> cases b.errors <;> rfl

theorem Sound.settled_eq (h : a.Sound) : a.settled = a := by
  rw [settled, ← h]

theorem Sound.merge_empty (h : a.Sound) : a.merge {} = a := by
  unfold Sound at h
  cases a
  simp_all [StyleResult.merge]

theorem Sound.empty_merge (h : a.Sound) : StyleResult.merge {} a = a := by
  unfold Sound at h
  cases a
  simp_all [StyleResult.merge]

theorem merge_assoc (a b c : StyleResult) : (a.merge b).merge c = a.merge (b.merge c) := by
  have success : ((a.merge b).merge c).success = (a.merge (b.merge c)).success := by
    simp only [StyleResult.merge]
    cases a.errors <;> cases b.errors <;> cases c.errors <;> simp [Bool.and_assoc]
  simp_all [StyleResult.merge, List.append_assoc]

end StyleResult

/-! ## Accounts -/

/-- What a change of a node comes to: what it writes, what it reports, and the rejection that ends
it, if there is one. -/
@[ext]
structure Account where
  edit : Edit := {}
  result : StyleResult := {}
  rejection : Option Rejection := none
  sound : result.Sound := by rfl

namespace Account

/-! ### Single changes -/

/-- Nothing is written, and nothing reported. -/
def nothing : Account := {}

/-- An edit that applies properties. -/
def applied (edit : Edit) (properties : List Text) : Account :=
  { edit, result := { applied := properties } }

/-- A binding of a property. -/
def bound (property : Text) (b : Binding) : Account := { result := .ofBinding property b }

/-- An error, and nothing else. -/
def error (message : Text) : Account := { result := .ofError message }

/-- A warning, and nothing else. -/
def warning (message : Text) : Account := { result := .ofWarning message }

/-- A rejection that ends a change which has made an edit so far. -/
def ended (edit : Edit) (rejection : Rejection) : Account := { edit, rejection := some rejection }

@[simp]
theorem edit_nothing : nothing.edit = {} := rfl

@[simp]
theorem edit_applied (edit : Edit) (properties : List Text) :
    (applied edit properties).edit = edit := rfl

@[simp]
theorem edit_error (message : Text) : (error message).edit = {} := rfl

@[simp]
theorem edit_warning (message : Text) : (warning message).edit = {} := rfl

@[simp]
theorem edit_ended (edit : Edit) (rejection : Rejection) : (ended edit rejection).edit = edit := rfl

/-! ### Changes one after the other -/

/-- What comes of a change: its rejection, or else what it reports. -/
def outcome (a : Account) : Except Rejection StyleResult :=
  match a.rejection with
  | some rejection => .error rejection
  | none => .ok a.result

/-- The account of two changes one after the other. The second one is not made after a
rejection. -/
def andThen (a b : Account) : Account :=
  match a.rejection with
  | some _ => a
  | none => {
      edit := a.edit ++ b.edit
      result := a.result.merge b.result
      rejection := b.rejection
      sound := a.sound.merge b.sound }

/-- The account of changes one after the other. -/
def all (as : List Account) : Account := as.foldr andThen nothing

@[simp]
theorem all_cons (a : Account) (as : List Account) : all (a :: as) = a.andThen (all as) := rfl

section

variable {a b : Account}

theorem outcome_of_complete (h : a.rejection = none) : a.outcome = .ok a.result := by
  rw [outcome, h]

theorem andThen_of_rejection {rejection : Rejection} (h : a.rejection = some rejection) :
    a.andThen b = a := by
  rw [andThen]
  split
  · rfl
  · next hn => rw [hn] at h; cases h

section

variable (h : a.rejection = none)

include h

theorem edit_andThen : (a.andThen b).edit = a.edit ++ b.edit := by
  unfold andThen
  split
  · next hs => cases hs.symm.trans h
  · rfl

theorem result_andThen : (a.andThen b).result = a.result.merge b.result := by
  unfold andThen
  split
  · next hs => cases hs.symm.trans h
  · rfl

theorem rejection_andThen : (a.andThen b).rejection = b.rejection := by
  unfold andThen
  split
  · next hs => cases hs.symm.trans h
  · rfl

end

end

theorem nothing_andThen (a : Account) : nothing.andThen a = a :=
  Account.ext a.edit.empty_append a.sound.empty_merge rfl

theorem andThen_nothing (a : Account) : a.andThen nothing = a := by
  cases h : a.rejection with
  | some rejection => exact andThen_of_rejection h
  | none =>
    refine Account.ext ?_ ?_ ((rejection_andThen h).trans h.symm)
    · exact (edit_andThen h).trans a.edit.append_empty
    · exact (result_andThen h).trans a.sound.merge_empty

theorem andThen_assoc (a b c : Account) : (a.andThen b).andThen c = a.andThen (b.andThen c) := by
  cases ha : a.rejection with
  | some rejection => rw [andThen_of_rejection ha, andThen_of_rejection ha, andThen_of_rejection ha]
  | none =>
    have first : (a.andThen b).rejection = b.rejection := rejection_andThen ha
    cases hb : b.rejection with
    | some rejection => rw [andThen_of_rejection hb, andThen_of_rejection (first.trans hb)]
    | none =>
      rw [hb] at first
      refine Account.ext ?_ ?_ ?_
      · rw [edit_andThen first, edit_andThen ha, edit_andThen ha, edit_andThen hb,
          Edit.append_assoc]
      · rw [result_andThen first, result_andThen ha, result_andThen ha, result_andThen hb,
          StyleResult.merge_assoc]
      · rw [rejection_andThen first, rejection_andThen ha, rejection_andThen hb]

theorem all_append (as bs : List Account) : all (as ++ bs) = (all as).andThen (all bs) := by
  induction as with
  | nil => exact (nothing_andThen _).symm
  | cons a as ih => rw [List.cons_append, all_cons, all_cons, ih, andThen_assoc]

theorem rejection_andThen_eq_none_iff {a b : Account} :
    (a.andThen b).rejection = none ↔ a.rejection = none ∧ b.rejection = none := by
  cases h : a.rejection with
  | none => rw [rejection_andThen h, eq_self_iff_true, true_and]
  | some rejection =>
    rw [andThen_of_rejection h, h]
    simp

theorem rejection_all_iff {as : List Account} :
    (all as).rejection = none ↔ ∀ a ∈ as, a.rejection = none := by
  induction as with
  | nil => exact iff_of_true rfl fun _ h => nomatch h
  | cons a as ih =>
    rw [all_cons, rejection_andThen_eq_none_iff, ih, List.forall_mem_cons]

/-- A list that is read off accounts and only grows with further changes is put together from those
of the changes, if no rejection ends them. -/
theorem read_all {β : Type} (f : Account → List β) (empty : f nothing = [])
    (append : ∀ a b, a.rejection = none → f (a.andThen b) = f a ++ f b) {as : List Account}
    (h : (all as).rejection = none) : f (all as) = as.flatMap f := by
  induction as with
  | nil => exact empty
  | cons a as ih =>
    obtain ⟨ha, has⟩ := rejection_andThen_eq_none_iff.1 h
    rw [all_cons, append a _ ha, ih has, List.flatMap_cons]

/-- What a list of changes reports that no rejection ends. -/
theorem result_all {as : List Account} (h : (all as).rejection = none) :
    (all as).result = {
      success := (as.flatMap (·.result.errors)).isEmpty
      applied := as.flatMap (·.result.applied)
      bindings := as.flatMap (·.result.bindings)
      errors := as.flatMap (·.result.errors)
      warnings := as.flatMap (·.result.warnings) } := by
  have read {β : Type} (f : StyleResult → List β) (empty : f {} = [])
      (merge : ∀ x y : StyleResult, f (x.merge y) = f x ++ f y) :
      f (all as).result = as.flatMap fun a => f a.result :=
    read_all (fun a => f a.result) empty (fun a b ha => by rw [result_andThen ha, merge]) h
  have success : (all as).result.success = (all as).result.errors.isEmpty := (all as).sound
  rw [← read (·.errors) rfl fun _ _ => rfl, ← success, ← read (·.applied) rfl fun _ _ => rfl,
    ← read (·.bindings) rfl fun _ _ => rfl, ← read (·.warnings) rfl fun _ _ => rfl]

/-- What holds of the edits of changes, and of two edits put together, holds of the edit of all of
them, even if a rejection ends them. -/
theorem edit_all {p : Edit → Prop} (empty : p {}) (append : ∀ d e, p d → p e → p (d ++ e))
    {as : List Account} (h : ∀ a ∈ as, p a.edit) : p (all as).edit := by
  induction as with
  | nil => exact empty
  | cons a as ih =>
    obtain ⟨ha, has⟩ := List.forall_mem_cons.1 h
    rw [all_cons]
    cases hr : a.rejection with
    | none =>
      rw [edit_andThen hr]
      exact append _ _ ha (ih has)
    | some rejection =>
      rw [andThen_of_rejection hr]
      exact ha

/-- On all nodes with the traits `t` a change comes to what its account says. -/
def For (a : Account) (c : Resolver.Change StyleResult) (t : Node.Traits) : Prop :=
  ∀ n : Node, n.traits = t → StateT.run (ExceptT.run c) n = (a.outcome, a.edit.apply n)

variable {a b : Account} {c d : Resolver.Change StyleResult} {t : Node.Traits}

theorem for_pure (he : a.edit = {}) (hr : a.rejection = none) : a.For (pure a.result) t := by
  intro n _
  rw [he, Edit.apply_empty, outcome_of_complete hr]
  rfl

theorem for_throw (rejection : Rejection) : (ended {} rejection).For (throw rejection) t :=
  fun n _ => congrArg (Prod.mk _) (Edit.apply_empty n).symm

/-- A change of the properties alone, if an edit makes it. -/
theorem for_modifyProperties {f : NodeProperties → NodeProperties} (hr : a.rejection = none)
    (hp : a.edit.padding = none) (hm : a.edit.margin = none)
    (hf : ∀ p, f p = a.edit.properties p) :
    a.For (do Resolver.modifyProperties f; return a.result) t := by
  intro n _
  rw [Edit.apply_of_unspaced hp hm, ← hf, outcome_of_complete hr]
  rfl

/-- The account of two changes whose results are put together. -/
theorem For.both {put : StyleResult → StyleResult → StyleResult}
    (hput : ∀ x y : StyleResult, x.Sound → y.Sound → put x y = x.merge y) (ha : a.For c t)
    (hb : b.For d t) : (a.andThen b).For (do let x ← c; let y ← d; return put x y) t := by
  intro n hn
  rw [ExceptT.run_bind, StateT.run_bind, ha n hn]
  cases hr : a.rejection with
  | some rejection =>
    rw [andThen_of_rejection hr, outcome, hr]
    rfl
  | none =>
    -- the first change leaves the traits as they are, so the account of the second one holds
    have later := hb (a.edit.apply n) ((a.edit.traits_apply n).trans hn)
    rw [outcome, outcome, edit_andThen hr, rejection_andThen hr, result_andThen hr, hr,
      Edit.apply_append]
    change StateT.run (ExceptT.run (do let y ← d; return put a.result y)) (a.edit.apply n) = _
    rw [ExceptT.run_bind, StateT.run_bind, later, outcome]
    cases b.rejection with
    | some rejection => rfl
    | none =>
      exact congrArg (fun x => ((.ok x : Except Rejection StyleResult), _))
        (hput _ _ a.sound b.sound)

/-- A change is what its account says it is on all nodes. -/
theorem eq_of_for (hc : ∀ t, a.For c t) (hd : ∀ t, a.For d t) : c = d :=
  funext fun n => (hc n.traits n rfl).trans (hd n.traits n rfl).symm

/-- What a change gives that no rejection ends. -/
theorem For.gives {n : Node} (h : a.For c n.traits) (hr : a.rejection = none) :
    Resolver.Gives c n a.result (a.edit.apply n) := by
  unfold Resolver.Gives
  rw [h n rfl, outcome_of_complete hr]

end Account

end DesignTree
