import DesignTree.Lowering.Placement
import DesignTree.Proofs.Run.Outcome
import Mathlib.Data.List.Forall2

/-! # When operations return

An operation returns in a run if it yields anything there. Of two operations one after the other the
second one may return or not by what the first one gave; where this makes no difference, the two
return together exactly if each of them does (`returns_bind_of`).
-/

namespace DesignTree

/-! ## Results -/

section

variable {ε α β : Type}

theorem isOk_iff {e : Except ε α} : e.isOk = true ↔ ∃ a, e = .ok a := by
  cases e <;> simp [Except.isOk, Except.toBool]

theorem exists_of_any {e : Except ε α} {p : α → Bool} (h : e.toOption.any p = true) :
    ∃ a, e = .ok a ∧ p a = true := by
  cases e with
  | error e => cases h
  | ok a => exact ⟨a, rfl, h⟩

@[simp]
theorem isOk_ok (a : α) : (.ok a : Except ε α).isOk = true := rfl

@[simp]
theorem isOk_error (e : ε) : (.error e : Except ε α).isOk = false := rfl

@[simp]
theorem isOk_map (f : α → β) (e : Except ε α) : (e.map f).isOk = e.isOk := by
  cases e <;> rfl

theorem isOk_bind {e : Except ε α} {f : α → Except ε β} {b : Bool}
    (h : ∀ a, e = .ok a → (f a).isOk = b) : (e >>= f).isOk = (e.isOk && b) := by
  cases e with
  | error e => rfl
  | ok a => exact h a rfl

theorem isOk_mapM (f : α → Except ε β) (xs : List α) :
    (xs.mapM f).isOk = xs.all fun x => (f x).isOk := by
  induction xs with
  | nil => rfl
  | cons x rest ih =>
    rw [List.mapM_cons, List.all_cons, ← ih]
    exact isOk_bind fun y _ => by cases rest.mapM f <;> rfl

theorem forall₂_of_mapM {f : α → Except ε β} {xs : List α} {ys : List β}
    (h : xs.mapM f = .ok ys) : List.Forall₂ (fun x y => f x = .ok y) xs ys := by
  induction xs generalizing ys with
  | nil =>
    cases h
    exact .nil
  | cons x rest ih =>
    rw [List.mapM_cons] at h
    cases hx : f x with
    | error fault => simp [hx, bind, Except.bind] at h
    | ok y =>
      cases hr : rest.mapM f with
      | error fault => simp [hx, hr, bind, Except.bind] at h
      | ok others =>
        rw [hx, hr] at h
        cases h
        exact .cons hx (ih hr)

end

theorem orFault_eq_ok_iff {α : Type} {model : Text} {d : Decoded α} {a : α} :
    d.orFault model = .ok a ↔ d = .ok a := by
  cases d with
  | ok b => simp [Decoded.orFault]
  | failed issues =>
    simp only [Decoded.orFault]
    split <;> simp

namespace Decoded

variable {α β : Type}

/-- Whether a reading gave a model. -/
def isOk : Decoded α → Bool
  | .ok _ => true
  | .failed _ => false

@[simp]
theorem isOk_pure (a : α) : (Decoded.ok a).isOk = true := rfl

@[simp]
theorem isOk_mapped (f : α → β) (d : Decoded α) : (f <$> d).isOk = d.isOk := by
  cases d <;> rfl

@[simp]
theorem isOk_seq (f : Decoded (α → β)) (d : Decoded α) : (f <*> d).isOk = (f.isOk && d.isOk) := by
  cases f <;> cases d <;> rfl

@[simp]
theorem isOk_under (part : Text) (d : Decoded α) : (d.under part).isOk = d.isOk := by
  cases d <;> rfl

@[simp]
theorem isOk_asModel (model : Text) (d : Decoded α) : (d.asModel model).isOk = d.isOk := by
  cases d <;> rfl

@[simp]
theorem isOk_orFault (model : Text) (d : Decoded α) : (d.orFault model).isOk = d.isOk := by
  cases d with
  | ok a => rfl
  | failed issues =>
    simp only [orFault]
    split <;> rfl

end Decoded

@[simp]
theorem isOk_lengthAs (name : Text) (n : Number) : (lengthAs name n).isOk = n.fitsDouble := by
  unfold lengthAs
  split
  · next h => rw [h]; rfl
  · next h => rw [Bool.eq_false_iff.2 h]; rfl

@[simp]
theorem isOk_lengthIfAny (name : Text) (n : Option Number) :
    (lengthIfAny name n).isOk = n.all Number.fitsDouble := by
  cases n with
  | none => rfl
  | some n => rw [lengthIfAny, Decoded.isOk_mapped, isOk_lengthAs]; rfl

/-! ## Operations -/

namespace InRun

variable {α β : Type} {run : Run}

/-- Whether an operation yields anything in a run. -/
def Returns (action : InRun α) (run : Run) : Prop := ∃ a after, action.Yields run a after

theorem returns_iff {action : InRun α} :
    action.Returns run ↔ (runFrom run action).1.isOk = true := by
  rw [isOk_iff]
  constructor
  · rintro ⟨a, after, h⟩
    exact ⟨a, congrArg Prod.fst h⟩
  · rintro ⟨a, h⟩
    exact ⟨a, (runFrom run action).2, Prod.ext h rfl⟩

/-- What can be told of the result of an operation can be told of what the operation yields. -/
theorem exists_yields_of_any {action : InRun α} {p : α → Bool}
    (h : (runFrom run action).1.toOption.any p = true) :
    ∃ a after, action.Yields run a after ∧ p a = true := by
  obtain ⟨a, ha, hp⟩ := exists_of_any h
  exact ⟨a, (runFrom run action).2, Prod.ext ha rfl, hp⟩

@[simp]
theorem returns_pure (a : α) : (pure a : InRun α).Returns run := ⟨a, run, rfl⟩

@[simp]
theorem returns_record (ds : Diagnostics) : (record ds).Returns run :=
  ⟨(), run.noting ds, rfl⟩

@[simp]
theorem returns_nextId (stem : Text) : (nextId stem).Returns run :=
  ⟨stem ++ (run.issued + 1).repr, run.counting, rfl⟩

@[simp]
theorem returns_lift {e : Except Fault α} : (lift e).Returns run ↔ e.isOk = true := by
  rw [returns_iff, runFrom_lift]

theorem returns_bind {x : InRun α} {f : α → InRun β} :
    (x >>= f).Returns run ↔ ∃ a mid, x.Yields run a mid ∧ (f a).Returns mid := by
  simp only [Returns, yields_bind]
  constructor
  · rintro ⟨b, after, a, mid, hx, hf⟩
    exact ⟨a, mid, hx, b, after, hf⟩
  · rintro ⟨a, mid, hx, b, after, hf⟩
    exact ⟨b, after, a, mid, hx, hf⟩

/-- Two operations return together if both do, where it makes no difference to the second one what
the first one gave. -/
theorem returns_bind_of {x : InRun α} {f : α → InRun β} {p : Prop}
    (h : ∀ a mid, x.Yields run a mid → ((f a).Returns mid ↔ p)) :
    (x >>= f).Returns run ↔ x.Returns run ∧ p := by
  rw [returns_bind]
  constructor
  · rintro ⟨a, mid, hx, hf⟩
    exact ⟨⟨a, mid, hx⟩, (h a mid hx).1 hf⟩
  · rintro ⟨⟨a, mid, hx⟩, hp⟩
    exact ⟨a, mid, hx, (h a mid hx).2 hp⟩

@[simp]
theorem returns_map {x : InRun α} {f : α → β} : (f <$> x).Returns run ↔ x.Returns run := by
  rw [map_eq_pure_bind, returns_bind_of (p := True) (by simp), and_true]

/-- A list of operations returns exactly if each of them does, where the run makes no difference to
them. -/
theorem returns_mapM {f : α → InRun β} {p : α → Prop} {xs : List α}
    (h : ∀ x ∈ xs, ∀ run, (f x).Returns run ↔ p x) :
    (xs.mapM f).Returns run ↔ ∀ x ∈ xs, p x := by
  induction xs generalizing run with
  | nil => simp
  | cons x rest ih =>
    have hrest (run : Run) : (rest.mapM f).Returns run ↔ ∀ x ∈ rest, p x :=
      ih fun y hy => h y (List.mem_cons_of_mem x hy)
    rw [List.mapM_cons, List.forall_mem_cons, ← h x List.mem_cons_self run]
    refine returns_bind_of fun b mid _ => ?_
    rw [bind_pure_comp, returns_map, hrest]

end InRun

end DesignTree
