import DesignTree.Proofs.Run.Outcome

/-! # Operations that only add to the record

An operation appends if it does not look at what is recorded: with other records in front it comes
to the same result, draws the same identifiers, and leaves those records in front of its own. All
operations of a conversion are of this kind, so that what is recorded early makes no difference to
what comes later, and nothing recorded is lost.

They are so because they are composed of plain operations and of issuing identifiers (`Composed`).
Nor does any of them take back an identifier, whether it returns or ends in a fault
(`Composed.issued_le`).

Of two operations the second one may be known to do what the first one does only where the first one
records no error (`AgreesUnlessError`). For operations one after the other this needs that the later
ones append: no error at the end means that there was none before.
-/

namespace DesignTree

/-- A run with more recorded before all else. -/
def Run.heading (run : Run) (ds : Diagnostics) : Run :=
  { run with diagnostics := ds ++ run.diagnostics }

@[simp]
theorem Run.issued_heading (run : Run) (ds : Diagnostics) :
    (run.heading ds).issued = run.issued := rfl

@[simp]
theorem Run.diagnostics_heading (run : Run) (ds : Diagnostics) :
    (run.heading ds).diagnostics = ds ++ run.diagnostics := rfl

theorem Diagnostics.hasErrors_of_subset {ds es : Diagnostics} (hs : ds ⊆ es)
    (he : es.hasErrors = false) : ds.hasErrors = false := by
  rw [hasErrors, List.any_eq_false] at he ⊢
  exact fun d hd => he d (hs hd)

namespace InRun

variable {α β : Type} {run after : Run}

/-- An operation that does not look at what is recorded, and only adds to it. -/
def Appends (action : InRun α) : Prop :=
  ∀ (run : Run) (ds : Diagnostics), runFrom (run.heading ds) action =
    ((runFrom run action).1, (runFrom run action).2.heading ds)

theorem appends_nextId (stem : Text) : (nextId stem).Appends := fun _ _ => rfl

theorem Plain.appends {action : InRun α} (h : action.Plain) : action.Appends := by
  intro run ds
  rw [h run, h (run.heading ds)]
  simp [Run.heading, Run.noting, List.append_assoc]

theorem Appends.bind {x : InRun α} {f : α → InRun β} (hx : x.Appends) (hf : ∀ a, (f a).Appends) :
    (x >>= f).Appends := by
  intro run ds
  rw [runFrom_bind, runFrom_bind, hx run ds]
  rcases runFrom run x with ⟨_ | a, mid⟩
  · rfl
  · exact hf a mid ds

/-- What was recorded before an operation stands before what the operation records. -/
theorem Appends.extends {x : InRun α} (hx : x.Appends) {a : α} (h : x.Yields run a after) :
    run.diagnostics <+: after.diagnostics := by
  have whole : ({ run with diagnostics := [] } : Run).heading run.diagnostics = run := by
    simp [Run.heading]
  have split := hx { run with diagnostics := [] } run.diagnostics
  rw [whole, show runFrom run x = (.ok a, after) from h, Prod.mk.injEq] at split
  rw [split.2, Run.diagnostics_heading]
  exact List.prefix_append _ _

theorem Appends.grows {x : InRun α} (hx : x.Appends) {a : α} (h : x.Yields run a after) :
    run.diagnostics ⊆ after.diagnostics := (hx.extends h).subset

/-! ## Operations put together -/

/-- An operation that is put together from plain ones and from issuing identifiers. -/
inductive Composed : {α : Type} → InRun α → Prop
  | plain {α : Type} {action : InRun α} : action.Plain → Composed action
  | nextId (stem : Text) : Composed (InRun.nextId stem)
  | bind {α β : Type} {x : InRun α} {f : α → InRun β} :
    Composed x → (∀ a, Composed (f a)) → Composed (x >>= f)

theorem Plain.composed {action : InRun α} (h : action.Plain) : action.Composed := .plain h

theorem composed_pure (a : α) : (pure a : InRun α).Composed := (plain_pure a).composed

theorem composed_throw (fault : Fault) : (throw fault : InRun α).Composed :=
  (plain_throw fault).composed

theorem composed_mapM {f : α → InRun β} (hf : ∀ a, (f a).Composed) (xs : List α) :
    (xs.mapM f).Composed := by
  induction xs with
  | nil => exact composed_pure _
  | cons x rest ih =>
    rw [List.mapM_cons]
    exact (hf x).bind fun b => ih.bind fun _ => composed_pure _

theorem Composed.appends {action : InRun α} (h : action.Composed) : action.Appends := by
  induction h with
  | plain h => exact h.appends
  | nextId stem => exact appends_nextId stem
  | bind _ _ hx hf => exact hx.bind hf

/-- Identifiers that are issued stay issued, also where the operation ends in a fault. -/
theorem Composed.issued_le {action : InRun α} (h : action.Composed) (run : Run) :
    run.issued ≤ (runFrom run action).2.issued := by
  induction h generalizing run with
  | plain h =>
    rw [h run]
    exact Nat.le_refl _
  | nextId stem => exact Nat.le_succ _
  | @bind _ _ x f _ _ hx hf =>
    have first := hx run
    rw [runFrom_bind]
    cases hr : runFrom run x with
    | mk result mid =>
      rw [hr] at first
      cases result with
      | error fault => exact first
      | ok a => exact Nat.le_trans first (hf a mid)

/-! ## Agreement where no error is recorded -/

/-- What the first operation yields with no error on record, the second one yields too. -/
def AgreesUnlessError (x y : InRun α) : Prop :=
  ∀ run a after, x.Yields run a after → after.diagnostics.hasErrors = false → y.Yields run a after

theorem AgreesUnlessError.refl (x : InRun α) : AgreesUnlessError x x := fun _ _ _ h _ => h

theorem AgreesUnlessError.bind {x y : InRun α} {f g : α → InRun β} (hx : AgreesUnlessError x y)
    (hf : ∀ a, AgreesUnlessError (f a) (g a)) (ha : ∀ a, (f a).Composed) :
    AgreesUnlessError (x >>= f) (y >>= g) := by
  intro run b after h he
  obtain ⟨a, mid, hm, hb⟩ := yields_bind.1 h
  have hmid := Diagnostics.hasErrors_of_subset ((ha a).appends.grows hb) he
  exact yields_bind.2 ⟨a, mid, hx run a mid hm hmid, hf a mid b after hb he⟩

theorem AgreesUnlessError.mapM {f g : α → InRun β} (hf : ∀ a, AgreesUnlessError (f a) (g a))
    (ha : ∀ a, (f a).Composed) (xs : List α) : AgreesUnlessError (xs.mapM f) (xs.mapM g) := by
  induction xs with
  | nil => exact .refl _
  | cons x rest ih =>
    rw [List.mapM_cons, List.mapM_cons]
    have others (b : β) : AgreesUnlessError
        (rest.mapM f >>= fun bs => pure (b :: bs)) (rest.mapM g >>= fun bs => pure (b :: bs)) :=
      ih.bind (fun _ => .refl _) fun _ => composed_pure _
    exact (hf x).bind others fun b => (composed_mapM ha rest).bind fun _ => composed_pure _

end InRun

end DesignTree
