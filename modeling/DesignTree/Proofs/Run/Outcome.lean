import DesignTree.Lowering.Run

/-! # What operations of a run yield

`action.Yields run a after` says that an operation, started in the state `run`, gives `a` and leaves
the state `after`. The lemmas on the single operations turn a statement about a sequence of them
into one about its steps.

An operation is plain if it draws no identifier and looks at nothing of the state: then its result
and what it records are the same in all runs, and `yields_iff` says what it yields by these two.
-/

namespace DesignTree

namespace Run

/-- A run with more recorded. -/
def noting (run : Run) (ds : Diagnostics) : Run :=
  { run with diagnostics := run.diagnostics ++ ds }

/-- A run that has issued one identifier more. -/
def counting (run : Run) : Run := { run with issued := run.issued + 1 }

@[simp]
theorem issued_noting (run : Run) (ds : Diagnostics) : (run.noting ds).issued = run.issued := rfl

@[simp]
theorem diagnostics_noting (run : Run) (ds : Diagnostics) :
    (run.noting ds).diagnostics = run.diagnostics ++ ds := rfl

@[simp]
theorem issued_counting (run : Run) : run.counting.issued = run.issued + 1 := rfl

@[simp]
theorem diagnostics_counting (run : Run) : run.counting.diagnostics = run.diagnostics := rfl

@[simp]
theorem noting_nil (run : Run) : run.noting [] = run := by simp [noting]

@[simp]
theorem noting_noting (run : Run) (ds es : Diagnostics) :
    (run.noting ds).noting es = run.noting (ds ++ es) := by
  simp [noting, List.append_assoc]

end Run

theorem map_eq_ok_iff {ε α β : Type} {e : Except ε α} {f : α → β} {b : β} :
    e.map f = .ok b ↔ ∃ a, e = .ok a ∧ b = f a := by
  cases e <;> simp [Except.map, eq_comm]

namespace InRun

variable {α β : Type}

/-! ## Single operations -/

theorem runFrom_pure (a : α) (run : Run) : runFrom run (pure a) = (.ok a, run) := rfl

theorem runFrom_throw (fault : Fault) (run : Run) :
    runFrom run (throw fault : InRun α) = (.error fault, run) := rfl

theorem runFrom_record (ds : Diagnostics) (run : Run) :
    runFrom run (record ds) = (.ok (), run.noting ds) := rfl

theorem runFrom_lift (e : Except Fault α) (run : Run) : runFrom run (lift e) = (e, run) := by
  cases e <;> rfl

theorem runFrom_nextId (stem : Text) (run : Run) :
    runFrom run (nextId stem) = (.ok (stem ++ (run.issued + 1).repr), run.counting) := rfl

theorem runFrom_bind (x : InRun α) (f : α → InRun β) (run : Run) :
    runFrom run (x >>= f) =
      match runFrom run x with
      | (.ok a, mid) => runFrom mid (f a)
      | (.error fault, mid) => (.error fault, mid) := by
  simp only [runFrom, ExceptT.run_bind, StateT.run_bind]
  rcases StateT.run (ExceptT.run x) run with ⟨_ | a, mid⟩ <;> rfl

theorem record_nil : record [] = pure () := by
  unfold record
  simp
  rfl

theorem lift_ok (a : α) : lift (.ok a) = pure a := rfl

theorem lift_map (f : α → β) (e : Except Fault α) :
    lift (e.map f) = (do return f (← lift e)) := by
  cases e <;> rfl

/-! ## What is yielded -/

/-- An operation started from `run` gives `a` and leaves `after`. -/
def Yields (action : InRun α) (run : Run) (a : α) (after : Run) : Prop :=
  runFrom run action = (.ok a, after)

section

variable {run after : Run} {a : α} {b : β}

/-- An operation yields one result in one run. -/
theorem Yields.unique {action : InRun α} {c : α} {behind : Run} (h : action.Yields run a after)
    (h' : action.Yields run c behind) : c = a ∧ behind = after := by
  rw [Yields, h, Prod.mk.injEq, Except.ok.injEq] at h'
  exact ⟨h'.1.symm, h'.2.symm⟩

@[simp]
theorem yields_pure {c : α} : (pure c : InRun α).Yields run a after ↔ a = c ∧ after = run := by
  simp [Yields, runFrom_pure, eq_comm]

@[simp]
theorem yields_throw {fault : Fault} : ¬(throw fault : InRun α).Yields run a after := by
  simp [Yields, runFrom_throw]

@[simp]
theorem yields_record {ds : Diagnostics} {u : Unit} :
    (record ds).Yields run u after ↔ after = run.noting ds := by
  simp [Yields, runFrom_record, eq_comm]

@[simp]
theorem yields_lift {e : Except Fault α} :
    (lift e).Yields run a after ↔ e = .ok a ∧ after = run := by
  simp [Yields, runFrom_lift, eq_comm]

@[simp]
theorem yields_nextId {stem id : Text} :
    (nextId stem).Yields run id after ↔
      id = stem ++ (run.issued + 1).repr ∧ after = run.counting := by
  simp [Yields, runFrom_nextId, eq_comm]

@[simp]
theorem yields_bind {x : InRun α} {f : α → InRun β} :
    (x >>= f).Yields run b after ↔ ∃ a mid, x.Yields run a mid ∧ (f a).Yields mid b after := by
  simp only [Yields, runFrom_bind]
  constructor
  · intro h
    split at h
    · next a mid hx => exact ⟨a, mid, hx, h⟩
    · simp at h
  · rintro ⟨a, mid, hx, hf⟩
    rw [hx]
    exact hf

@[simp]
theorem yields_map {x : InRun α} {f : α → β} :
    (f <$> x).Yields run b after ↔ ∃ a, x.Yields run a after ∧ b = f a := by
  rw [map_eq_pure_bind, yields_bind]
  simp only [yields_pure]
  constructor
  · rintro ⟨a, mid, hx, rfl, rfl⟩
    exact ⟨a, hx, rfl⟩
  · rintro ⟨a, hx, rfl⟩
    exact ⟨a, after, hx, rfl, rfl⟩

theorem yields_mapM_nil {f : α → InRun β} {bs : List β} :
    ([].mapM f).Yields run bs after ↔ bs = [] ∧ after = run := by
  rw [List.mapM_nil, yields_pure]

/-- The results of a list of operations: that of the first one, and those of the others after it. -/
theorem yields_mapM_cons {f : α → InRun β} {x : α} {xs : List α} {bs : List β} :
    ((x :: xs).mapM f).Yields run bs after ↔
      ∃ b mid others, (f x).Yields run b mid ∧ (xs.mapM f).Yields mid others after ∧
        bs = b :: others := by
  rw [List.mapM_cons]
  simp only [yields_bind, yields_pure]
  constructor
  · rintro ⟨b, mid, hb, others, _, ho, rfl, rfl⟩
    exact ⟨b, mid, others, hb, ho, rfl⟩
  · rintro ⟨b, mid, others, hb, ho, rfl⟩
    exact ⟨b, mid, hb, others, _, ho, rfl, rfl⟩

/-- The results of two lists of operations, the second one after the first. -/
theorem yields_mapM_append {f : α → InRun β} {xs ys : List α} {bs : List β} :
    ((xs ++ ys).mapM f).Yields run bs after ↔
      ∃ cs mid ds, (xs.mapM f).Yields run cs mid ∧ (ys.mapM f).Yields mid ds after ∧
        bs = cs ++ ds := by
  rw [List.mapM_append]
  simp only [yields_bind, yields_pure]
  constructor
  · rintro ⟨cs, mid, hc, ds, _, hd, rfl, rfl⟩
    exact ⟨cs, mid, ds, hc, hd, rfl⟩
  · rintro ⟨cs, mid, ds, hc, hd, rfl⟩
    exact ⟨cs, mid, hc, ds, _, hd, rfl, rfl⟩

/-- Each result of a list of operations is one that an operation of the list yielded. -/
theorem exists_of_mem_mapM {f : α → InRun β} {xs : List α} {bs : List β}
    (h : (xs.mapM f).Yields run bs after) {b : β} (hb : b ∈ bs) :
    ∃ x ∈ xs, ∃ before behind, (f x).Yields before b behind := by
  induction xs generalizing run bs with
  | nil =>
    rw [(yields_mapM_nil.1 h).1] at hb
    exact absurd hb List.not_mem_nil
  | cons x rest ih =>
    obtain ⟨first, mid, others, hx, ho, rfl⟩ := yields_mapM_cons.1 h
    rcases List.mem_cons.1 hb with rfl | hb
    · exact ⟨x, List.mem_cons_self, run, mid, hx⟩
    · obtain ⟨y, hy, made⟩ := ih ho hb
      exact ⟨y, List.mem_cons_of_mem x hy, made⟩

/-- Each operation of a list has its result among the results. -/
theorem exists_result_of_mem {f : α → InRun β} {xs : List α} {bs : List β}
    (h : (xs.mapM f).Yields run bs after) {x : α} (hx : x ∈ xs) :
    ∃ b ∈ bs, ∃ before behind, (f x).Yields before b behind := by
  induction xs generalizing run bs with
  | nil => exact absurd hx List.not_mem_nil
  | cons y rest ih =>
    obtain ⟨first, mid, others, hy, ho, rfl⟩ := yields_mapM_cons.1 h
    rcases List.mem_cons.1 hx with rfl | hx
    · exact ⟨first, List.mem_cons_self, run, mid, hy⟩
    · obtain ⟨b, hb, made⟩ := ih ho hx
      exact ⟨b, List.mem_cons_of_mem first hb, made⟩

/-- What each operation of a list leaves recorded is recorded after all of them. -/
theorem recorded_mapM {f : α → InRun β} {p : α → Diagnostics → Prop} {xs : List α} {bs : List β}
    (hp : ∀ x ds es, ds ⊆ es → p x ds → p x es)
    (h : ∀ x ∈ xs, ∀ run b after, (f x).Yields run b after →
      run.diagnostics ⊆ after.diagnostics ∧ p x after.diagnostics)
    (hy : (xs.mapM f).Yields run bs after) :
    run.diagnostics ⊆ after.diagnostics ∧ ∀ x ∈ xs, p x after.diagnostics := by
  induction xs generalizing run bs with
  | nil =>
    obtain ⟨-, rfl⟩ := yields_mapM_nil.1 hy
    exact ⟨fun _ hd => hd, by simp⟩
  | cons x rest ih =>
    obtain ⟨b, mid, others, hb, ho, -⟩ := yields_mapM_cons.1 hy
    obtain ⟨hx, hpx⟩ := h x List.mem_cons_self run b mid hb
    obtain ⟨hr, hpr⟩ := ih (fun y hm => h y (List.mem_cons_of_mem x hm)) ho
    exact ⟨fun _ hd => hr (hx hd), List.forall_mem_cons.2 ⟨hp x _ _ hr hpx, hpr⟩⟩

end

/-! ## Plain operations -/

/-- The result of an operation in an empty run. -/
def outcome (action : InRun α) : Except Fault α := (runFrom {} action).1

/-- What an operation records in an empty run. -/
def notes (action : InRun α) : Diagnostics := (runFrom {} action).2.diagnostics

/-- An operation that has one result and records the same in all runs, and draws no identifier. -/
def Plain (action : InRun α) : Prop :=
  ∀ run, runFrom run action = (action.outcome, run.noting action.notes)

theorem Plain.yields_iff {action : InRun α} (h : action.Plain) {run after : Run} {a : α} :
    action.Yields run a after ↔ action.outcome = .ok a ∧ after = run.noting action.notes := by
  simp [Yields, h run, eq_comm]

/-- An operation is plain as soon as some result and some records do for all runs. -/
theorem Plain.of_forall {action : InRun α} (result : Except Fault α) (ds : Diagnostics)
    (h : ∀ run, runFrom run action = (result, run.noting ds)) : action.Plain := by
  intro run
  simp [outcome, notes, h, Run.noting]

theorem plain_pure (a : α) : (pure a : InRun α).Plain :=
  .of_forall (.ok a) [] fun run => by rw [runFrom_pure, Run.noting_nil]

theorem plain_throw (fault : Fault) : (throw fault : InRun α).Plain :=
  .of_forall (.error fault) [] fun run => by rw [runFrom_throw, Run.noting_nil]

theorem plain_record (ds : Diagnostics) : (record ds).Plain :=
  .of_forall (.ok ()) ds (runFrom_record ds)

theorem plain_lift (e : Except Fault α) : (lift e).Plain :=
  .of_forall e [] fun run => by rw [runFrom_lift, Run.noting_nil]

theorem Plain.bind {x : InRun α} {f : α → InRun β} (hx : x.Plain) (hf : ∀ a, (f a).Plain) :
    (x >>= f).Plain := by
  cases hr : x.outcome with
  | error fault =>
    refine .of_forall (.error fault) x.notes fun run => ?_
    rw [runFrom_bind, hx run, hr]
  | ok a =>
    refine .of_forall (f a).outcome (x.notes ++ (f a).notes) fun run => ?_
    rw [runFrom_bind, hx run, hr]
    simp only [hf a (run.noting x.notes), Run.noting_noting]

end InRun

end DesignTree
