import DesignTree.Proofs.Run.Return

/-! # What operations record

`action.Records ds` says that an operation records `ds` in any run: all of it where the operation
returns, and the start of it where it ends in a fault. What kind of records an operation makes at
all is said by `RecordsOnly`.
-/

namespace DesignTree.InRun

variable {α β : Type} {ds es : Diagnostics}

/-- An operation that records `ds`, or the start of it if it ends in a fault. -/
def Records (action : InRun α) (ds : Diagnostics) : Prop :=
  ∀ run, ∃ found, (runFrom run action).2.diagnostics = run.diagnostics ++ found ∧ found <+: ds ∧
    (action.Returns run → found = ds)

theorem Plain.records {action : InRun α} (h : action.Plain) : action.Records action.notes := by
  intro run
  refine ⟨action.notes, ?_, List.prefix_refl _, fun _ => rfl⟩
  rw [h run, Run.diagnostics_noting]

theorem records_pure (a : α) : (pure a : InRun α).Records [] := fun run =>
  ⟨[], by rw [runFrom_pure, List.append_nil], List.prefix_refl _, fun _ => rfl⟩

theorem records_lift (e : Except Fault α) : (lift e).Records [] := fun run =>
  ⟨[], by rw [runFrom_lift, List.append_nil], List.prefix_refl _, fun _ => rfl⟩

theorem records_record (ds : Diagnostics) : (record ds).Records ds := fun run =>
  ⟨ds, by rw [runFrom_record, Run.diagnostics_noting], List.prefix_refl _, fun _ => rfl⟩

theorem records_nextId (stem : Text) : (nextId stem).Records [] := fun run =>
  ⟨[], by rw [runFrom_nextId, Run.diagnostics_counting, List.append_nil], List.prefix_refl _,
    fun _ => rfl⟩

/-- Operations one after the other record one after the other. A fault of the first one cuts off
what the second one records. -/
theorem Records.bind {x : InRun α} {f : α → InRun β} (hx : x.Records ds)
    (hf : ∀ a, (f a).Records es) : (x >>= f).Records (ds ++ es) := by
  intro run
  obtain ⟨found, hd, hp, hr⟩ := hx run
  cases h : runFrom run x with
  | mk result mid =>
    rw [h] at hd
    cases result with
    | error fault =>
      have stuck : ¬(x >>= f).Returns run := by
        rw [returns_iff, runFrom_bind, h]
        exact Bool.false_ne_true
      refine ⟨found, ?_, hp.trans (List.prefix_append ds es), fun hret => absurd hret stuck⟩
      rw [runFrom_bind, h]
      exact hd
    | ok a =>
      obtain ⟨others, hd', hp', hr'⟩ := hf a mid
      have whole : found = ds := hr ⟨a, mid, h⟩
      refine ⟨found ++ others, ?_, ?_, ?_⟩
      · rw [runFrom_bind, h]
        simp only
        rw [hd', hd, List.append_assoc]
      · rw [whole]
        exact (List.prefix_append_right_inj ds).2 hp'
      · intro hret
        obtain ⟨b, last, hm, hn⟩ := returns_bind.1 hret
        cases (show runFrom run x = (.ok b, last) from hm).symm.trans h
        rw [whole, hr' hn]

/-- An operation after which there is nothing else on record but what was before and what `p` holds
of. -/
def RecordsOnly (p : Diagnostic → Prop) (action : InRun α) : Prop :=
  ∀ run, ∀ d ∈ (runFrom run action).2.diagnostics, d ∈ run.diagnostics ∨ p d

namespace RecordsOnly

variable {p : Diagnostic → Prop}

theorem pure (a : α) : RecordsOnly p (pure a : InRun α) := fun _ _ hd => .inl hd

theorem lift (e : Except Fault α) : RecordsOnly p (lift e) := by
  intro run d hd
  rw [runFrom_lift] at hd
  exact .inl hd

theorem record (h : ∀ d ∈ ds, p d) : RecordsOnly p (record ds) := by
  intro run d hd
  rw [runFrom_record, Run.diagnostics_noting] at hd
  exact (List.mem_append.1 hd).imp_right (h d)

theorem bind {x : InRun α} {f : α → InRun β} (hx : RecordsOnly p x)
    (hf : ∀ a, RecordsOnly p (f a)) : RecordsOnly p (x >>= f) := by
  intro run d hd
  rw [runFrom_bind] at hd
  cases h : runFrom run x with
  | mk result mid =>
    have first := hx run
    rw [h] at hd first
    cases result with
    | error fault => exact first d hd
    | ok a =>
      rcases hf a mid d hd with hm | hp
      · exact first d hm
      · exact .inr hp

theorem notes {action : InRun α} (h : RecordsOnly p action) : ∀ d ∈ action.notes, p d :=
  fun d hd => (h {} d hd).resolve_left List.not_mem_nil

end RecordsOnly

/-- Where each operation of a list records something of its own, what all of them record is the one
after the other. -/
theorem exists_notes_of_mapM {f : α → InRun β} {R : β → Diagnostics → Prop} {xs : List α}
    (hf : ∀ x run b after, (f x).Yields run b after →
      ∃ ds, R b ds ∧ after.diagnostics = run.diagnostics ++ ds)
    {run after : Run} {bs : List β} (h : (xs.mapM f).Yields run bs after) :
    ∃ notes, List.Forall₂ R bs notes ∧
      after.diagnostics = run.diagnostics ++ notes.flatten := by
  induction xs generalizing run bs with
  | nil =>
    obtain ⟨rfl, rfl⟩ := yields_mapM_nil.1 h
    exact ⟨[], .nil, by simp⟩
  | cons x rest ih =>
    obtain ⟨b, mid, others, hb, ho, rfl⟩ := yields_mapM_cons.1 h
    obtain ⟨ds, hr, hd⟩ := hf x run b mid hb
    obtain ⟨notes, hrs, hds⟩ := ih ho
    refine ⟨ds :: notes, .cons hr hrs, ?_⟩
    rw [hds, hd, List.flatten_cons, List.append_assoc]

end DesignTree.InRun
