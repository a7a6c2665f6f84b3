import DesignTree.Decode.Issue
import DesignTree.Data.Value

/-! # Reading values into models

A reading either gives a model or lists every issue of the value. Two readings side by side list
the issues of both, the left ones first. A field is named in two spellings, and the first one wins.
-/

namespace DesignTree

/-- The outcome of reading a value. -/
inductive Decoded (α : Type u)
  | ok (value : α)
  | failed (issues : List Issue)
  deriving Repr

namespace Decoded

variable {α : Type u} {β : Type u}

protected def map (f : α → β) : Decoded α → Decoded β
  | .ok a => .ok (f a)
  | .failed issues => .failed issues

/-- Joins two readings; if both fail the issues of the first come first. -/
protected def seq (f : Decoded (α → β)) (a : Decoded α) : Decoded β :=
  match f, a with
  | .ok f, .ok a => .ok (f a)
  | .ok _, .failed issues => .failed issues
  | .failed issues, .ok _ => .failed issues
  | .failed first, .failed second => .failed (first ++ second)

instance : Applicative Decoded where
  pure := .ok
  map := Decoded.map
  seq f a := Decoded.seq f (a ())

/-- A value with a single problem. -/
def fail (problem : Problem) : Decoded α := .failed [⟨[], problem⟩]

/-- A reading of a part, its issues placed under the part's name. -/
def under (part : Text) : Decoded α → Decoded α
  | .ok a => .ok a
  | .failed issues => .failed (issues.map (·.under part))

/-- The value that was read, if there is one. -/
def toOption : Decoded α → Option α
  | .ok a => some a
  | .failed _ => none

/-- The result of reading a value as a whole model. -/
def asModel (model : Text) : Decoded α → Except Rejection α
  | .ok a => .ok a
  | .failed issues => .error ⟨model, issues⟩

@[simp]
theorem map_ok (f : α → β) (a : α) : f <$> (Decoded.ok a) = .ok (f a) := rfl

@[simp]
theorem seq_ok_ok (f : α → β) (a : α) : (Decoded.ok f) <*> (Decoded.ok a) = .ok (f a) := rfl

@[simp]
theorem under_ok (part : Text) (a : α) : (Decoded.ok a).under part = .ok a := rfl

theorem map_eq_ok_iff {f : α → β} {a : Decoded α} {b : β} :
    f <$> a = .ok b ↔ ∃ x, a = .ok x ∧ f x = b := by
  cases a <;> simp [Functor.map, Decoded.map]

theorem under_eq_ok_iff {part : Text} {a : Decoded α} {x : α} :
    a.under part = .ok x ↔ a = .ok x := by
  cases a <;> simp [under]

theorem seq_eq_ok_iff {f : Decoded (α → β)} {a : Decoded α} {b : β} :
    f <*> a = .ok b ↔ ∃ g x, f = .ok g ∧ a = .ok x ∧ g x = b := by
  cases f <;> cases a <;> simp [Seq.seq, Decoded.seq]

end Decoded

/-- The two spellings of a field name. -/
structure Key where
  camel : Text
  snake : Text
  deriving DecidableEq, Repr

namespace Key

/-- A name of one word is spelled the same both ways. -/
def word (name : Text) : Key := ⟨name, name⟩

/-- The spelling under which a record holds a field, and its value. -/
def find? (k : Key) (fs : Fields) : Option (Text × Value) :=
  match fs.get? k.camel with
  | some v => some (k.camel, v)
  | none => (fs.get? k.snake).map ((k.snake, ·))

end Key

/-- A field that has to be there. -/
def Fields.required (fs : Fields) (k : Key) (read : Value → Decoded α) : Decoded α :=
  match k.find? fs with
  | some (name, v) => (read v).under name
  | none => (Decoded.fail .missing).under k.camel

/-- A field with a value of its own where it is absent. -/
def Fields.orElse (fs : Fields) (k : Key) (default : α) (read : Value → Decoded α) : Decoded α :=
  match k.find? fs with
  | some (name, v) => (read v).under name
  | none => .ok default

/-- A reading that takes the absent value too. -/
def Decoded.nullable (read : Value → Decoded α) : Value → Decoded (Option α)
  | .null => .ok none
  | v => some <$> read v

/-- A field that may be absent or hold the absent value. -/
def Fields.optional (fs : Fields) (k : Key) (read : Value → Decoded α) : Decoded (Option α) :=
  fs.orElse k none (Decoded.nullable read)

/-- A record, handed on by its fields. -/
def Decoded.record (model : Text) (read : Fields → Decoded α) : Value → Decoded α
  | .record fs => read fs
  | _ => .fail (.notModel model)

/-- The items of a list, numbered from `i`. -/
def Decoded.items (read : Value → Decoded α) (i : Nat) : List Value → Decoded (List α)
  | [] => .ok []
  | v :: rest => List.cons <$> (read v).under i.repr <*> Decoded.items read (i + 1) rest

/-- A list of like values. -/
def Decoded.list (read : Value → Decoded α) : Value → Decoded (List α)
  | .list vs => Decoded.items read 0 vs
  | _ => .fail .notList

/-- The entries of a map. -/
def Decoded.entries (read : Value → Decoded α) : Fields → Decoded (Entries α)
  | [] => .ok []
  | (k, v) :: rest =>
    (fun a more => (k, a) :: more) <$> (read v).under k <*> Decoded.entries read rest

/-- A map from names to like values. -/
def Decoded.mapOf (read : Value → Decoded α) : Value → Decoded (Entries α)
  | .record fs => Decoded.entries read fs
  | _ => .fail .notRecord

/-- A map that is read has the names of the record. -/
theorem Decoded.keys_of_mapOf {read : Value → Decoded α} {v : Value} {es : Entries α}
    (h : Decoded.mapOf read v = .ok es) : ∃ fs, v = .record fs ∧ es.keys = Entries.keys fs := by
  cases v with
  | record fs =>
    refine ⟨fs, rfl, ?_⟩
    have read : Decoded.entries read fs = .ok es := h
    clear h
    induction fs generalizing es with
    | nil =>
      cases read
      rfl
    | cons field rest ih =>
      rw [entries, seq_eq_ok_iff] at read
      obtain ⟨g, more, hg, hmore, rfl⟩ := read
      obtain ⟨a, -, rfl⟩ := map_eq_ok_iff.1 hg
      exact congrArg (field.1 :: ·) (ih hmore)
  | _ => cases h

end DesignTree
