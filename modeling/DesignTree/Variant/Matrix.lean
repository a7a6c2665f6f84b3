import DesignTree.Diagnostics.Fault
import DesignTree.Node.Component
import DesignTree.Widget.Definition

/-! # Property matrices

The distinct scalar values that each property of a reusable widget takes, over its own properties
and those of its recorded variations. A choice of one value for each property that varies is a
configuration of the widget. The first choices are found without making the others, and are the
first ones of all choices (`leadingChoices_eq`).
-/

namespace DesignTree

/-- The distinct values of properties. Properties and values keep the order in which they come. -/
structure PropertyMatrix where
  values : Entries (List Scalar) := []
  deriving DecidableEq, Repr

/-- A value for each of some properties. -/
abbrev Configuration := Entries Scalar

namespace PropertyMatrix

/-- Puts a value at the end of a list unless the list has it. -/
def insertNew (seen : List Scalar) (s : Scalar) : List Scalar :=
  if seen.any (·.same s) then seen else seen ++ [s]

/-- Adds a value of a property. Values that are no scalars are left out. -/
def add (m : PropertyMatrix) (key : Text) (v : Value) : PropertyMatrix :=
  match Scalar.ofValue? v with
  | some s => ⟨m.values.set key (insertNew ((m.values.get? key).getD []) s)⟩
  | none => m

/-- Adds the values of several properties. -/
def addAll (m : PropertyMatrix) (properties : Fields) : PropertyMatrix :=
  properties.foldl (fun m e => m.add e.1 e.2) m

/-- The matrix without the properties that do not vary. -/
def dropConstant (m : PropertyMatrix) : PropertyMatrix :=
  ⟨m.values.filter fun e => 1 < e.2.length⟩

/-- The properties that vary among the configurations of a reusable widget. -/
def ofDefinition (d : Definition) : PropertyMatrix :=
  let own := ({} : PropertyMatrix).addAll d.widget.properties.interchange
  (d.variants.foldl (fun m v => m.addAll v.properties) own).dropConstant

def isEmpty (m : PropertyMatrix) : Bool := m.values.isEmpty

def keys (m : PropertyMatrix) : List Text := m.values.keys

/-- The number of configurations; without properties there is none. -/
def combinationCount (m : PropertyMatrix) : Nat :=
  if m.isEmpty then 0 else m.values.foldl (fun n e => n * e.2.length) 1

/-- All choices of one value for each property, the first property varying slowest. -/
def choices : Entries (List Scalar) → List Configuration
  | [] => [[]]
  | (key, values) :: rest => values.flatMap fun v => (choices rest).map ((key, v) :: ·)

/-- The configurations of the properties. -/
def combinations (m : PropertyMatrix) : List Configuration :=
  if m.isEmpty then [] else choices m.values

/-- The first `n` choices of one value for each property. -/
def leadingChoices (n : Nat) : Entries (List Scalar) → List Configuration
  | [] => [[]].take n
  | (key, values) :: rest =>
    let tails := leadingChoices n rest
    (values.flatMap fun v => tails.map ((key, v) :: ·)).take n

/-- The first `n` configurations. -/
def leading (m : PropertyMatrix) (n : Nat) : List Configuration :=
  if m.isEmpty then [] else leadingChoices n m.values

theorem take_flatMap_take {α β : Type} (f : α → List β) (xs : List α) {n m : Nat} (h : n ≤ m) :
    (xs.flatMap fun x => (f x).take m).take n = (xs.flatMap f).take n := by
  induction xs generalizing n with
  | nil => rfl
  | cons x rest ih =>
    rw [List.flatMap_cons, List.flatMap_cons, List.take_append, List.take_append, List.take_take,
      Nat.min_eq_left h, List.length_take]
    by_cases hl : (f x).length ≤ m
    · rw [Nat.min_eq_right hl, ih (by omega)]
    · have : n - min m (f x).length = 0 := by omega
      have : n - (f x).length = 0 := by omega
      simp [*]

/-- The first choices are the first ones of all choices. -/
theorem leadingChoices_eq (n : Nat) (es : Entries (List Scalar)) :
    leadingChoices n es = (choices es).take n := by
  induction es with
  | nil => rfl
  | cons e rest ih =>
    obtain ⟨key, values⟩ := e
    simp only [leadingChoices, choices, ih]
    rw [← take_flatMap_take (fun v => (choices rest).map ((key, v) :: ·)) _ (Nat.le_refl n)]
    simp [List.map_take]

theorem leading_eq (m : PropertyMatrix) (n : Nat) : m.leading n = m.combinations.take n := by
  by_cases he : m.isEmpty <;> simp [leading, combinations, he, leadingChoices_eq]

end PropertyMatrix

/-- Whether a configuration has the same values as a selection for all properties of the
selection. -/
def Configuration.agrees (c : Configuration) (selection : Fields) : Bool :=
  selection.all fun (key, v) =>
    match Entries.get? c key, Scalar.ofValue? v with
    | some own, some chosen => own.same chosen
    | _, _ => false

end DesignTree
