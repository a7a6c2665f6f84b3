import DesignTree.Data.Value

/-! # Encodable values

The form in which maps and values without a type go into documents. Names hold no surrogates, and
numbers that are not finite are absent.
-/

namespace DesignTree

/-- What stands for a unit of text that cannot be encoded. -/
def CodePoint.replacement : CodePoint := .ofNat 0xFFFD

/-- A text that can be encoded: each byte that a surrogate would take is replaced. -/
def Text.toEncodable (s : Text) : Text :=
  .ofList (s.toList.flatMap fun p =>
    if p.isSurrogate then List.replicate 3 CodePoint.replacement else [p])

theorem Text.hasSurrogate_toEncodable (s : Text) : s.toEncodable.hasSurrogate = false := by
  simp only [hasSurrogate, toEncodable, List.any_eq_false, List.mem_flatMap]
  rintro p ⟨q, _, hp⟩
  split at hp
  · rw [List.eq_of_mem_replicate hp]
    decide
  · simp_all

/-- Entries whose names can be encoded. Of names that become the same the last one counts, in the
place of the first. -/
def Entries.toEncodable (es : Entries α) : Entries α :=
  if es.any (·.1.hasSurrogate) then
    es.foldl (fun (done : Entries α) e => done.set e.1.toEncodable e.2) []
  else es

mutual

/-- A value without a type in a document. -/
def Value.toEncodable : Value → Value
  | .number (.float x) => if x.value?.isSome then .number (.float x) else .null
  | .list items => .list (encodableItems items)
  | .record fs => .record (Entries.toEncodable (encodableFields fs))
  | v => v

def Value.encodableItems : List Value → List Value
  | [] => []
  | v :: rest => v.toEncodable :: encodableItems rest

def Value.encodableFields : List (Text × Value) → List (Text × Value)
  | [] => []
  | (name, v) :: rest => (name, v.toEncodable) :: encodableFields rest

end

/-- The fields of a map without types in a document. -/
def Fields.toEncodable (fs : Fields) : Value := (Value.record fs).toEncodable

end DesignTree
