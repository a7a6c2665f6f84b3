import DesignTree.Node.Basic

/-! # Places in a node tree

A place is the way from the root of a tree to one of its nodes. What is put at a place is found
there (`at?_put`), and what is put below a place changes the node at that place and nothing else
(`put_append`).
-/

namespace DesignTree

/-- The way from the root of a tree to a node: the number of the child to go on with, step by
step. -/
abbrev Place := List Nat

namespace Node

/-- A node with other children. -/
def withChildren (n : Node) (children : List Node) : Node := { n with children }

/-- The node at a place, unless the way there leaves the tree. -/
def at? (n : Node) : Place → Option Node
  | [] => some n
  | i :: way => n.children[i]?.bind fun c => c.at? way

/-- The tree with another node at a place. -/
def put (n : Node) : Place → Node → Node
  | [], m => m
  | i :: way, m =>
    match n.children[i]? with
    | some c => n.withChildren (n.children.set i (c.put way m))
    | none => n

@[simp]
theorem children_withChildren (n : Node) (ms : List Node) : (n.withChildren ms).children = ms := rfl

@[simp]
theorem withChildren_withChildren (n : Node) (ms ks : List Node) :
    (n.withChildren ms).withChildren ks = n.withChildren ks := rfl

@[simp]
theorem withChildren_self (n : Node) : n.withChildren n.children = n := by
  cases n
  rfl

@[simp]
theorem at?_nil (n : Node) : n.at? [] = some n := rfl

@[simp]
theorem put_nil (n m : Node) : n.put [] m = m := rfl

theorem at?_cons_eq_some_iff {n m : Node} {i : Nat} {way : Place} :
    n.at? (i :: way) = some m ↔ ∃ c, n.children[i]? = some c ∧ c.at? way = some m := by
  rw [at?, Option.bind_eq_some_iff]

theorem put_cons {n c : Node} {i : Nat} (h : n.children[i]? = some c) (way : Place) (m : Node) :
    n.put (i :: way) m = n.withChildren (n.children.set i (c.put way m)) := by
  rw [put, h]

theorem at?_append (n : Node) (place way : Place) :
    n.at? (place ++ way) = (n.at? place).bind fun m => m.at? way := by
  induction place generalizing n with
  | nil => rfl
  | cons i place ih =>
    rw [List.cons_append, at?, at?, Option.bind_assoc]
    exact congrArg _ (funext fun c => ih c)

section

variable {n k : Node} {place : Place}

/-- What is put at a place is found there. -/
theorem at?_put (h : n.at? place = some k) (m : Node) : (n.put place m).at? place = some m := by
  induction place generalizing n with
  | nil => rfl
  | cons i place ih =>
    obtain ⟨c, hc, hk⟩ := at?_cons_eq_some_iff.1 h
    have hi : i < n.children.length := (List.getElem?_eq_some_iff.1 hc).1
    rw [put_cons hc]
    exact at?_cons_eq_some_iff.2 ⟨c.put place m, by simp [hi], ih hk⟩

/-- A node that is put back at its place changes nothing. -/
theorem put_self (h : n.at? place = some k) : n.put place k = n := by
  induction place generalizing n with
  | nil =>
    rw [at?_nil, Option.some.injEq] at h
    rw [put_nil, h]
  | cons i place ih =>
    obtain ⟨c, hc, hk⟩ := at?_cons_eq_some_iff.1 h
    obtain ⟨hi, rfl⟩ := List.getElem?_eq_some_iff.1 hc
    rw [put_cons hc, ih hk, List.set_getElem_self, withChildren_self]

/-- The last node that is put at a place stays. -/
theorem put_put (h : n.at? place = some k) (m m' : Node) :
    (n.put place m).put place m' = n.put place m' := by
  induction place generalizing n with
  | nil => rfl
  | cons i place ih =>
    obtain ⟨c, hc, hk⟩ := at?_cons_eq_some_iff.1 h
    have hi : i < n.children.length := (List.getElem?_eq_some_iff.1 hc).1
    have between : (n.withChildren (n.children.set i (c.put place m))).children[i]? =
        some (c.put place m) := by simp [hi]
    rw [put_cons hc, put_cons between, put_cons hc, ih hk, children_withChildren, List.set_set,
      withChildren_withChildren]

/-- What is put below a place changes the node at that place and nothing else. -/
theorem put_append (h : n.at? place = some k) (way : Place) (m : Node) :
    n.put (place ++ way) m = n.put place (k.put way m) := by
  induction place generalizing n with
  | nil =>
    rw [at?_nil, Option.some.injEq] at h
    rw [List.nil_append, put_nil, h]
  | cons i place ih =>
    obtain ⟨c, hc, hk⟩ := at?_cons_eq_some_iff.1 h
    rw [List.cons_append, put_cons hc, put_cons hc, ih hk]

end

end Node

end DesignTree
