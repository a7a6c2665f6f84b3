import DesignTree.Node.Outline
import DesignTree.Node.Place
import DesignTree.Proofs.Tree.Basic
import Mathlib.Data.List.TakeWhile

/-! # What an outline draws

An outline has a line for each node, in the order of the walk. In front of a node stand four
characters for each step of the way to it: rails along those of its ancestors that have siblings
after them, blanks along the others, and at last the branch to the node itself (`Node.margin`).

The lines tell how the tree branches, whatever the nodes are called: rails and branches start with
different characters, so that the first branch in a line ends its margin, and what a name shows
comes after it (`Node.shape_of_outlineChildren`). So no two trees of different shapes have the same
lines (`Node.outlineLines_draws`).
-/

namespace DesignTree

/-- The place of the sibling that comes next. -/
def Place.next : Place → Place
  | [] => []
  | [i] => [i + 1]
  | i :: j :: way => i :: Place.next (j :: way)

namespace Node

mutual

/-- The places of a tree, each one before those below it. -/
def places : Node → List Place
  | ⟨_, _, _, _, _, _, children, _⟩ => [] :: placesFrom 0 children

/-- The places of some trees, the roots of which are children from the number `i` on. -/
def placesFrom (i : Nat) : List Node → List Place
  | [] => []
  | n :: rest => n.places.map (i :: ·) ++ placesFrom (i + 1) rest

end

/-- Whether the node at a place has a sibling after it; the root has none. -/
def hasLater (n : Node) (place : Place) : Bool := place ≠ [] && (n.at? place.next).isSome

/-- The four characters at the depth `j` in front of a node: the branch to the node itself at its
own depth, the rail of its ancestor at a smaller one. -/
def block (n : Node) (place : Place) (j : Nat) : Text :=
  let isLast := !n.hasLater (place.take j)
  if j = place.length then connector isLast else rail isLast

/-- What stands in front of a node, from the depth 1 to its own. -/
def margin (n : Node) (place : Place) : Text :=
  Text.join ((List.range place.length).map fun j => n.block place (j + 1))

/-- The line of a node. -/
def line (n : Node) (place : Place) : Text :=
  n.margin place ++ ((n.at? place).map caption).getD ""

theorem length_block (n : Node) (place : Place) (j : Nat) : (n.block place j).length = 4 := by
  unfold block
  cases n.hasLater (place.take j) <;> simp only <;> split <;> rfl

/-! ## Places in order -/

theorem places_eq (n : Node) : n.places = [] :: placesFrom 0 n.children := by
  cases n
  rfl

theorem mem_placesFrom {i : Nat} {ns : List Node} {place : Place} :
    place ∈ placesFrom i ns ↔
      ∃ j c way, ns[j]? = some c ∧ way ∈ c.places ∧ place = (i + j) :: way := by
  induction ns generalizing i with
  | nil => simp [placesFrom]
  | cons n rest ih =>
    rw [placesFrom, List.mem_append, List.mem_map, ih]
    constructor
    · rintro (⟨way, hway, rfl⟩ | ⟨j, c, way, hc, hway, rfl⟩)
      · exact ⟨0, n, way, rfl, hway, rfl⟩
      · exact ⟨j + 1, c, way, hc, hway, by rw [Nat.add_right_comm, Nat.add_assoc]⟩
    · rintro ⟨_ | j, c, way, hc, hway, rfl⟩
      · cases hc
        exact .inl ⟨way, hway, rfl⟩
      · exact .inr ⟨j, c, way, hc, hway, by rw [Nat.add_right_comm, Nat.add_assoc]⟩

/-- The places of a tree are those at which it has nodes. -/
theorem mem_places {n : Node} {place : Place} : place ∈ n.places ↔ (n.at? place).isSome := by
  induction place generalizing n with
  | nil => simp [places_eq]
  | cons i way ih =>
    rw [places_eq, List.mem_cons, mem_placesFrom, Option.isSome_iff_exists]
    simp only [at?_cons_eq_some_iff, reduceCtorEq, false_or, List.cons.injEq, Nat.zero_add]
    constructor
    · rintro ⟨j, c, way, hc, hway, rfl, rfl⟩
      obtain ⟨m, hm⟩ := Option.isSome_iff_exists.1 (ih.1 hway)
      exact ⟨m, c, hc, hm⟩
    · rintro ⟨m, c, hc, hm⟩
      exact ⟨i, c, way, hc, ih.2 (by rw [hm]; rfl), rfl, rfl⟩

/-- The places come in the order of the walk: each one before those below it, and these before the
places of later siblings. -/
theorem pairwise_places (n : Node) : n.places.Pairwise (· < ·) := by
  induction n using Node.forest_induct
    (q := fun ns => ∀ i, (placesFrom i ns).Pairwise (· < ·)) with
  | step n children =>
    rw [places_eq, List.pairwise_cons]
    refine ⟨fun p hp => ?_, children 0⟩
    obtain ⟨j, c, way, -, -, rfl⟩ := mem_placesFrom.1 hp
    exact List.nil_lt_cons _ _
  | nil i => exact .nil
  | cons c rest first others i =>
    rw [placesFrom, List.pairwise_append, List.pairwise_map]
    refine ⟨first.imp fun h => List.cons_lt_cons_iff.2 (.inr ⟨rfl, h⟩), others (i + 1), ?_⟩
    intro p hp q hq
    obtain ⟨way, -, rfl⟩ := List.mem_map.1 hp
    obtain ⟨j, d, way', -, -, rfl⟩ := mem_placesFrom.1 hq
    exact List.cons_lt_cons_iff.2 (.inl (by omega))

/-- Children from a number on are the one of the number and those from the next number on. -/
theorem children_of_drop {n c : Node} {i : Nat} {rest : List Node}
    (h : n.children.drop i = c :: rest) :
    n.children[i]? = some c ∧ n.children.drop (i + 1) = rest := by
  constructor
  · rw [← List.head?_drop, h]
    rfl
  · rw [← List.tail_drop, h]
    rfl

/-- At the places of a tree are the nodes of its walk. -/
theorem map_at?_places (n : Node) : n.places.map n.at? = n.walk.map some := by
  induction n using Node.forest_induct
    (q := fun ns => ∀ (n : Node) i, n.children.drop i = ns →
      (placesFrom i ns).map n.at? = (walkAll ns).map some) with
  | step n children =>
    rw [places_eq, walk_eq, List.map_cons, List.map_cons, children n 0 rfl]
    rfl
  | nil n i => rfl
  | cons c rest first others n i hns =>
    obtain ⟨hc, hrest⟩ := children_of_drop hns
    have own : c.places.map (fun way => n.at? (i :: way)) = c.walk.map some := by
      rw [← first]
      exact List.map_congr_left fun way _ => by rw [at?, hc]; rfl
    rw [placesFrom, List.map_append, List.map_map, walkAll_cons, List.map_append,
      others n (i + 1) hrest]
    exact congrArg (· ++ _) own

/-! ## Margins -/

theorem hasLater_cons {n c : Node} {i : Nat} (hc : n.children[i]? = some c) {way : Place}
    (hw : way ≠ []) : n.hasLater (i :: way) = c.hasLater way := by
  obtain ⟨j, way, rfl⟩ := List.exists_cons_of_ne_nil hw
  simp [hasLater, Place.next, at?, hc]

theorem hasLater_singleton (n : Node) (i : Nat) :
    n.hasLater [i] = (n.children[i + 1]?).isSome := by
  simp [hasLater, Place.next, at?]

/-- Below a child the margin starts with the rail of the child. -/
theorem margin_cons {n c : Node} {i : Nat} (hc : n.children[i]? = some c) (way : Place) :
    n.margin (i :: way) =
      (if way = [] then connector (!n.hasLater [i]) else rail (!n.hasLater [i])) ++
        c.margin way := by
  have first : n.block (i :: way) 1 =
      if way = [] then connector (!n.hasLater [i]) else rail (!n.hasLater [i]) := by
    cases way <;> simp [block]
  have below : (List.range way.length).map (fun j => n.block (i :: way) (j + 1 + 1)) =
      (List.range way.length).map fun j => c.block way (j + 1) := by
    refine List.map_congr_left fun j hj => ?_
    have hw : way.take (j + 1) ≠ [] := by
      rw [List.mem_range] at hj
      rw [← List.length_pos_iff, List.length_take]
      omega
    simp [block, hasLater_cons hc hw]
  have parts : (List.range (i :: way).length).map (fun j => n.block (i :: way) (j + 1)) =
      n.block (i :: way) 1 :: (List.range way.length).map fun j => c.block way (j + 1) := by
    rw [List.length_cons, List.range_succ_eq_map, List.map_cons, List.map_map, ← below]
    rfl
  rw [margin, parts, first]
  rfl

theorem line_nil (n : Node) : n.line [] = n.caption := rfl

theorem line_cons {n c : Node} {i : Nat} (hc : n.children[i]? = some c) (way : Place) :
    n.line (i :: way) =
      (if way = [] then connector (!n.hasLater [i]) else rail (!n.hasLater [i])) ++
        c.line way := by
  have same : n.at? (i :: way) = c.at? way := by
    rw [at?, hc]
    rfl
  rw [line, margin_cons hc, same, Text.append_assoc]
  rfl

/-! ## The lines of an outline -/

theorem outlineLines_eq (lead indent : Text) (n : Node) :
    outlineLines lead indent n = (lead ++ n.caption) :: outlineChildren indent n.children := by
  cases n
  rfl

/-- The lines of an outline are those of the places, in their order. -/
theorem outlineLines_eq_places (n : Node) (lead indent : Text) :
    outlineLines lead indent n =
      (lead ++ n.caption) :: (placesFrom 0 n.children).map fun place => indent ++ n.line place := by
  induction n using Node.forest_induct
    (q := fun ns => ∀ (n : Node) indent i, n.children.drop i = ns →
      outlineChildren indent ns = (placesFrom i ns).map fun place => indent ++ n.line place)
    generalizing lead indent with
  | step n children => rw [outlineLines_eq, children n indent 0 rfl]
  | nil n indent i => rfl
  | cons c rest first others n indent i hns =>
    obtain ⟨hc, hrest⟩ := children_of_drop hns
    have last : rest.isEmpty = !n.hasLater [i] := by
      rw [hasLater_singleton, ← List.head?_drop, hrest]
      cases rest <;> rfl
    have own : n.line [i] = connector rest.isEmpty ++ c.caption := by
      rw [line_cons hc, if_pos rfl, line_nil, last]
    have below : ∀ way ∈ placesFrom 0 c.children,
        n.line (i :: way) = rail rest.isEmpty ++ c.line way := by
      intro way hway
      obtain ⟨j, d, way, -, -, rfl⟩ := mem_placesFrom.1 hway
      rw [line_cons hc, if_neg (List.cons_ne_nil _ _), last]
    rw [outlineChildren, placesFrom, List.map_append, ← others n indent (i + 1) hrest, first,
      places_eq, List.map_cons, List.map_cons, List.map_map, own, Text.append_assoc]
    refine congrArg (_ :: · ++ _) (List.map_congr_left fun way hway => ?_)
    show indent ++ rail rest.isEmpty ++ c.line way = indent ++ n.line (i :: way)
    rw [below way hway, Text.append_assoc]

/-! ## What the lines tell -/

/-- Whether a line starts with a rail, or with the blanks in place of one. -/
def isRailed (line : Text) : Bool :=
  line.toList.head? = some (.ofChar '│') || line.toList.head? = some (.ofChar ' ')

theorem isRailed_rail (isLast : Bool) (line : Text) : isRailed (rail isLast ++ line) = true := by
  cases isLast <;> rfl

theorem isRailed_connector (isLast : Bool) (line : Text) :
    isRailed (connector isLast ++ line) = false := by
  cases isLast <;> rfl

/-- A line without the rail in front. -/
def withoutRail (line : Text) : Text := .ofList (line.toList.drop 4)

theorem withoutRail_rail (isLast : Bool) (line : Text) :
    withoutRail (rail isLast ++ line) = line := by
  cases isLast <;> rfl

/-- What stands in front of a tree stands in front of all its lines. -/
theorem outlineLines_append (front lead indent : Text) (n : Node) :
    outlineLines (front ++ lead) (front ++ indent) n =
      (outlineLines lead indent n).map (front ++ ·) := by
  rw [outlineLines_eq_places, outlineLines_eq_places, List.map_cons, List.map_map,
    Text.append_assoc]
  refine congrArg (_ :: ·) (List.map_congr_left fun place _ => ?_)
  exact Text.append_assoc front indent (n.line place)

theorem outlineChildren_append (front indent : Text) (ns : List Node) :
    outlineChildren (front ++ indent) ns = (outlineChildren indent ns).map (front ++ ·) := by
  induction ns with
  | nil => rfl
  | cons n rest ih =>
    rw [outlineChildren, outlineChildren, List.map_append, ih, Text.append_assoc, Text.append_assoc,
      outlineLines_append]

/-- The lines of a child are its own one, which starts with a branch, and those below it, which
start with rails. -/
theorem outlineChildren_cons (n : Node) (rest : List Node) :
    outlineChildren "" (n :: rest) = (connector rest.isEmpty ++ n.caption) ::
      ((outlineChildren "" n.children).map (rail rest.isEmpty ++ ·) ++
        outlineChildren "" rest) := by
  have blank (t : Text) : ("" : Text) ++ t = t := rfl
  have plain : rail rest.isEmpty ++ "" = rail rest.isEmpty := by cases rest.isEmpty <;> rfl
  have below := outlineChildren_append (rail rest.isEmpty) "" n.children
  rw [plain] at below
  rw [outlineChildren, blank, blank, outlineLines_eq, below, List.cons_append]

section

variable (isLast : Bool) (lines : List Text) (ns : List Node)

theorem forall_isRailed : ∀ line ∈ lines.map (rail isLast ++ ·), isRailed line = true := by
  intro line hline
  obtain ⟨below, -, rfl⟩ := List.mem_map.1 hline
  exact isRailed_rail isLast below

/-- The lines below a child end where a branch starts. -/
theorem takeWhile_isRailed :
    (lines.map (rail isLast ++ ·) ++ outlineChildren "" ns).takeWhile isRailed =
      lines.map (rail isLast ++ ·) := by
  rw [List.takeWhile_append_of_pos (forall_isRailed isLast lines)]
  cases ns with
  | nil => exact List.append_nil _
  | cons n rest =>
    rw [outlineChildren_cons, List.takeWhile_cons_of_neg (by rw [isRailed_connector]; decide),
      List.append_nil]

theorem dropWhile_isRailed :
    (lines.map (rail isLast ++ ·) ++ outlineChildren "" ns).dropWhile isRailed =
      outlineChildren "" ns := by
  rw [List.dropWhile_append_of_pos (forall_isRailed isLast lines)]
  cases ns with
  | nil => rfl
  | cons n rest =>
    rw [outlineChildren_cons, List.dropWhile_cons_of_neg (by rw [isRailed_connector]; decide)]

end

theorem map_withoutRail (isLast : Bool) (lines : List Text) :
    (lines.map (rail isLast ++ ·)).map withoutRail = lines := by
  rw [List.map_map]
  exact (List.map_congr_left fun line _ => withoutRail_rail isLast line).trans (List.map_id' lines)

/-- Children with the same lines have the same shapes. -/
theorem shape_of_outlineChildren {n m : Node}
    (h : outlineChildren "" n.children = outlineChildren "" m.children) : n.shape = m.shape := by
  induction n using Node.forest_induct
    (q := fun ns => ∀ ms, outlineChildren "" ns = outlineChildren "" ms →
      ns.map shape = ms.map shape) generalizing m with
  | step n children => rw [shape_eq, shape_eq, children m.children h]
  | nil ms same =>
    cases ms with
    | nil => rfl
    | cons d others => cases same.trans (outlineChildren_cons d others)
  | cons c rest first later ms same =>
    cases ms with
    | nil => cases (outlineChildren_cons c rest).symm.trans same
    | cons d others =>
      rw [outlineChildren_cons, outlineChildren_cons] at same
      -- The first branches begin the first children; the next ones end the lines below these.
      have lines := (List.cons.inj same).2
      have below := congrArg (fun lines => (lines.takeWhile isRailed).map withoutRail) lines
      have beside := congrArg (List.dropWhile isRailed) lines
      simp only [takeWhile_isRailed, map_withoutRail] at below
      rw [dropWhile_isRailed, dropWhile_isRailed] at beside
      rw [List.map_cons, List.map_cons, first below, later others beside]

/-- **An outline draws the shape of a tree.** It has one line for each node, in the order of the
walk: the places of the lines are all the places of the tree, each one before those below it and
before later siblings. In front of a node at the depth `d` stand its rails and its branch, one for
each depth from 1 to `d` (`Node.block`). Trees of different shapes never have the same lines. -/
theorem outlineLines_draws (n : Node) :
    n.places.map n.at? = n.walk.map some ∧ n.places.Pairwise (· < ·) ∧
      (∀ place, place ∈ n.places ↔ (n.at? place).isSome) ∧
      outlineLines "" "" n = n.places.map n.line ∧
      (∀ place j, (n.block place j).length = 4) ∧
      ∀ m : Node, m.shape ≠ n.shape → outlineLines "" "" m ≠ outlineLines "" "" n := by
  refine ⟨map_at?_places n, pairwise_places n, fun place => mem_places, ?_, n.length_block,
    fun m hm same => ?_⟩
  · rw [outlineLines_eq_places, places_eq, List.map_cons]
    rfl
  · rw [outlineLines_eq, outlineLines_eq] at same
    exact hm (shape_of_outlineChildren (List.cons.inj same).2)

/-- A name that looks like a branch does not hide which node it belongs to. -/
theorem outlineLines_draws_lookalike :
    let leaf : Node := { kind := .frame, name := "└── B" }
    let deep : Node := { kind := .frame, name := "Root",
                         children := [{ kind := .frame, name := "A", children := [leaf] }] }
    let flat : Node := { kind := .frame, name := "Root",
                         children := [{ kind := .frame, name := "A" }, leaf] }
    deep.shape ≠ flat.shape ∧ outlineLines "" "" deep ≠ outlineLines "" "" flat ∧
      outlineLines "" "" deep =
        (["Root [FRAME]", "└── A [FRAME]", "    └── └── B [FRAME]"] : List Text) ∧
      outlineLines "" "" flat =
        (["Root [FRAME]", "├── A [FRAME]", "└── └── B [FRAME]"] : List Text) := by
  intro leaf deep flat
  have shapes : deep.shape ≠ flat.shape := by
    intro h
    simp [shape_eq, deep, flat] at h
  exact ⟨shapes, (outlineLines_draws flat).2.2.2.2.2 deep shapes, by decide +kernel,
    by decide +kernel⟩

end Node

end DesignTree
