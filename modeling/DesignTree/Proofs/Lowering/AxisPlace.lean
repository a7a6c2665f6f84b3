import DesignTree.Proofs.Lowering.Range
import DesignTree.Proofs.Number.Difference

/-! # Placing a node axis by axis

A position places a node along both axes in the same way, each of them by itself. A `Span` is what a
position says about one axis, an `AxisPlace` what a node has along one: where it starts, how large
it is, and what it is pinned to. Placing a node comes to three updates of its properties, unless a
start cannot be computed (`NodeProperties.place_eq`). Its place along an axis is what the span of
that axis gives, and else what it was (`NodeProperties.place_along_axes`).
-/

namespace DesignTree

/-- The side that an axis starts from. -/
def Axis.nearPin : Axis → Pin
  | .horizontal => .left
  | .vertical => .top

/-- The side that an axis ends at. -/
def Axis.farPin : Axis → Pin
  | .horizontal => .right
  | .vertical => .bottom

/-- What a position says about one axis: the distances to the near and to the far side, and the
size. -/
structure Span where
  near : Option Number
  far : Option Number
  size : Option Number
  deriving DecidableEq

/-- What a node has along one axis: where it starts, how large it is, and what it is pinned to. -/
structure AxisPlace where
  start : Option Number
  size : Option Number
  pin : Option Pin
  deriving DecidableEq

namespace Span

/-- The start that a span gives: at the near side, or else by its size before the far side. -/
def start? (s : Span) : Option Number :=
  match s.near, s.far, s.size with
  | some near, _, _ => some near
  | none, some far, some size => far.neg.sub? size
  | _, _, _ => none

/-- The side that a span pins a node to: one that it gives a distance to, the near one first. -/
def pin? (s : Span) (axis : Axis) : Option Pin :=
  s.near.map (fun _ => axis.nearPin) <|> s.far.map fun _ => axis.farPin

end Span

/-- Nothing has to be rounded for the start that a span gives by its size before the far side. -/
def Span.Unrounded (s : Span) : Prop :=
  ∀ far size, s = ⟨none, some far, some size⟩ →
    ∃ a b, far.place = some (.at a) ∧ size.place = some (.at b) ∧
      Number.Unrounded far.neg size (-a - b)

/-- A place in a span: what the span gives, and else what was there. -/
def AxisPlace.within (old : AxisPlace) (axis : Axis) (s : Span) : AxisPlace where
  start := s.start? <|> old.start
  size := s.size <|> old.size
  pin := s.pin? axis <|> old.pin

/-- What a position says about an axis. -/
def Position.span (p : Position) : Axis → Span
  | .horizontal => ⟨p.left, p.right, p.width⟩
  | .vertical => ⟨p.top, p.bottom, p.height⟩

/-- Pins with new ones for some axes. Without any they stay as they are. -/
def pinnedTo (c : Option Constraints) (horizontal vertical : Option Pin) : Option Constraints :=
  if horizontal.isNone && vertical.isNone then c
  else some {
    horizontal := horizontal <|> c.bind (·.horizontal)
    vertical := vertical <|> c.bind (·.vertical) }

theorem horizontal_pinnedTo (c : Option Constraints) (horizontal vertical : Option Pin) :
    (pinnedTo c horizontal vertical).bind (·.horizontal) =
      (horizontal <|> c.bind (·.horizontal)) := by
  cases horizontal <;> cases vertical <;> rfl

theorem vertical_pinnedTo (c : Option Constraints) (horizontal vertical : Option Pin) :
    (pinnedTo c horizontal vertical).bind (·.vertical) = (vertical <|> c.bind (·.vertical)) := by
  cases horizontal <;> cases vertical <;> rfl

/-- The pins of both axes can be set one after the other. -/
theorem pinnedTo_pinnedTo (c : Option Constraints) (horizontal vertical : Option Pin) :
    pinnedTo (pinnedTo c horizontal none) none vertical = pinnedTo c horizontal vertical := by
  cases horizontal <;> cases vertical <;> rfl

/-- Pins that are set stay when they are set again. -/
theorem pinnedTo_self (c : Option Constraints) (horizontal vertical : Option Pin) :
    pinnedTo (pinnedTo c horizontal vertical) horizontal vertical =
      pinnedTo c horizontal vertical := by
  cases horizontal <;> cases vertical <;> rfl

namespace NodeProperties

/-- What a node has along an axis. -/
def axisPlace (p : NodeProperties) : Axis → AxisPlace
  | .horizontal => ⟨p.x, p.width, p.constraints.bind (·.horizontal)⟩
  | .vertical => ⟨p.y, p.height, p.constraints.bind (·.vertical)⟩

/-- The properties of a node that starts where the horizontal span of a position says. -/
def startedAcross (p : NodeProperties) (position : Position) : NodeProperties :=
  { p with
    x := (position.span .horizontal).start? <|> p.x
    constraints := pinnedTo p.constraints ((position.span .horizontal).pin? .horizontal) none }

/-- The properties of a node that starts where the vertical span of a position says. -/
def startedDown (p : NodeProperties) (position : Position) : NodeProperties :=
  { p with
    y := (position.span .vertical).start? <|> p.y
    constraints := pinnedTo p.constraints none ((position.span .vertical).pin? .vertical) }

/-- The properties of a node with the size that a position gives. -/
def sized (p : NodeProperties) (position : Position) : NodeProperties :=
  { p with
    width := position.width <|> p.width
    height := position.height <|> p.height }

theorem setConstraint_horizontal (p : NodeProperties) (pin : Pin) :
    p.setConstraint (some pin) none =
      { p with constraints := pinnedTo p.constraints pin none } := by
  unfold setConstraint
  cases p.constraints <;> rfl

theorem setConstraint_vertical (p : NodeProperties) (pin : Pin) :
    p.setConstraint none (some pin) =
      { p with constraints := pinnedTo p.constraints none pin } := by
  unfold setConstraint
  cases p.constraints <;> rfl

theorem placeHorizontally_eq (p : NodeProperties) (position : Position) :
    p.placeHorizontally position =
      if Position.starts position.left position.right position.width then
        .ok (p.startedAcross position)
      else .error .integerTooLarge := by
  obtain ⟨top, right, bottom, left, width, height⟩ := position
  cases left with
  | some left => exact congrArg Except.ok (setConstraint_horizontal { p with x := some left } .left)
  | none =>
    cases right with
    | none => rfl
    | some right =>
      unfold placeHorizontally startedAcross
      simp only [setConstraint_horizontal, Position.span, Position.starts, Span.start?, fromFarSide]
      cases width with
      | none => rfl
      | some width =>
        cases h : right.neg.sub? width <;>
          simp [h, pinnedTo, Span.pin?, Except.map, Axis.farPin]

theorem placeVertically_eq (p : NodeProperties) (position : Position) :
    p.placeVertically position =
      if Position.starts position.top position.bottom position.height then
        .ok (p.startedDown position)
      else .error .integerTooLarge := by
  obtain ⟨top, right, bottom, left, width, height⟩ := position
  cases top with
  | some top => exact congrArg Except.ok (setConstraint_vertical { p with y := some top } .top)
  | none =>
    cases bottom with
    | none => rfl
    | some bottom =>
      unfold placeVertically startedDown
      simp only [setConstraint_vertical, Position.span, Position.starts, Span.start?, fromFarSide]
      cases height with
      | none => rfl
      | some height =>
        cases h : bottom.neg.sub? height <;>
          simp [h, pinnedTo, Span.pin?, Except.map, Axis.farPin]

/-- The properties of a node at a position. -/
def placed (p : NodeProperties) (position : Position) : NodeProperties :=
  ((p.startedAcross position).startedDown position).sized position

/-- Placing a node fails only where a start cannot be computed. -/
theorem place_eq (p : NodeProperties) (position : Position) :
    p.place position =
      if position.fits then .ok (p.placed position) else .error .integerTooLarge := by
  have step (q : NodeProperties) : (do
      let r ← q.placeVertically position
      return r.sized position) =
        if Position.starts position.top position.bottom position.height then
          .ok ((q.startedDown position).sized position)
        else .error .integerTooLarge := by
    rw [placeVertically_eq]
    split <;> rfl
  unfold place Position.fits
  rw [placeHorizontally_eq]
  cases Position.starts position.left position.right position.width with
  | false => rfl
  | true => exact step _

theorem axisPlace_placed (p : NodeProperties) (position : Position) (axis : Axis) :
    (p.placed position).axisPlace axis = (p.axisPlace axis).within axis (position.span axis) := by
  have pins : (p.placed position).constraints =
      pinnedTo p.constraints ((position.span .horizontal).pin? .horizontal)
        ((position.span .vertical).pin? .vertical) := pinnedTo_pinnedTo _ _ _
  cases axis with
  | horizontal =>
    unfold axisPlace
    simp only [pins, horizontal_pinnedTo]
    rfl
  | vertical =>
    unfold axisPlace
    simp only [pins, vertical_pinnedTo]
    rfl

/-- A position that pins nothing leaves the constraints alone. -/
theorem constraints_placed (p : NodeProperties) (position : Position)
    (h : ∀ axis, (position.span axis).pin? axis = none) :
    (p.placed position).constraints = p.constraints := by
  change pinnedTo (pinnedTo _ _ none) none _ = _
  rw [h .horizontal, h .vertical]
  rfl

/-- A node that is already at a position stays as it is there. -/
theorem placed_placed (p : NodeProperties) (position : Position) :
    (p.placed position).placed position = p.placed position := by
  have again {α : Type} (o old : Option α) : (o <|> (o <|> old)) = (o <|> old) := by
    cases o <;> rfl
  unfold placed startedAcross startedDown sized
  simp only [again, pinnedTo_pinnedTo, pinnedTo_self]

/-- Nothing is rounded on the way to a start, which is then where it should be. -/
theorem exists_start {s : Span} (h : s.Unrounded) {far size : Number}
    (hs : s = ⟨none, some far, some size⟩) :
    ∃ n a b, s.start? = some n ∧ far.place = some (.at a) ∧ size.place = some (.at b) ∧
      n.place = some (.at (-a - b)) := by
  obtain ⟨a, b, ha, hb, exact⟩ := h far size hs
  obtain ⟨n, hn, place⟩ := Number.place_sub? (Number.place_neg ha) hb exact
  subst hs
  exact ⟨n, a, b, hn, ha, hb, place⟩

theorem fits_of_unrounded {position : Position}
    (h : ∀ axis, (position.span axis).Unrounded) : position.fits := by
  have starts (near far size : Option Number) (h : Span.Unrounded ⟨near, far, size⟩) :
      Position.starts near far size := by
    unfold Position.starts
    split
    · obtain ⟨n, a, b, hn, -⟩ := exists_start h rfl
      rw [show (Number.neg _).sub? _ = some n from hn]
      rfl
    · rfl
  exact Bool.and_eq_true_iff.2 ⟨starts _ _ _ (h .horizontal), starts _ _ _ (h .vertical)⟩

/-- A node as it lies after a position is applied. Along each axis it has what the span of the
position gives, and else what it had; a start before the far side is where it should be unless it
has to be rounded. What comes out along an axis depends on the node and the position along that axis
alone. Nothing but coordinates, the size and the constraints changes, the constraints only if the
position pins something, and the same position once more changes nothing. -/
structure LiesAt (p : NodeProperties) (position : Position) (q : NodeProperties) : Prop where
  along : ∀ axis, q.axisPlace axis = (p.axisPlace axis).within axis (position.span axis)
  exact : ∀ axis far size, (position.span axis).Unrounded →
    position.span axis = ⟨none, some far, some size⟩ →
    ∃ n a b, (q.axisPlace axis).start = some n ∧ far.place = some (.at a) ∧
      size.place = some (.at b) ∧ n.place = some (.at (-a - b))
  alone : ∀ (p' q' : NodeProperties) (position' : Position), p'.place position' = .ok q' →
    ∀ axis, p'.axisPlace axis = p.axisPlace axis → position'.span axis = position.span axis →
      q'.axisPlace axis = q.axisPlace axis
  rest : ∃ x y width height constraints, q = { p with x, y, width, height, constraints }
  unpinned : (∀ axis, (position.span axis).pin? axis = none) → q.constraints = p.constraints
  again : q.place position = .ok q

theorem liesAt_placed (p : NodeProperties) {position : Position} (h : position.fits) :
    p.LiesAt position (p.placed position) := by
  refine ⟨p.axisPlace_placed position, fun axis far size exact hs => ?_,
    fun p' q' position' h' axis same sameSpan => ?_, ⟨_, _, _, _, _, rfl⟩,
    p.constraints_placed position, ?_⟩
  · obtain ⟨n, a, b, hn, places⟩ := exists_start exact hs
    refine ⟨n, a, b, ?_, places⟩
    rw [axisPlace_placed, AxisPlace.within, hn]
    rfl
  · rw [place_eq] at h'
    split at h'
    · obtain rfl : p'.placed position' = q' := Except.ok.inj h'
      rw [axisPlace_placed, axisPlace_placed, same, sameSpan]
    · cases h'
  · rw [place_eq, if_pos h, placed_placed]

/-- **Placing a node is exact along each axis.** It fails only where a start cannot be computed,
which is not so if nothing has to be rounded, and else the node lies as the position says. -/
theorem place_along_axes (p : NodeProperties) (position : Position) :
    (position.fits = false → p.place position = .error .integerTooLarge) ∧
      ((∀ axis, (position.span axis).Unrounded) → position.fits) ∧
      (position.fits → ∃ q, p.place position = .ok q ∧ p.LiesAt position q) := by
  rw [place_eq]
  refine ⟨fun h => by rw [h]; rfl, fits_of_unrounded, fun h => ?_⟩
  exact ⟨_, if_pos h, p.liesAt_placed h⟩

theorem place_along_axes_overconstrained :
    let position : Position :=
      { right := some 10, width := some 20, top := some 1, bottom := some 2 }
    let p : NodeProperties := { x := some 5, height := some 7, constraints := some {} }
    ∃ q, p.place position = .ok q ∧ p.LiesAt position q ∧
      q.axisPlace .horizontal = ⟨some (.int (-30)), some 20, some .right⟩ ∧
      q.axisPlace .vertical = ⟨some 1, some 7, some .top⟩ := by
  intro position p
  obtain ⟨-, fits, placed⟩ := place_along_axes p position
  have exact (axis : Axis) : (position.span axis).Unrounded := by
    intro far size hs
    cases axis with
    | horizontal =>
      obtain ⟨rfl, rfl⟩ : 10 = far ∧ 20 = size := by simpa [position, Position.span] using hs
      exact ⟨10, 20, by decide +kernel, by decide +kernel, .inl ⟨-10, 20, rfl, rfl⟩⟩
    | vertical => simp [position, Position.span] at hs
  obtain ⟨q, hq, lies⟩ := placed (fits exact)
  refine ⟨q, hq, lies, (lies.along .horizontal).trans ?_, (lies.along .vertical).trans ?_⟩
  · decide +kernel
  · decide +kernel

end NodeProperties

end DesignTree
