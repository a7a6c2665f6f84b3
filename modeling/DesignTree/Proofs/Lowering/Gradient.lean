import DesignTree.Proofs.Lowering.Arrangement
import DesignTree.Proofs.Lowering.Paints
import Mathlib.Data.List.TakeDrop
import Mathlib.Data.List.Zip

/-! # Gradients that fill a node

A gradient becomes a paint with a stop for each of its places, together with the colour at the same
index. Places that it does not give are reckoned for all colours, and no quotient has the divisor
zero (`Gradient.places?_eq`). Places that it gives are taken as they are, and colours beyond the
last one are left out: a gradient keeps its colours exactly if it gives no places or enough of them
(`Widget.gradients_of_lower`).
-/

namespace DesignTree

theorem map_snd_zip_take {α β : Type} (xs : List α) (ys : List β) :
    (xs.zip ys).map (·.2) = ys.take xs.length := by
  rw [← List.zip_swap, List.map_map]
  exact map_fst_zip_take ys xs

namespace Gradient

/-- A quotient, unless the divisor is zero. -/
def quotient? (a b : Nat) : Option Rat := if b = 0 then none else some (mkRat a b)

/-- The places of a gradient's colours, if none of them is a quotient with the divisor zero. -/
def places? (g : Gradient) : Option (List Number) :=
  let count := g.colors.length
  match g.stops with
  | some (stop :: stops) => some (stop :: stops)
  | _ =>
    (List.range count).mapM fun i =>
      if 1 < count then (quotient? i (count - 1)).map fun q => .float (Double.ofRat q) else some 0

/-- No division by zero can occur when the places are reckoned. -/
theorem places?_eq (g : Gradient) : g.places? = some (Widget.gradientPlaces g) := by
  have place (i : Nat) :
      (if 1 < g.colors.length then
        (quotient? i (g.colors.length - 1)).map fun q => Number.float (Double.ofRat q)
      else some 0) =
        some (if 1 < g.colors.length then
          .float (Double.ofRat (mkRat (i : Int) (g.colors.length - 1)))
        else 0) := by
    split
    · next several =>
      rw [quotient?, if_neg (by omega)]
      rfl
    · rfl
  unfold places? Widget.gradientPlaces
  simp only [place]
  cases g.stops with
  | none => exact List.mapM_pure
  | some stops =>
    cases stops with
    | nil => exact List.mapM_pure
    | cons => rfl

/-- Whether a gradient has a place for each of its colours: it gives none, or enough of them. -/
def hasPlaces (g : Gradient) : Bool :=
  g.stops.all fun stops => stops.isEmpty || g.colors.length ≤ stops.length

theorem length_places (g : Gradient) :
    (Widget.gradientPlaces g).length =
      if (g.stops.getD []).isEmpty then g.colors.length else (g.stops.getD []).length := by
  unfold Widget.gradientPlaces
  cases g.stops with
  | none => simp
  | some stops => cases stops <;> simp

theorem hasPlaces_iff (g : Gradient) :
    g.hasPlaces ↔ g.colors.length ≤ (Widget.gradientPlaces g).length := by
  rw [length_places, hasPlaces]
  cases g.stops with
  | none => simp
  | some stops => cases stops <;> simp

/-- The paint of a gradient with the given stops. -/
def paint (g : Gradient) (stops : List GradientStop) : Paint :=
  let kind := if g.kind = .radial then "GRADIENT_RADIAL" else "GRADIENT_LINEAR"
  { kind, gradientStops := some stops }

/-- The stops of places and colours. -/
def stopsAt (places : List Number) (colors : List Rgb) : List GradientStop :=
  (places.zip colors).map fun (place, color) => ⟨place.toDouble, color⟩

theorem colors_stopsAt (places : List Number) (colors : List Rgb) :
    (stopsAt places colors).map (·.color) = colors.take places.length := by
  rw [stopsAt, List.map_map, ← map_snd_zip_take]
  rfl

theorem positions_stopsAt (places : List Number) (colors : List Rgb) :
    (stopsAt places colors).map (·.position) = (places.take colors.length).map Number.toDouble := by
  rw [stopsAt, List.map_map, ← map_fst_zip_take, List.map_map]
  rfl

end Gradient

namespace Widget

open InRun

theorem eq_stopsAt {places : List Number} {colors : List Rgb} {stops : List GradientStop}
    (h : ((places.zip colors).mapM fun (place, color) => gradientStop place color) = .ok stops) :
    stops = Gradient.stopsAt places colors := by
  have made : List.Forall₂ (fun s (e : Number × Rgb) => s = GradientStop.mk e.1.toDouble e.2)
      stops (places.zip colors) := by
    refine (forall₂_of_mapM h).flip.imp ?_
    rintro s ⟨place, color⟩ hs
    simp only [gradientStop] at hs
    split at hs
    · cases hs
      rfl
    · cases hs
  exact List.forall₂_eq_eq_eq ▸ List.forall₂_map_right_iff.2 made

/-- The paint of a gradient whose colours are well formed. -/
theorem gradientPaint_of_colors {id : Text} {g : Gradient} {colors : List Rgb}
    (h : g.colors.map Rgb.ofHex? = colors.map some) :
    (gradientPaint id g).1 =
      (((gradientPlaces g).zip colors).mapM fun (place, color) => gradientStop place color).map
        fun stops => some (g.paint stops) := by
  have read : (g.colors.map (readColor id false)).mapM (·.1) = some colors := by
    have own : Prod.fst ∘ readColor id false = Rgb.ofHex? :=
      funext fun value => congrArg Prod.fst (readColor_eq id false value)
    have all := congrArg (List.mapM fun color => color) h
    rw [List.mapM_map, List.mapM_map] at all
    rw [List.mapM_map, own]
    exact all.trans (List.mapM_pure.trans (congrArg some (List.map_id colors)))
  unfold gradientPaint
  simp only [read]
  rfl

/-- A gradient fills a widget that is no text: no colour entry of the styling paints, and the
colours of the gradient, of which there are some, are well formed. -/
structure FilledBy (w : Widget) (g : Gradient) (colors : List Rgb) : Prop where
  kind : w.kind ≠ .text
  unpainted : ∀ c ∈ w.styling.colors, isFillEntry c → Rgb.ofHex? c.value = none
  decorated : w.properties.decoration.bind (·.gradient) = some g
  colored : g.colors ≠ []
  wellFormed : g.colors.map Rgb.ofHex? = colors.map some

/-- Fills that end with the paint of a gradient. There is no other gradient among them. -/
def EndsWith (fills : List Paint) (g : Gradient) (stops : List GradientStop) : Prop :=
  ∃ below, fills = below ++ [g.paint stops] ∧ ∀ p ∈ below, p.gradientStops = none

theorem plain_plainPaints (id value : Text) :
    ∀ p ∈ (plainPaints id value).1, p.gradientStops = none := by
  intro p hp
  obtain ⟨color, -, rfl⟩ : ∃ color, _ ∧ Paint.solid color = p := by
    simpa [plainPaints] using hp
  rfl

theorem endsWith_of_decorationPaints {id : Text} {d : Decoration} {g : Gradient}
    {colors : List Rgb} (hd : d.gradient = some g) (colored : g.colors ≠ [])
    (wellFormed : g.colors.map Rgb.ofHex? = colors.map some) {run after : Run} {ps : List Paint}
    (hy : (decorationPaints id d).Yields run ps after) :
    EndsWith ps g (Gradient.stopsAt (gradientPlaces g) colors) := by
  unfold decorationPaints at hy
  simp only [hd, yields_bind, yields_record] at hy
  obtain ⟨_, _, -, hy⟩ := hy
  rw [if_neg (by simpa using colored)] at hy
  simp only [yields_bind, yields_record, yields_lift, yields_pure] at hy
  obtain ⟨_, _, -, paint, _, ⟨hpaint, -⟩, rfl, -⟩ := hy
  rw [gradientPaint_of_colors wellFormed] at hpaint
  obtain ⟨stops, hstops, rfl⟩ := map_eq_ok_iff.1 hpaint
  rw [eq_stopsAt hstops]
  refine ⟨_, rfl, ?_⟩
  split
  · split
    · simp
    · exact plain_plainPaints id _
  · simp

theorem endsWith_of_fills {w : Widget} {g : Gradient} {colors : List Rgb}
    (h : w.FilledBy g colors) {run after : Run} {ps : List Paint}
    (hy : w.fills.Yields run ps after) :
    EndsWith ps g (Gradient.stopsAt (gradientPlaces g) colors) := by
  have none : (entryPaints w.id w.styling.colors).1 = [] := by
    rw [paints_entryPaints, List.filterMap_eq_nil_iff]
    intro c hc
    rw [List.mem_filter] at hc
    rw [h.unpainted c hc.1 hc.2]
    rfl
  unfold fills at hy
  simp only [yields_bind, yields_record, none] at hy
  obtain ⟨_, mid, -, hy⟩ := hy
  rw [if_neg (by simp)] at hy
  have decorated := h.decorated
  cases hd : w.properties.decoration with
  | none => simp [hd] at decorated
  | some d =>
    simp only [hd, yields_bind, yields_pure] at hy
    obtain ⟨paints, _, hp, rfl, -⟩ := hy
    rw [hd] at decorated
    obtain ⟨below, rfl, plain⟩ :=
      endsWith_of_decorationPaints decorated h.colored h.wellFormed hp
    rw [if_neg (by simp)]
    exact ⟨below, rfl, plain⟩

theorem endsWith_of_ownProperties {w : Widget} {g : Gradient} {colors : List Rgb}
    (h : w.FilledBy g colors) {p : NodeProperties} (hp : w.ownProperties.outcome = .ok p) :
    ∃ fills, p.fills = some fills ∧
      EndsWith fills g (Gradient.stopsAt (gradientPlaces g) colors) := by
  have own : w.ownProperties.Yields {} p _ := w.plain_ownProperties.yields_iff.2 ⟨hp, rfl⟩
  obtain ⟨q, hq, same⟩ := exists_rectangleProperties h.kind own
  unfold rectangleProperties at hq
  simp only [yields_bind, yields_lift, yields_pure] at hq
  obtain ⟨basic, _, -, fills, _, filled, strokes, _, -, rfl, -⟩ := hq
  exact ⟨fills, congrArg NodePaints.fills same, endsWith_of_fills h filled⟩

/-- The paint of a node for the gradient that fills its widget: the stops have the first colours,
and they have all of them exactly if the gradient has a place for each. -/
structure ShowsGradient (fills : List Paint) (g : Gradient) (colors : List Rgb)
    (stops : List GradientStop) : Prop where
  ends : EndsWith fills g stops
  places : stops.map (·.position) =
    ((gradientPlaces g).take colors.length).map Number.toDouble
  first : stops.map (·.color) <+: colors
  all : stops.map (·.color) = colors ↔ g.hasPlaces

theorem EndsWith.shows {fills : List Paint} {g : Gradient} {colors : List Rgb}
    (wellFormed : g.colors.map Rgb.ofHex? = colors.map some)
    (h : EndsWith fills g (Gradient.stopsAt (gradientPlaces g) colors)) :
    ShowsGradient fills g colors (Gradient.stopsAt (gradientPlaces g) colors) := by
  have length : g.colors.length = colors.length := by
    simpa using congrArg List.length wellFormed
  refine ⟨h, Gradient.positions_stopsAt _ _, ?_, ?_⟩
  · rw [Gradient.colors_stopsAt]
    exact List.take_prefix _ _
  · rw [Gradient.colors_stopsAt, List.take_eq_self_iff, g.hasPlaces_iff, length]

/-- **Which colours of a gradient are kept.** All over a lowered tree the node of a widget that a
gradient fills has a gradient paint. It has exactly one stop for each colour, in order, if and only
if the gradient gives no places or at least as many as colours; otherwise the colours beyond the
places are left out. Places are reckoned without a division by zero, and texts have no gradient. -/
theorem gradients_of_lower (w : Widget) (run : Run) :
    (∀ g : Gradient, g.places? = some (gradientPlaces g)) ∧
    (w.lower.Returns run ↔ w.lowerable = true) ∧
    ∀ n after, runFrom run w.lower = (.ok n, after) →
      Along (fun v m => m.widgetId = some v.id ∧
        (v.kind = .text → m.properties.fills = some [v.textFill.1]) ∧
        ∀ g colors, v.FilledBy g colors → ∃ fills stops, m.properties.fills = some fills ∧
          ShowsGradient fills g colors stops) w.pruned n := by
  refine ⟨Gradient.places?_eq, w.returns_lower_iff run, fun n after h => ?_⟩
  refine along_of_made ?_ ?_ w h
  · intro v p id ms m hp hm
    rw [paints_of_assemble hm]
    refine ⟨(isNodeOf_of_assemble hm).widgetId, fun ht => fills_of_ownProperties_text ht hp,
      fun g colors filled => ?_⟩
    obtain ⟨fills, hf, ends⟩ := endsWith_of_ownProperties filled hp
    exact ⟨fills, _, hf, ends.shows filled.wellFormed⟩
  · intro parent index v m p hp hm
    rw [paints_of_placedProperties hp]
    exact hm

theorem gradients_of_lower_dusk :
    let g : Gradient := { colors := ["#000000", "#FFFFFF"] }
    let w : Widget := { id := "dusk", kind := .container,
                        properties := { decoration := some { gradient := some g } } }
    ∃ n after fills stops, runFrom {} w.lower = (.ok n, after) ∧
      n.properties.fills = some fills ∧ EndsWith fills g stops ∧
      stops.map (·.color) = [.black, .white] := by
  intro g w
  obtain ⟨-, returns, shows⟩ := gradients_of_lower w {}
  obtain ⟨n, after, h⟩ := returns.2 (by decide +kernel)
  have filled : w.FilledBy g [.black, .white] :=
    ⟨by decide, by decide, rfl, by decide, by decide +kernel⟩
  obtain ⟨fills, stops, hf, shown⟩ := (shows n after h).root.2.2 g _ filled
  exact ⟨n, after, fills, stops, h, hf, shown.ends, shown.all.2 (by decide)⟩

/-- Three colours with the places of the first two: the third colour is lost. -/
theorem stops_of_two_places :
    let g : Gradient := { colors := ["#FF0000", "#00FF00", "#0000FF"], stops := some [0, 1] }
    let w : Widget := { id := "sky", kind := .container,
                        properties := { decoration := some { gradient := some g } } }
    let red : Rgb := .ofChannels 255 0 0
    let green : Rgb := .ofChannels 0 255 0
    w.FilledBy g [red, green, .ofChannels 0 0 255] ∧
      ∃ n after, runFrom {} w.lower = (.ok n, after) ∧
        n.properties.fills = some [g.paint [⟨.ofInt 0, red⟩, ⟨.ofInt 1, green⟩]] := by
  intro g w red green
  obtain ⟨n, after, h, fills⟩ := exists_yields_of_any (by decide +kernel :
    (runFrom {} w.lower).1.toOption.any (fun n => n.properties.fills =
      some [g.paint [⟨.ofInt 0, red⟩, ⟨.ofInt 1, green⟩]]) = true)
  exact ⟨⟨by decide, by decide, rfl, by decide, by decide +kernel⟩, n, after, h,
    of_decide_eq_true fills⟩

end Widget

end DesignTree
