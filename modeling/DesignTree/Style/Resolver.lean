import DesignTree.Lowering.Paints
import DesignTree.Style.Config
import DesignTree.Style.Result
import DesignTree.Token.Table

/-! # Applying styling to nodes

A resolver gives a node the look of a styling. A colour or a text property that refers to the theme
is bound to its token, if there is one; otherwise the literal value is taken with a warning, or an
error is reported. What a styling gives replaces what the node had before.
-/

namespace DesignTree

/-- The tokens and switches by which styles are resolved. -/
structure Resolver where
  tokens : TokenTable := {}
  config : StyleConfig := {}
  deriving DecidableEq, Repr

namespace Resolver

/-- A change of a node with a result, which a length beyond the doubles can end. -/
abbrev Change (α : Type) := ExceptT Rejection (StateM Node) α

/-- Changes the properties of the node. -/
def modifyProperties (f : NodeProperties → NodeProperties) : Change Unit :=
  modify fun n => { n with properties := f n.properties }

/-! ## Looking tokens up -/

/-- The binding of a property to the token of a name in a section of the theme. -/
def binding? (r : Resolver) (part : Token.Section) (name target : Text) : Option Binding :=
  let collection := Token.collectionName r.config.collectionPrefix part
  let modal :=
    if r.config.preferMultiMode then (r.tokens.getModal? collection name).map (·.id) else none
  let id := modal <|> (r.tokens.get? collection name).map (·.id)
  id.map fun id =>
    { targetProperty := target, variableId := id,
      variableAlias := some ("\x7b" ++ collection ++ "." ++ name ++ "\x7d") }

/-- The path by which an entry is resolved: that of a theme reference, if references count. -/
def activePath (r : Resolver) (isThemeReference : Bool) (path : Option Text) : Option Text :=
  if isThemeReference && r.config.useVariables then path.filter (!·.isEmpty) else none

/-- The paint list that a colour is meant for. -/
def paintTarget (property : Text) : Text :=
  if Widget.strokeProperties.contains property then "strokes" else "fills"

/-- The binding of a colour to its token. -/
def colorBinding? (r : Resolver) (property path : Text) : Option Binding :=
  r.binding? .colors (Token.name path) (paintTarget property)

/-- The binding of a text property to its token. -/
def typographyBinding? (r : Resolver) (property path : Text) : Option Binding :=
  r.binding? .typography (Token.typographyName path property) property

/-- The warning for a missing token whose literal value is taken. -/
def missingWarning (path : Text) : Text :=
  "Variable not found for " ++ path ++ ", using direct value"

/-- The error for a missing token. -/
def missingError (path : Text) : Text := "Variable not found for theme path: " ++ path

/-! ## Colours -/

def addFill (p : Paint) (props : NodeProperties) : NodeProperties :=
  { props with fills := some (props.fills.getD [] ++ [p]) }

def addStroke (p : Paint) (props : NodeProperties) : NodeProperties :=
  { props with strokes := some (props.strokes.getD [] ++ [p]) }

/-- The literal value of a colour entry on a node. A property that no node has is left out. -/
def applyLiteral (c : ColorEntry) : Change (Except DesignError StyleResult) := do
  let add :=
    if Widget.fillProperties.contains c.property then some addFill
    else if Widget.strokeProperties.contains c.property then some addStroke
    else none
  match add with
  | none =>
    return .ok (.ofWarning ("Color property " ++ c.property ++ " has no node equivalent"))
  | some add =>
    match Rgb.ofHex c.value with
    | .ok color =>
      modifyProperties (add (.solid color))
      return .ok (.ofApplied c.property)
    | .error e => return .error e

/-- The error for a malformed colour entry. -/
def malformedColor (c : ColorEntry) (e : DesignError) : StyleResult :=
  .ofError ("Failed to apply color " ++ c.property ++ ": " ++ e.message)

/-- One colour entry on a node. -/
def applyColor (r : Resolver) (c : ColorEntry) : Change StyleResult := do
  match r.activePath c.isThemeReference c.themePath with
  | none =>
    match ← applyLiteral c with
    | .ok result => return result
    | .error e => return malformedColor c e
  | some path =>
    match r.colorBinding? c.property path with
    | some b => return .ofBinding c.property b
    | none =>
      if r.config.fallbackToDirectValues then
        match ← applyLiteral c with
        | .ok result => return result.merge (.ofWarning (missingWarning path))
        | .error e => return malformedColor c e
      else return .ofError (missingError path)

/-- Colour entries on a node, one after the other. -/
def applyColors (r : Resolver) : List ColorEntry → Change StyleResult
  | [] => return {}
  | c :: rest => do
    let first ← r.applyColor c
    let others ← r.applyColors rest
    return (first.merge others).settled

/-! ## Typography -/

/-- A value of a text property. -/
inductive TextValue
  | fontSize (value : Number)
  | fontFamily (value : Text)
  | fontWeight (value : Text)
  | lineHeight (value : Number)
  | letterSpacing (value : Number)
  deriving DecidableEq, Repr

/-- The property that a value is for. -/
def TextValue.property : TextValue → Text
  | .fontSize _ => "fontSize"
  | .fontFamily _ => "fontFamily"
  | .fontWeight _ => "fontWeight"
  | .lineHeight _ => "lineHeight"
  | .letterSpacing _ => "letterSpacing"

/-- The values that a typography gives; an empty text gives none. -/
def textValues (t : Typography) : List TextValue :=
  (t.fontSize.map .fontSize).toList ++
    ((t.fontFamily.filter (!·.isEmpty)).map .fontFamily).toList ++
    ((t.fontWeight.filter (!·.isEmpty)).map .fontWeight).toList ++
    (t.lineHeight.map .lineHeight).toList ++ (t.letterSpacing.map .letterSpacing).toList

/-- A length of a text in its unit. An integer beyond the doubles is none. -/
def measure (model unit : Text) (n : Number) : Except Rejection Measure :=
  if n.fitsDouble then .ok ⟨unit, n.toDouble⟩ else .error ⟨model, [⟨["value"], .notNumber⟩]⟩

/-- A line height of so many lines, in percent. -/
def lineHeight (n : Number) : Except Rejection Measure :=
  measure "LineHeight" Measure.percent (n.times 100)

/-- A letter spacing in pixels. -/
def letterSpacing (n : Number) : Except Rejection Measure :=
  measure "LetterSpacing" Measure.pixels n

/-- A text, or another one if it is empty. -/
def orIfEmpty (s default : Text) : Text := if s.isEmpty then default else s

/-- The properties of a text node with one of them set. A font keeps what is not set of it. -/
def setText (v : TextValue) (p : NodeProperties) : Except Rejection NodeProperties :=
  let font := p.fontName.getD {}
  match v with
  | .fontSize n => .ok { p with fontSize := some n }
  | .fontFamily family =>
    let name : FontName := ⟨family, orIfEmpty font.style "Regular"⟩
    .ok { p with fontName := some name }
  | .fontWeight weight =>
    let name : FontName := ⟨orIfEmpty font.family "Inter", FontWeight.styleName (some weight)⟩
    .ok { p with fontName := some name }
  | .lineHeight n => (lineHeight n).map fun m => { p with lineHeight := some m }
  | .letterSpacing n => (letterSpacing n).map fun m => { p with letterSpacing := some m }

/-- A literal value of a text property on a node. -/
def applyTextLiteral (v : TextValue) : Change StyleResult := do
  match setText v (← get).properties with
  | .ok p =>
    modifyProperties fun _ => p
    return .ofApplied v.property
  | .error e => throw e

/-- A value of a text property on a node. -/
def applyTextValue (r : Resolver) (path : Option Text) (v : TextValue) : Change StyleResult := do
  match path with
  | none => applyTextLiteral v
  | some path =>
    match r.typographyBinding? v.property path with
    | some b => return .ofBinding v.property b
    | none =>
      if r.config.fallbackToDirectValues then
        let result ← applyTextLiteral v
        return result.merge (.ofWarning (missingWarning path))
      else return .ofError (missingError path)

/-- Values of text properties on a node, one after the other. -/
def applyTextValues (r : Resolver) (path : Option Text) : List TextValue → Change StyleResult
  | [] => return {}
  | v :: rest => do
    let first ← r.applyTextValue path v
    let others ← r.applyTextValues path rest
    return first.merge others

/-- The colour of a typography as an entry of its own. -/
def textColor (t : Typography) : List ColorEntry :=
  match t.color with
  | some value =>
    if value.isEmpty then []
    else [{ property := "color", value, isThemeReference := t.isThemeReference,
            themePath := t.themePath }]
  | none => []

/-- A typography on a node; only texts take one. -/
def applyTypography (r : Resolver) (t : Typography) : Change StyleResult := do
  if (← get).kind ≠ .text then
    return .ofWarning "Typography styles can only be applied to TEXT nodes"
  let values ← r.applyTextValues (r.activePath t.isThemeReference t.themePath) (textValues t)
  let color ← r.applyColors (textColor t)
  return (values.merge color).settled

/-! ## Spacing, borders and shadows -/

/-- Padding and margin on a node with automatic layout. A margin becomes the spacing between items,
as wide as its widest edge. -/
def applySpacing (s : Spacing) : Change StyleResult := do
  match (← get).autoLayout with
  | none => return {}
  | some layout =>
    let padded :=
      match s.padding with
      | some p => { layout with
          paddingTop := p.top, paddingRight := p.right
          paddingBottom := p.bottom, paddingLeft := p.left }
      | none => layout
    let spaced :=
      match s.margin with
      | some m => { padded with itemSpacing := m.maxEdge }
      | none => padded
    modify fun n => { n with autoLayout := some spaced }
    let part (isSet : Bool) (name : Text) : List Text := if isSet then [name] else []
    return { applied := part s.padding.isSome "padding" ++ part s.margin.isSome "margin" }

/-- The width and the colour of a border's stroke, if both are there. -/
def stroke? (b : Border) : Option (Number × Text) :=
  match b.width, b.color with
  | some width, some color => if width.isZero || color.isEmpty then none else some (width, color)
  | _, _ => none

/-- The properties of a node with corner radii. -/
def setRadius (r : BorderRadius) (p : NodeProperties) : NodeProperties :=
  if r.isUniform then
    { p with
      cornerRadius := some r.topLeft, topLeftRadius := none, topRightRadius := none
      bottomLeftRadius := none, bottomRightRadius := none }
  else
    { p with
      cornerRadius := none, topLeftRadius := some r.topLeft, topRightRadius := some r.topRight
      bottomLeftRadius := some r.bottomLeft, bottomRightRadius := some r.bottomRight }

/-- The stroke of a border on a node. -/
def applyStroke (b : Border) : Change StyleResult := do
  match stroke? b with
  | none => return {}
  | some (width, value) =>
    match Rgb.ofHex value with
    | .ok color =>
      modifyProperties fun p => { addStroke (.solid color) p with strokeWeight := some width }
      return .ofApplied "border"
    | .error e => return .ofError ("Failed to apply border styles: " ++ e.message)

/-- The corners of a border on a node. -/
def applyRadius (b : Border) : Change StyleResult := do
  match b.radius with
  | none => return {}
  | some r =>
    modifyProperties (setRadius r)
    return .ofApplied "borderRadius"

/-- A border on a node. -/
def applyBorders (b : Border) : Change StyleResult := do
  let stroke ← applyStroke b
  let radius ← applyRadius b
  return (stroke.merge radius).settled

/-- The effect of a shadow: an error for a malformed colour, and a rejection for lengths beyond the
doubles. -/
def shadowEffect (s : Shadow) : Except Rejection (Except DesignError Effect) :=
  let number (name : Text) (n : Number) : Decoded Double :=
    if n.fitsDouble then .ok n.toDouble else (Decoded.fail .notNumber).under name
  match Rgb.ofHex s.color with
  | .error e => .ok (.error e)
  | .ok color => do
    let offset ← (Offset.mk <$> number "x" s.offset.x <*> number "y" s.offset.y).asModel "Vector"
    let effect ← ((fun radius spread => ({ color, offset, radius, spread } : Effect))
      <$> number "radius" s.blur
      <*> number "spread" ((s.spread.filter (!·.isZero)).getD 0)).asModel "Effect"
    return .ok effect

/-- The effects of shadows up to the first malformed colour. -/
def shadowEffects : List Shadow → Except Rejection (Except DesignError (List Effect))
  | [] => .ok (.ok [])
  | s :: rest => do
    match ← shadowEffect s with
    | .error e => return .error e
    | .ok effect =>
      match ← shadowEffects rest with
      | .error e => return .error e
      | .ok effects => return .ok (effect :: effects)

/-- Shadows on a node; none of them, if one has a malformed colour. -/
def applyShadows (shadows : List Shadow) : Change StyleResult := do
  match shadowEffects shadows with
  | .error rejection => throw rejection
  | .ok (.error e) => return .ofError ("Failed to apply shadow styles: " ++ e.message)
  | .ok (.ok effects) =>
    modifyProperties fun p => { p with effects := some (p.effects.getD [] ++ effects) }
    return .ofApplied "shadows"

/-! ## Whole stylings -/

/-- Whether a styling gives a text its colour by typography. -/
def colorsText (kind : NodeKind) (s : Styling) : Bool :=
  kind = .text && Widget.isFilled (s.typography.bind (·.color))

/-- Whether a styling takes the place of a node's fills. -/
def replacesFills (kind : NodeKind) (s : Styling) : Bool :=
  colorsText kind s || s.colors.any fun c => Widget.fillProperties.contains c.property

/-- Whether a styling takes the place of a node's strokes. -/
def replacesStrokes (s : Styling) : Bool :=
  (s.borders.bind stroke?).isSome ||
    s.colors.any fun c => Widget.strokeProperties.contains c.property

/-- The node without the paints and effects that a styling replaces. -/
def clearPaints (s : Styling) (n : Node) : Node :=
  let p := n.properties
  { n with properties := { p with
      fills := if replacesFills n.kind s then some [] else p.fills
      strokes := if replacesStrokes s then some [] else p.strokes
      effects := if s.shadows.isEmpty then p.effects else some [] } }

/-- Whether an aspect of a styling applies to a kind of node: typography is for texts. -/
def textOnly (kind : NodeKind) (t : Option Typography) : Option Typography :=
  if kind = .text then t else none

/-- The aspects of a styling in the order in which they are applied to a kind of node. -/
def aspects (r : Resolver) (kind : NodeKind) (s : Styling) : List (Change StyleResult) :=
  (if s.colors.isEmpty then [] else [r.applyColors s.colors]) ++
    ((textOnly kind s.typography).map r.applyTypography).toList ++
    (s.spacing.map applySpacing).toList ++ (s.borders.map applyBorders).toList ++
    if s.shadows.isEmpty then [] else [applyShadows s.shadows]

/-- Aspects one after the other on a node: the node after them, the results merged onto an earlier
one, and the rejection that ended them, if there was one. -/
def applyAspects (n : Node) (result : StyleResult) :
    List (Change StyleResult) → Node × StyleResult × Option Rejection
  | [] => (n, result, none)
  | aspect :: rest =>
    match StateT.run (ExceptT.run aspect) n with
    | (.ok own, n) => applyAspects n (result.merge own) rest
    | (.error rejection, n) => (n, result, some rejection)

/-- A node with a styling, and what came of it. Bindings are added to those of the node. A length
beyond the doubles ends the styling with an error and leaves the bindings of the node alone. -/
def applyStyles (r : Resolver) (n : Node) (s : Styling) : Node × StyleResult :=
  match applyAspects (clearPaints s n) {} (r.aspects n.kind s) with
  | (n, result, none) =>
    ({ n with bindings := n.bindings ++ result.bindings }, result.settled)
  | (n, result, some rejection) =>
    (n, { result with
      errors := result.errors ++ ["Failed to apply styles: " ++ rejection.headline] }.settled)

/-! ## Single aspects -/

/-- The aspects of a styling. -/
inductive Aspect
  | colors
  | typography
  | spacing
  | borders
  | shadows
  deriving DecidableEq, Repr

/-- A single aspect of a styling on a node. An aspect that the styling does not have is a fault as
soon as something of it is asked for. -/
def applyAspect (r : Resolver) (n : Node) (s : Styling) (a : Aspect) :
    Except Fault StyleResult × Node :=
  let run (change : Change StyleResult) : Except Fault StyleResult × Node :=
    match StateT.run (ExceptT.run change) n with
    | (.ok result, n) => (.ok result, n)
    | (.error rejection, n) => (.error (.rejected rejection), n)
  let absent (name : Text) : Except Fault StyleResult × Node :=
    (.error (.noAttribute .null name), n)
  match a with
  | .colors => run (r.applyColors s.colors)
  | .typography =>
    match s.typography with
    | some t => run (r.applyTypography t)
    | none => if n.kind = .text then absent "font_size" else run (r.applyTypography {})
  | .spacing =>
    match s.spacing with
    | some spacing => run (applySpacing spacing)
    | none => if n.autoLayout.isSome then absent "padding" else run (applySpacing {})
  | .borders =>
    match s.borders with
    | some b => run (applyBorders b)
    | none => absent "width"
  | .shadows => run (applyShadows s.shadows)

end Resolver

end DesignTree
