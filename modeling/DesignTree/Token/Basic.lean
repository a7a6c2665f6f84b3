import DesignTree.Node.Color
import DesignTree.Theme
import DesignTree.Token.Name

/-! # Tokens

A token is a named value of a theme, kept in a collection. A token of one mode has one value, a
token of several modes a value for each mode that defines it.
-/

namespace DesignTree.Token

/-- The types of tokens. -/
inductive Kind
  | color
  | float
  | string
  | boolean
  deriving DecidableEq, Repr

instance : Spelled Kind where
  all := [.color, .float, .string, .boolean]
  spelling
    | .color => "COLOR"
    | .float => "FLOAT"
    | .string => "STRING"
    | .boolean => "BOOLEAN"

/-- What a token may be bound to. -/
inductive Scope
  | allFills
  | allStrokes
  | textContent
  | cornerRadius
  | widthHeight
  | gap
  | fontSize
  | fontFamily
  | fontWeight
  | lineHeight
  | letterSpacing
  deriving DecidableEq, Repr

instance : Spelled Scope where
  all := [.allFills, .allStrokes, .textContent, .cornerRadius, .widthHeight, .gap, .fontSize,
    .fontFamily, .fontWeight, .lineHeight, .letterSpacing]
  spelling
    | .allFills => "ALL_FILLS"
    | .allStrokes => "ALL_STROKES"
    | .textContent => "TEXT_CONTENT"
    | .cornerRadius => "CORNER_RADIUS"
    | .widthHeight => "WIDTH_HEIGHT"
    | .gap => "GAP"
    | .fontSize => "FONT_SIZE"
    | .fontFamily => "FONT_FAMILY"
    | .fontWeight => "FONT_WEIGHT"
    | .lineHeight => "LINE_HEIGHT"
    | .letterSpacing => "LETTER_SPACING"

/-- The value of a token. -/
inductive TokenValue
  | color (value : Rgb)
  | number (value : Number)
  | text (value : Text)
  deriving DecidableEq, Repr

def TokenValue.toValue : TokenValue → Value
  | .color c => c.toValue
  | .number n => .number n
  | .text s => .text s

/-- A token of one mode. -/
structure Variable where
  name : Text
  kind : Kind
  scopes : List Scope
  value : TokenValue
  description : Text := ""
  collection : Text := ""
  deriving DecidableEq, Repr

namespace Variable

def id (v : Variable) : Text := v.collection ++ "-" ++ v.name

def toValue (v : Variable) : Value :=
  .record [("id", .text v.id), ("name", .text v.name), ("type", .ofSpelled v.kind),
    ("scopes", .list (v.scopes.map .ofSpelled)), ("value", v.value.toValue),
    ("description", .text v.description)]

end Variable

/-- A token with a value for each of several modes. -/
structure ModalVariable where
  name : Text
  kind : Kind
  scopes : List Scope
  values : Entries TokenValue
  description : Text := ""
  collection : Text := ""
  deriving DecidableEq, Repr

namespace ModalVariable

def id (v : ModalVariable) : Text := "multimode-" ++ v.collection ++ "-" ++ v.name

def toValue (v : ModalVariable) : Value :=
  .record [("id", .text v.id), ("name", .text v.name), ("type", .ofSpelled v.kind),
    ("scopes", .list (v.scopes.map .ofSpelled)),
    ("values", .record (v.values.mapValues TokenValue.toValue)),
    ("description", .text v.description)]

end ModalVariable

/-- Tokens of one mode under a common name. -/
structure Collection where
  name : Text
  description : Text := ""
  tokens : List Variable := []
  deriving DecidableEq, Repr

namespace Collection

/-- The first token of a name. -/
def get? (c : Collection) (name : Text) : Option Variable :=
  c.tokens.find? (·.name == name)

def toValue (c : Collection) : Value :=
  .record [("name", .text c.name), ("description", .text c.description),
    ("variables", .list (c.tokens.map Variable.toValue))]

end Collection

/-- A mode of a collection. -/
structure Mode where
  name : Text
  id : Text
  deriving DecidableEq, Repr

/-- The modes of some names. -/
def Mode.ofNames (names : List Text) : List Mode :=
  names.zipIdx.map fun (name, i) => ⟨name, "mode-" ++ i.repr⟩

/-- Tokens of several modes under a common name. -/
structure ModalCollection where
  name : Text
  description : Text := ""
  modes : List Mode := []
  tokens : List ModalVariable := []
  deriving DecidableEq, Repr

namespace ModalCollection

/-- The first token of a name. -/
def get? (c : ModalCollection) (name : Text) : Option ModalVariable :=
  c.tokens.find? (·.name == name)

def toValue (c : ModalCollection) : Value :=
  .record [("name", .text c.name), ("description", .text c.description),
    ("modes", .list (c.modes.map fun m =>
      .record [("name", .text m.name), ("modeId", .text m.id)])),
    ("variables", .list (c.tokens.map ModalVariable.toValue))]

end ModalCollection

/-! ## What a theme gives tokens to -/

/-- The token of a colour role. -/
def colorName : ColorRole → Text
  | .primary => "primary"
  | .onPrimary => "on-primary"
  | .secondary => "secondary"
  | .onSecondary => "on-secondary"
  | .error => "error"
  | .onError => "on-error"
  | .background => "background"
  | .onBackground => "on-background"
  | .surface => "surface"
  | .onSurface => "on-surface"
  | .surfaceVariant => "surface-variant"
  | .onSurfaceVariant => "on-surface-variant"
  | .outline => "outline"
  | .shadow => "shadow"

/-- What a colour role is bound to. -/
def colorScopes : ColorRole → List Scope
  | .background | .surface | .surfaceVariant | .shadow => [.allFills]
  | .outline => [.allStrokes]
  | _ => [.allFills, .allStrokes]

/-- What a colour role is for. -/
def colorDescription : ColorRole → Text
  | .primary => "Primary brand color"
  | .onPrimary => "Color for content on primary background"
  | .secondary => "Secondary brand color"
  | .onSecondary => "Color for content on secondary background"
  | .error => "Error state color"
  | .onError => "Color for content on error background"
  | .background => "Background color"
  | .onBackground => "Color for content on background"
  | .surface => "Surface color for cards and sheets"
  | .onSurface => "Color for content on surface"
  | .surfaceVariant => "Surface variant color"
  | .onSurfaceVariant => "Color for content on surface variant"
  | .outline => "Outline color for borders"
  | .shadow => "Shadow color"

/-- The properties of text styles that have tokens. -/
inductive TextProperty
  | fontSize
  | fontFamily
  | fontWeight
  | lineHeight
  | letterSpacing
  deriving DecidableEq, Repr

namespace TextProperty

def all : List TextProperty := [.fontSize, .fontFamily, .fontWeight, .lineHeight, .letterSpacing]

/-- The last part of the names of a property's tokens. -/
def suffix : TextProperty → Text
  | .fontSize => "font-size"
  | .fontFamily => "font-family"
  | .fontWeight => "font-weight"
  | .lineHeight => "line-height"
  | .letterSpacing => "letter-spacing"

def kind : TextProperty → Kind
  | .fontFamily | .fontWeight => .string
  | _ => .float

def scope : TextProperty → Scope
  | .fontSize => .fontSize
  | .fontFamily => .fontFamily
  | .fontWeight => .fontWeight
  | .lineHeight => .lineHeight
  | .letterSpacing => .letterSpacing

def description : TextProperty → Text
  | .fontSize => "font size"
  | .fontFamily => "font family"
  | .fontWeight => "font weight"
  | .lineHeight => "line height multiplier"
  | .letterSpacing => "letter spacing"

/-- The value of a property in a text style; a weight by the name of its font style. -/
def valueIn (p : TextProperty) (s : TextStyle) : Option TokenValue :=
  match p with
  | .fontSize => s.fontSize.map .number
  | .fontFamily => s.fontFamily.map .text
  | .fontWeight => s.fontWeight.map fun w => .text (FontWeight.styleName (some w))
  | .lineHeight => s.height.map .number
  | .letterSpacing => s.letterSpacing.map .number

end TextProperty

/-- The values that a text style defines. -/
def styleValues (s : TextStyle) : List (TextProperty × TokenValue) :=
  TextProperty.all.filterMap fun p => (p.valueIn s).map (p, ·)

/-- The first part of the names of a text style's tokens. -/
def styleName (role : TextRole) : Text := kebab role.key.camel

/-- A name with dashes as words that start with capitals. -/
def title (name : Text) : Text :=
  Text.intercalate " " ((name.split '-').map Text.capitalizeFirst)

/-- A scale of a theme, and how its tokens are described. -/
structure Scale where
  label : Text
  stem : Text
  scopes : List Scope
  entries : Theme → KeyMap Text Number
  description : Text

namespace Scale

def spacing : Scale where
  label := "Spacing scale"
  stem := "spacing"
  scopes := [.gap, .widthHeight]
  entries := Theme.spacing
  description := "Spacing variables from Flutter spacing scale"

def borderRadius : Scale where
  label := "Border radius"
  stem := "border-radius"
  scopes := [.cornerRadius]
  entries := Theme.borderRadius
  description := "Border radius variables from Flutter border radius scale"

/-- The token of a key of a scale. -/
def tokenName (s : Scale) (key : Text) : Text := s.stem ++ "-" ++ key

end Scale

/-- What the collections of a theme hold, in words at the end of their names. -/
inductive Section
  | colors
  | typography
  | spacing
  | borderRadius
  deriving DecidableEq, Repr

/-- The collection of a theme's section. -/
def collectionName (theme : Text) : Section → Text
  | .colors => theme ++ " Colors"
  | .typography => theme ++ " Typography"
  | .spacing => theme ++ " Spacing"
  | .borderRadius => theme ++ " Border Radius"

end DesignTree.Token
