import DesignTree.Data.Encodable
import DesignTree.Data.KeyMap
import DesignTree.Widget.FontWeight

/-! # Themes

A theme gives colours to roles, styles to the roles of text, and two scales of distances. No role
and no name of a scale has two values (`KeyMap`).
-/

namespace DesignTree

/-- Whether a theme is light or dark. -/
inductive Brightness
  | light
  | dark
  deriving DecidableEq, Repr

instance : Spelled Brightness where
  all := [.light, .dark]
  spelling
    | .light => "light"
    | .dark => "dark"

/-- The roles that a theme gives colours to. -/
inductive ColorRole
  | primary
  | onPrimary
  | secondary
  | onSecondary
  | error
  | onError
  | background
  | onBackground
  | surface
  | onSurface
  | surfaceVariant
  | onSurfaceVariant
  | outline
  | shadow
  deriving DecidableEq, Repr

namespace ColorRole

/-- The roles in the order of a theme. -/
def all : List ColorRole := [.primary, .onPrimary, .secondary, .onSecondary, .error, .onError,
  .background, .onBackground, .surface, .onSurface, .surfaceVariant, .onSurfaceVariant, .outline,
  .shadow]

theorem nodup_all : all.Nodup := by decide

def key : ColorRole → Key
  | .primary => .word "primary"
  | .onPrimary => ⟨"onPrimary", "on_primary"⟩
  | .secondary => .word "secondary"
  | .onSecondary => ⟨"onSecondary", "on_secondary"⟩
  | .error => .word "error"
  | .onError => ⟨"onError", "on_error"⟩
  | .background => .word "background"
  | .onBackground => ⟨"onBackground", "on_background"⟩
  | .surface => .word "surface"
  | .onSurface => ⟨"onSurface", "on_surface"⟩
  | .surfaceVariant => ⟨"surfaceVariant", "surface_variant"⟩
  | .onSurfaceVariant => ⟨"onSurfaceVariant", "on_surface_variant"⟩
  | .outline => .word "outline"
  | .shadow => .word "shadow"

end ColorRole

/-- The roles that a theme gives text styles to. -/
inductive TextRole
  | displayLarge
  | displayMedium
  | displaySmall
  | headlineLarge
  | headlineMedium
  | headlineSmall
  | titleLarge
  | titleMedium
  | titleSmall
  | bodyLarge
  | bodyMedium
  | bodySmall
  | labelLarge
  | labelMedium
  | labelSmall
  deriving DecidableEq, Repr

namespace TextRole

/-- The roles in the order of a theme. -/
def all : List TextRole := [.displayLarge, .displayMedium, .displaySmall, .headlineLarge,
  .headlineMedium, .headlineSmall, .titleLarge, .titleMedium, .titleSmall, .bodyLarge, .bodyMedium,
  .bodySmall, .labelLarge, .labelMedium, .labelSmall]

theorem nodup_all : all.Nodup := by decide

def key : TextRole → Key
  | .displayLarge => ⟨"displayLarge", "display_large"⟩
  | .displayMedium => ⟨"displayMedium", "display_medium"⟩
  | .displaySmall => ⟨"displaySmall", "display_small"⟩
  | .headlineLarge => ⟨"headlineLarge", "headline_large"⟩
  | .headlineMedium => ⟨"headlineMedium", "headline_medium"⟩
  | .headlineSmall => ⟨"headlineSmall", "headline_small"⟩
  | .titleLarge => ⟨"titleLarge", "title_large"⟩
  | .titleMedium => ⟨"titleMedium", "title_medium"⟩
  | .titleSmall => ⟨"titleSmall", "title_small"⟩
  | .bodyLarge => ⟨"bodyLarge", "body_large"⟩
  | .bodyMedium => ⟨"bodyMedium", "body_medium"⟩
  | .bodySmall => ⟨"bodySmall", "body_small"⟩
  | .labelLarge => ⟨"labelLarge", "label_large"⟩
  | .labelMedium => ⟨"labelMedium", "label_medium"⟩
  | .labelSmall => ⟨"labelSmall", "label_small"⟩

end TextRole

namespace KeyMap

variable {κ α : Type}

/-- The values of roles among the fields of a record; roles without a value are left out. -/
def readRoles (key : κ → Key) (read : Value → Decoded α) (fs : Fields) :
    List κ → Decoded (List (κ × α))
  | [] => .ok []
  | role :: rest =>
    (fun found more => (found.map (role, ·)).toList ++ more)
      <$> fs.optional (key role) read
      <*> readRoles key read fs rest

theorem sublist_of_readRoles {key : κ → Key} {read : Value → Decoded α} {fs : Fields}
    {roles : List κ} {entries : List (κ × α)} (h : readRoles key read fs roles = .ok entries) :
    (entries.map (·.1)).Sublist roles := by
  induction roles generalizing entries with
  | nil =>
    cases h
    exact .slnil
  | cons role rest ih =>
    rw [readRoles, Decoded.seq_eq_ok_iff] at h
    obtain ⟨g, more, hg, hmore, rfl⟩ := h
    obtain ⟨found, -, rfl⟩ := Decoded.map_eq_ok_iff.1 hg
    cases found with
    | none => exact (ih hmore).cons role
    | some a => exact (ih hmore).cons_cons role

/-- The values of different roles in a record, in the order of the roles. -/
def decode (key : κ → Key) (read : Value → Decoded α) (fs : Fields) (roles : List κ)
    (h : roles.Nodup) : Decoded (KeyMap κ α) :=
  match made : readRoles key read fs roles with
  | .ok entries => .ok ⟨entries, (sublist_of_readRoles made).nodup h⟩
  | .failed issues => .failed issues

/-- The fields of a record for the roles that have a value. -/
def fields (key : κ → Key) (toValue : α → Value) (m : KeyMap κ α) : Fields :=
  m.map fun e => ((key e.1).camel, toValue e.2)

end KeyMap

/-- The colours of a theme. -/
structure ColorScheme where
  brightness : Brightness := .light
  colors : KeyMap ColorRole Text := {}
  deriving DecidableEq, Repr

namespace ColorScheme

def decode : Value → Decoded ColorScheme :=
  .record "ColorScheme" fun fs =>
    ColorScheme.mk
      <$> fs.orElse (.word "brightness") .light .oneOf
      <*> KeyMap.decode ColorRole.key .text fs ColorRole.all ColorRole.nodup_all

def toValue (s : ColorScheme) : Value :=
  .record (("brightness", .ofSpelled s.brightness) :: s.colors.fields ColorRole.key .text)

end ColorScheme

/-- A text style of a theme. -/
structure TextStyle where
  fontSize : Option Number := none
  fontWeight : Option Text := none
  fontFamily : Option Text := none
  letterSpacing : Option Number := none
  wordSpacing : Option Number := none
  height : Option Number := none
  color : Option Text := none
  deriving DecidableEq, Repr

namespace TextStyle

def decode : Value → Decoded TextStyle :=
  .record "TextStyle" fun fs =>
    TextStyle.mk
      <$> fs.optional ⟨"fontSize", "font_size"⟩ .number
      <*> fs.orElse ⟨"fontWeight", "font_weight"⟩ none FontWeight.decode
      <*> fs.optional ⟨"fontFamily", "font_family"⟩ .text
      <*> fs.optional ⟨"letterSpacing", "letter_spacing"⟩ .number
      <*> fs.optional ⟨"wordSpacing", "word_spacing"⟩ .number
      <*> fs.optional (.word "height") .number
      <*> fs.optional (.word "color") .text

def toValue (s : TextStyle) : Value :=
  .record (optionalField "fontSize" .number s.fontSize ++
    optionalField "fontWeight" .text s.fontWeight ++
    optionalField "fontFamily" .text s.fontFamily ++
    optionalField "letterSpacing" .number s.letterSpacing ++
    optionalField "wordSpacing" .number s.wordSpacing ++
    optionalField "height" .number s.height ++ optionalField "color" .text s.color)

end TextStyle

/-- The text styles of a theme. -/
structure TextTheme where
  styles : KeyMap TextRole TextStyle := {}
  deriving DecidableEq, Repr

namespace TextTheme

def decode : Value → Decoded TextTheme :=
  .record "TextTheme" fun fs =>
    TextTheme.mk <$> KeyMap.decode TextRole.key TextStyle.decode fs TextRole.all TextRole.nodup_all

def toValue (t : TextTheme) : Value := .record (t.styles.fields TextRole.key TextStyle.toValue)

end TextTheme

/-- A theme. -/
structure Theme where
  colorScheme : ColorScheme := {}
  textTheme : TextTheme := {}
  spacing : KeyMap Text Number := {}
  borderRadius : KeyMap Text Number := {}
  brightness : Option Brightness := none
  deriving DecidableEq, Repr

namespace Theme

/-- A scale of distances by name. -/
def decodeScale (v : Value) : Decoded (KeyMap Text Number) :=
  KeyMap.ofEntries <$> Decoded.mapOf .number v

/-- The record of a scale. -/
def scaleValue (scale : KeyMap Text Number) : Value :=
  .record ((Entries.toEncodable scale.entries).mapValues .number)

def decode : Value → Decoded Theme :=
  .record "ThemeModel" fun fs =>
    Theme.mk
      <$> fs.orElse ⟨"colorScheme", "color_scheme"⟩ {} ColorScheme.decode
      <*> fs.orElse ⟨"textTheme", "text_theme"⟩ {} TextTheme.decode
      <*> fs.orElse (.word "spacing") {} decodeScale
      <*> fs.orElse ⟨"borderRadius", "border_radius"⟩ {} decodeScale
      <*> fs.optional (.word "brightness") .oneOf

def toValue (t : Theme) : Value :=
  .record (([("colorScheme", t.colorScheme.toValue), ("textTheme", t.textTheme.toValue),
    ("spacing", scaleValue t.spacing), ("borderRadius", scaleValue t.borderRadius)] : Fields) ++
    optionalField "brightness" .ofSpelled t.brightness)

end Theme

end DesignTree
