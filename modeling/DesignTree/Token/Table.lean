import DesignTree.Token.Basic

/-! # The token table

A table is built from themes. Each theme gives four collections, and so do several themes taken
together as modes; a collection replaces an earlier one of its name. Malformed colours give no
token and are noted.
-/

namespace DesignTree

open Token

/-- The tokens of a run. -/
structure TokenTable where
  single : Entries Collection := []
  modal : Entries ModalCollection := []
  /-- The notes on malformed colours, the earliest first. -/
  issues : List Text := []
  deriving DecidableEq, Repr

namespace TokenTable

/-- The colour of a token, or the note on a malformed one. -/
def readColor (token value : Text) : Except Text Rgb :=
  match Rgb.ofHex value with
  | .ok c => .ok c
  | .error e => .error ("Skipped color token " ++ token ++ ": " ++ e.message)

/-- The colour that a theme gives to a role, where it gives one. -/
def roleColor (scheme : ColorScheme) (role : ColorRole) : Option (Except Text Rgb) :=
  (scheme.colors.get? role).map (readColor (colorName role))

/-- The colour of a role, if it is well formed. -/
def wellFormed : Option (Except Text Rgb) → Option Rgb
  | some (.ok c) => some c
  | _ => none

/-- The note on a role, if its colour is malformed. -/
def note : Option (Except Text Rgb) → Option Text
  | some (.error message) => some message
  | _ => none

/-- The colours of a theme as a collection. -/
def colorCollection (theme : Theme) (name : Text) : Collection where
  name
  description :=
    "Color variables from Flutter ColorScheme (" ++ spelling theme.colorScheme.brightness ++
      " mode)"
  tokens := ColorRole.all.filterMap fun role =>
    (wellFormed (roleColor theme.colorScheme role)).map fun c =>
      ⟨colorName role, .color, colorScopes role, .color c, colorDescription role, name⟩

/-- The notes on the colours of a theme. -/
def colorNotes (theme : Theme) : List Text :=
  ColorRole.all.filterMap fun role => note (roleColor theme.colorScheme role)

/-- The text styles of a theme as a collection. -/
def typographyCollection (theme : Theme) (name : Text) : Collection where
  name
  description := "Typography variables from Flutter TextTheme"
  tokens := theme.textTheme.styles.entries.flatMap fun (role, style) =>
    let label := styleName role
    (styleValues style).map fun (p, value) =>
      ⟨label ++ "-" ++ p.suffix, p.kind, [p.scope], value, title label ++ " " ++ p.description,
        name⟩

/-- A scale of a theme as a collection. -/
def scaleCollection (scale : Scale) (theme : Theme) (name : Text) : Collection where
  name
  description := scale.description
  tokens := (scale.entries theme).map fun (key, value) =>
    ⟨scale.tokenName key, .float, scale.scopes, .number value,
      scale.label ++ " " ++ key ++ " (" ++ value.text ++ "px)", name⟩

/-- The collections of a theme. -/
def themeCollections (theme : Theme) (themeName : Text) : List Collection := [
  colorCollection theme (collectionName themeName .colors),
  typographyCollection theme (collectionName themeName .typography),
  scaleCollection .spacing theme (collectionName themeName .spacing),
  scaleCollection .borderRadius theme (collectionName themeName .borderRadius)]

/-- The name of a theme that is given none. -/
def defaultTheme : Text := "Default"

/-- Adds the collections of a theme. -/
def addTheme (t : TokenTable) (theme : Theme) (themeName : Text := defaultTheme) : TokenTable :=
  { t with
    single := (themeCollections theme themeName).foldl (fun cs c => cs.set c.name c) t.single
    issues := t.issues ++ colorNotes theme }

/-- A name with blanks for its dashes. -/
def spoken (name : Text) : Text := Text.replaceChar '-' ' ' name

/-- The colours of several themes as one collection. A role that no theme gives a well-formed
colour to has no token. -/
def modalColors (themes : List (Theme × Text)) (modes : List Mode) (name : Text) :
    ModalCollection where
  name
  description := "Multi-mode color variables from Flutter ColorSchemes"
  modes
  tokens := ColorRole.all.filterMap fun role =>
    let values := themes.foldl (fun (vs : Entries TokenValue) (theme, mode) =>
      match wellFormed (roleColor theme.colorScheme role) with
      | some c => vs.set mode (.color c)
      | none => vs) []
    if values.isEmpty then none
    else some ⟨colorName role, .color, colorScopes role, values,
      spoken (colorName role) ++ " color across theme modes", name⟩

/-- The notes on the colours of several themes, role by role. -/
def modalColorNotes (themes : List (Theme × Text)) : List Text :=
  ColorRole.all.flatMap fun role =>
    themes.filterMap fun (theme, _) => note (roleColor theme.colorScheme role)

/-- Puts the value of a text property under a mode into the tokens collected so far. -/
def putTextValue (name mode : Text) (vars : Entries ModalVariable) (token : Text)
    (p : TextProperty) (value : TokenValue) : Entries ModalVariable :=
  let v := (vars.get? token).getD
    ⟨token, p.kind, [p.scope], [], spoken token ++ " across theme modes", name⟩
  vars.set token { v with values := v.values.set mode value }

/-- The text styles of several themes as one collection. -/
def modalTypography (themes : List (Theme × Text)) (modes : List Mode) (name : Text) :
    ModalCollection where
  name
  description := "Multi-mode typography variables from Flutter TextThemes"
  modes
  tokens :=
    let entries : List (Text × Text × TextProperty × TokenValue) :=
      themes.flatMap fun (theme, mode) =>
        theme.textTheme.styles.entries.flatMap fun (role, style) =>
          (styleValues style).map fun (p, value) =>
            (mode, styleName role ++ "-" ++ p.suffix, p, value)
    let vars := entries.foldl (fun vs (mode, token, p, value) =>
      putTextValue name mode vs token p value) ([] : Entries ModalVariable)
    vars.map (·.2)

/-- A scale of several themes as one collection. The keys are those of the first theme, whose values
also stand where another theme has none. -/
def modalScale (scale : Scale) (themes : List (Theme × Text)) (modes : List Mode)
    (name : Text) : ModalCollection where
  name
  description := "Multi-mode " ++ Text.lower scale.label ++ " variables"
  modes
  tokens :=
    match themes with
    | [] => []
    | (base, _) :: _ =>
      (scale.entries base).map fun (key, default) =>
        let values := themes.foldl (fun (vs : Entries TokenValue) (theme, mode) =>
          vs.set mode (.number (((scale.entries theme).get? key).getD default))) []
        ⟨scale.tokenName key, .float, scale.scopes, values,
          scale.label ++ " " ++ key ++ " across theme modes", name⟩

/-- The collections of several themes taken together. -/
def modalCollections (themes : List (Theme × Text)) (name : Text) : List ModalCollection :=
  let modes := Mode.ofNames (themes.map (·.2))
  [modalColors themes modes (collectionName name .colors),
    modalTypography themes modes (collectionName name .typography),
    modalScale .spacing themes modes (collectionName name .spacing),
    modalScale .borderRadius themes modes (collectionName name .borderRadius)]

/-- Adds the collections of several themes, one mode for each of them. There have to be as many
names as themes. Without themes nothing is added. -/
def addModes (t : TokenTable) (themes : List Theme) (names : List Text) (name : Text) :
    Except DesignError TokenTable :=
  if themes.length ≠ names.length then
    .error (.variable "Number of themes must match number of theme names" name)
  else if themes.isEmpty then .ok t
  else
    let named := themes.zip names
    .ok { t with
      modal := (modalCollections named name).foldl (fun cs c => cs.set c.name c) t.modal
      issues := t.issues ++ modalColorNotes named }

/-- The table of one theme. -/
def ofTheme (theme : Theme) (themeName : Text := defaultTheme) : TokenTable :=
  ({} : TokenTable).addTheme theme themeName

/-- The token of one mode in a collection. -/
def get? (t : TokenTable) (collection name : Text) : Option Variable :=
  (t.single.get? collection).bind (·.get? name)

/-- The token of several modes in a collection. -/
def getModal? (t : TokenTable) (collection name : Text) : Option ModalVariable :=
  (t.modal.get? collection).bind (·.get? name)

/-- The collections of one mode, in order. -/
def collections (t : TokenTable) : List Collection := t.single.map (·.2)

/-- The collections of several modes, in order. -/
def modalCollectionList (t : TokenTable) : List ModalCollection := t.modal.map (·.2)

/-- All tokens of one mode. -/
def tokens (t : TokenTable) : List Variable := t.collections.flatMap (·.tokens)

/-- All tokens of several modes. -/
def modalVariables (t : TokenTable) : List ModalVariable :=
  t.modalCollectionList.flatMap (·.tokens)

/-- The number of tokens. -/
def variableCount (t : TokenTable) : Nat := t.tokens.length + t.modalVariables.length

def toValue (t : TokenTable) : Value :=
  .record [("collections", .list (t.collections.map Collection.toValue)),
    ("multiModeCollections", .list (t.modalCollectionList.map ModalCollection.toValue))]

end TokenTable

end DesignTree
