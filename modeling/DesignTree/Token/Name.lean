import DesignTree.Text.Case
import DesignTree.Text.Search

/-! # Names of tokens

A token is named after the path to its value in a theme: the parts of the path in lower case, words
and parts held apart by dashes.
-/

namespace DesignTree.Token

open Text

/-- A word in camel case as words in lower case with dashes between them. -/
def kebab (s : Text) : Text :=
  Text.ofList ((lowerFrom false (markCapitals '-' s.toList)).dropWhile (· = '-'))

/-- The sections of a theme that a path may start with and a token's name does not show. -/
def silentSections : List Text := ["colorScheme.", "textTheme."]

/-- A path without the section in front. -/
def withoutSection (path : Text) : Text :=
  match silentSections.find? fun s => s.toList.isPrefixOf path.toList with
  | some s => Text.ofList (path.toList.drop s.length)
  | none => path

/-- The parts of a path. -/
def parts (path : Text) : List Text :=
  (path.toList.splitOnP (· == .ofChar '.')).map Text.ofList

/-- The name of the token that a path leads to. -/
def name (path : Text) : Text :=
  Text.intercalate "-" (((parts (withoutSection path)).filter (!·.isEmpty)).map kebab)

/-- The part of a path that follows the section of the text styles. -/
def styleAfterSection : List Text → Option Text
  | part :: next :: rest =>
    if part = "textTheme" then some next else styleAfterSection (next :: rest)
  | _ => none

/-- The name of the token for a property of the text style that a path leads to; a path to no text
style names a token of its own. -/
def typographyName (path property : Text) : Text :=
  match styleAfterSection (parts path) with
  | some style => kebab style ++ "-" ++ kebab property
  | none => name path

end DesignTree.Token
