import DesignTree.Decode.Basic
import DesignTree.Number.Reading

/-! # Reading single values

Truth values and numbers may be written as text, and truth values may stand for numbers. Texts are
never made from anything else.
-/

namespace DesignTree

/-- A closed vocabulary: its members in order, and how each is spelled. -/
class Spelled (α : Type) where
  all : List α
  spelling : α → Text

export Spelled (spelling)

/-- The member with a spelling. -/
def Spelled.ofText? [Spelled α] (s : Text) : Option α :=
  (Spelled.all : List α).find? fun a => spelling a == s

/-- The spellings of a vocabulary. -/
def Spelled.names (α : Type) [Spelled α] : List Text := (Spelled.all : List α).map spelling

/-- A member of a vocabulary as a value. -/
def Value.ofSpelled [Spelled α] (a : α) : Value := .text (spelling a)

namespace Decoded

def text : Value → Decoded Text
  | .text s => .ok s
  | _ => .fail .notText

def any : Value → Decoded Value := .ok

/-- A reading of a text by its characters, which it has to consist of. -/
def written (read : String → Decoded α) (s : Text) : Decoded α :=
  match s.toString? with
  | some s => read s
  | none => .fail .brokenText

/-- The words that stand for the truth values, in lower case. -/
def readBool? (s : String) : Option Bool :=
  let word := String.ofList (s.toList.map Char.toLower)
  if ["0", "off", "f", "false", "n", "no"].contains word then some false
  else if ["1", "on", "t", "true", "y", "yes"].contains word then some true
  else none

/-- Whether a double lies among the integers of 64 bits with a sign, the least one left out. -/
def inWordRange (x : Double) : Bool :=
  match x.value? with
  | some q => -Number.wordBound < q && q < Number.wordBound
  | none => false

/-- A number as a truth value: only zero and one are. -/
def numberAsBool (n : Number) : Decoded Bool :=
  if n.same 0 then .ok false
  else if n.same 1 then .ok true
  else
    let whole : Bool := match n with
      | .int i => (-Number.wordBound ≤ i && i < Number.wordBound) || inWordRange n.toDouble
      | .float x => inWordRange x && (x.value?.map (·.den == 1)).getD false
    .fail (if whole then .unreadableBool else .notBool)

def bool : Value → Decoded Bool
  | .bool b => .ok b
  | .text s => s |> written fun s =>
    match readBool? s with
    | some b => .ok b
    | none => .fail .unreadableBool
  | .number n => numberAsBool n
  | _ => .fail .notBool

/-- A double without a fraction as an integer. -/
def doubleAsInt (x : Double) : Decoded Int :=
  match x.value? with
  | none => .fail .unboundedInt
  | some q =>
    if q.den ≠ 1 then .fail .fractionalInt
    else if inWordRange x then .ok q.num
    else .fail .oversizedInt

def int : Value → Decoded Int
  | .number (.int n) => .ok n
  | .number (.float x) => doubleAsInt x
  | .bool b => .ok (if b then 1 else 0)
  | .text s => s |> written fun s =>
    match Number.readInt s with
    | .ok n => .ok n
    | .error .unreadable => .fail .unreadableInt
    | .error .oversized => .fail .oversizedInt
  | _ => .fail .notInt

/-- A double. An integer out of its range is no double. -/
def double : Value → Decoded Double
  | .number n => if n.fitsDouble then .ok n.toDouble else .fail .notNumber
  | .bool b => .ok (Double.ofInt (if b then 1 else 0))
  | .text s => s |> written fun s =>
    match Number.readDouble? s with
    | some x => .ok x
    | none => .fail .unreadableNumber
  | _ => .fail .notNumber

/-- A number of either kind. What is no number yet is read as an integer first. -/
def number : Value → Decoded Number
  | .number n => .ok n
  | v =>
    match int v, double v with
    | .ok n, _ => .ok (.int n)
    | _, .ok x => .ok (.float x)
    | .failed is, .failed fs =>
      .failed (is.map (·.under "int") ++ fs.map (·.under "float"))

/-- A double kept as a number. -/
def float (v : Value) : Decoded Number := Number.float <$> double v

/-- A member of a closed vocabulary. -/
def spelled [Spelled α] : Value → Decoded α
  | .text s => s |> written fun s =>
    match Spelled.ofText? s with
    | some a => .ok a
    | none => .fail (.unlisted (Spelled.names α))
  | _ => .fail (.unlisted (Spelled.names α))

/-- One of a few fixed texts. -/
def oneOf [Spelled α] : Value → Decoded α
  | .text s => s |> written fun s =>
    match Spelled.ofText? s with
    | some a => .ok a
    | none => .fail (.unexpected (Spelled.names α))
  | _ => .fail (.unexpected (Spelled.names α))

end Decoded

end DesignTree
