import DesignTree.Data.Value
import DesignTree.Number.Reading

/-! # Reading JSON

A reader for JSON texts. A number with a fraction or an exponent is a double, any other number an
integer, with a limit to its digits. There is a limit too to how deep lists and records stand inside
each other. Where a record names a field twice, the later value stands in
the place of the first. The words for the infinities and for no number are accepted beside the
standard grammar.
-/

namespace DesignTree.Json

open Text

/-- The text after the blanks of JSON. -/
def skipSpace (cs : List Char) : List Char :=
  cs.dropWhile fun c => c == ' ' || c == '\t' || c == '\n' || c == '\r'

/-- The unit of four hexadecimal digits. -/
def readUnit? (a b c d : Char) : Option CodePoint := do
  let n := (((← hexValue? a) * 16 + (← hexValue? b)) * 16 + (← hexValue? c)) * 16 + (← hexValue? d)
  return .ofNat n

/-- The character that is written as a backslash and a letter or a mark. -/
def escaped? : Char → Option Char
  | '"' => some '"'
  | '\\' => some '\\'
  | '/' => some '/'
  | 'b' => some '\x08'
  | 'f' => some '\x0c'
  | 'n' => some '\n'
  | 'r' => some '\r'
  | 't' => some '\t'
  | _ => none

/-- What stands before the closing quote of a text, and what follows the quote. A backslash goes
with the character after it. `done` holds the characters so far, the last one first. -/
def splitQuoted? (done : List Char) : List Char → Option (List Char × List Char)
  | [] => none
  | '"' :: rest => some (done.reverse, rest)
  | '\\' :: c :: rest => splitQuoted? (c :: '\\' :: done) rest
  | c :: rest => splitQuoted? (c :: done) rest

/-- The text that stands between quotes. Control characters are not allowed there. `done` holds what
is read so far, the last code point first. -/
def unescape? (done : List CodePoint) : List Char → Option Text
  | [] => some (Text.ofList done.reverse)
  | '\\' :: 'u' :: a :: b :: c :: d :: rest =>
    match readUnit? a b c d with
    | some unit => unescape? (pushUnit done unit) rest
    | none => none
  | '\\' :: c :: rest =>
    match escaped? c with
    | some c => unescape? (c :: done) rest
    | none => none
  | c :: rest => if c.toNat < 0x20 ∨ c = '\\' then none else unescape? (c :: done) rest

/-- A quoted text after its opening quote, and what follows it. -/
def readQuoted? (cs : List Char) : Option (Text × List Char) := do
  let (body, rest) ← splitQuoted? [] cs
  return (← unescape? [] body, rest)

/-- The whole part of a number: a zero alone, or digits that do not start with one. -/
def readWhole? : List Char → Option (List Char × List Char)
  | '0' :: rest => some (['0'], rest)
  | cs =>
    let (digits, rest) := cs.span Char.isDigit
    if digits.isEmpty then none else some (digits, rest)

/-- The digits of a fraction; a point that no digit follows does not belong to the number. -/
def readFraction (cs : List Char) : Option (List Char) × List Char :=
  match cs with
  | '.' :: rest =>
    let (digits, after) := rest.span Char.isDigit
    if digits.isEmpty then (none, cs) else (some digits, after)
  | _ => (none, cs)

/-- The value of an exponent; a letter that no digit follows does not belong to the number. -/
def readExponent (cs : List Char) : Option Int × List Char :=
  match cs with
  | c :: rest =>
    if c = 'e' ∨ c = 'E' then
      let (negative, unsigned) := Number.splitSign rest
      let (digits, after) := unsigned.span Char.isDigit
      if digits.isEmpty then (none, cs)
      else (some (Number.signed negative (ofDigits (digits.filterMap asciiDigit?))), after)
    else (none, cs)
  | [] => (none, cs)

/-- Why a text gives no value. -/
inductive ReadFault
  | malformed
  /-- An integer with more digits than are read. -/
  | tooManyDigits (count : Nat)
  /-- A list, or a record, inside too many others. -/
  | tooDeep (isList : Bool)
  deriving DecidableEq, Repr

/-- Lists and records stand inside each other up to this depth. -/
def depthLimit : Nat := 985

/-- What is at the start of a text with what follows it, or else the text is malformed. -/
def orMalformed : Option (α × List Char) → Except ReadFault (α × List Char)
  | some result => .ok result
  | none => .error .malformed

/-- A number at the start of a text. -/
def readNumber (cs : List Char) : Except ReadFault (Number × List Char) := do
  let (negative, unsigned) := match cs with
    | '-' :: rest => (true, rest)
    | rest => (false, rest)
  let (whole, rest) ← orMalformed (readWhole? unsigned)
  let (fraction, rest) := readFraction rest
  let (exponent, rest) := readExponent rest
  match fraction, exponent with
  | none, none =>
    if whole.length ≤ Number.digitLimit then
      return (.int (Number.signed negative (ofDigits (whole.filterMap asciiDigit?))), rest)
    else throw (.tooManyDigits whole.length)
  | _, _ =>
    let places := fraction.getD []
    let digits := ofDigits ((whole ++ places).filterMap asciiDigit?)
    return (.float (Double.ofDecimal negative digits (exponent.getD 0 - places.length)), rest)

/-- What follows a word at the start of a text. -/
def afterWord? (word : String) (cs : List Char) : Option (List Char) :=
  let w := word.toList
  if w.isPrefixOf cs then some (cs.drop w.length) else none

/-- A value without parts at the start of a text. -/
def readLeaf (cs : List Char) : Except ReadFault (Value × List Char) :=
  let words : List (String × Value) := [
    ("null", .null), ("true", .bool true), ("false", .bool false),
    ("NaN", .ofDouble (.notANumber true)), ("Infinity", .ofDouble (.infinity false)),
    ("-Infinity", .ofDouble (.infinity true))]
  match words.findSome? fun w => (afterWord? w.1 cs).map ((w.2, ·)) with
  | some result => .ok result
  | none => do
    let (n, rest) ← readNumber cs
    return (.number n, rest)

mutual

/-- A value at the start of a text, inside of `depth` lists and records. -/
def readValue (depth : Nat) : Nat → List Char → Except ReadFault (Value × List Char)
  | 0, _ => .error .malformed
  | fuel + 1, cs =>
    match skipSpace cs with
    | '"' :: rest => do
      let (s, rest) ← orMalformed (readQuoted? rest)
      return (.text s, rest)
    | '[' :: rest => do
      if depthLimit ≤ depth then throw (.tooDeep true)
      match skipSpace rest with
      | ']' :: after => return (.list [], after)
      | more =>
        let (items, rest) ← readItems (depth + 1) fuel [] more
        return (.list items, rest)
    | '{' :: rest => do
      if depthLimit ≤ depth then throw (.tooDeep false)
      match skipSpace rest with
      | '}' :: after => return (.record [], after)
      | more =>
        let (fields, rest) ← readFields (depth + 1) fuel [] more
        return (.record fields, rest)
    | more => readLeaf more

/-- The rest of a list before an item; `done` holds the items so far, the last one first. -/
def readItems (depth : Nat) :
    Nat → List Value → List Char → Except ReadFault (List Value × List Char)
  | 0, _, _ => .error .malformed
  | fuel + 1, done, cs => do
    let (item, rest) ← readValue depth fuel cs
    match skipSpace rest with
    | ',' :: more => readItems depth fuel (item :: done) more
    | ']' :: after => return ((item :: done).reverse, after)
    | _ => throw .malformed

/-- The rest of a record before a field; `done` holds the fields so far. -/
def readFields (depth : Nat) : Nat → Fields → List Char → Except ReadFault (Fields × List Char)
  | 0, _, _ => .error .malformed
  | fuel + 1, done, cs =>
    match skipSpace cs with
    | '"' :: rest => do
      let (name, rest) ← orMalformed (readQuoted? rest)
      match skipSpace rest with
      | ':' :: rest =>
        let (value, rest) ← readValue depth fuel rest
        match skipSpace rest with
        | ',' :: more => readFields depth fuel (done.set name value) more
        | '}' :: after => return (done.set name value, after)
        | _ => throw .malformed
      | _ => throw .malformed
    | _ => .error .malformed

end

/-- The value that a whole text stands for. -/
def read (s : String) : Except ReadFault Value := do
  let cs := s.toList
  let (value, rest) ← readValue 0 (2 * cs.length + 2) cs
  if (skipSpace rest).isEmpty then return value else throw .malformed

end DesignTree.Json
