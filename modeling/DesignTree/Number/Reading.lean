import DesignTree.Number.Basic
import DesignTree.Text.Blank
import DesignTree.Text.Digit

/-! # Numbers written as text

Digits may be grouped by single underscores. Numbers in documents use the digits 0 to 9 alone,
settings take the decimal digits of every script. The zeros at the start of an integer go away
first, and so do underscores among them, before what follows is read.
-/

namespace DesignTree.Number

open Text

/-- A sign in front of a number, and what follows it. -/
def splitSign : List Char → Bool × List Char
  | '-' :: rest => (true, rest)
  | '+' :: rest => (false, rest)
  | rest => (false, rest)

/-- The integer with the given sign and magnitude. -/
def signed (negative : Bool) (n : Nat) : Int := if negative then -(n : Int) else n

/-- Underscores stand neither first nor last nor side by side. -/
def underscoresSeparate (cs : List Char) : Bool :=
  cs.head? != some '_' && cs.getLast? != some '_' && !hasPair cs
where
  hasPair : List Char → Bool
    | '_' :: '_' :: _ => true
    | _ :: rest => hasPair rest
    | [] => false

/-- A text without its underscores, if they stand between other characters one by one. -/
def dropUnderscores (cs : List Char) : List Char :=
  if underscoresSeparate cs then cs.filter (· != '_') else cs

/-! ## Integers -/

/-- Integers have at most this many digits. -/
def digitLimit : Nat := 4300

/-- Why a text is no integer. -/
inductive IntFault
  | unreadable
  | oversized
  deriving DecidableEq, Repr

/-- A part after the point that adds nothing: a point and one or more zeros, at the end. -/
def dropZeroFraction (cs : List Char) : List Char :=
  let (whole, rest) := cs.span (· != '.')
  match rest with
  | '.' :: '0' :: zeros => if zeros.all (· == '0') then whole else cs
  | _ => cs

/-- What follows the zeros at the start, with any number of underscores among them: another digit
or a minus sign. One zero stays before a point, and the last character where nothing follows. -/
def dropLeadingZeros? : List Char → Option (List Char)
  | '0' :: rest =>
    let (zeros, tail) := rest.span fun c => c == '0' || c == '_'
    let last := ('0' :: zeros).getLast?.toList
    match tail with
    | [] => some last
    | c :: _ =>
      if c.isDigit || c = '-' then some tail
      else if c = '.' then some (last ++ tail)
      else none
  | c :: rest => if c.isDigit then some (c :: rest) else none
  | [] => none

/-- An integer in its plain form: a zero, or digits that start with another one, after an optional
minus sign. Too many digits are that, whatever follows them. -/
def readPlainInt (cs : List Char) : Except IntFault Int :=
  let (negative, unsigned) := match cs with
    | '-' :: rest => (true, rest)
    | rest => (false, rest)
  let (digits, rest) := unsigned.span Char.isDigit
  if digits.isEmpty || (digits.head? = some '0' && 1 < digits.length) then .error .unreadable
  else if digitLimit < digits.length then .error .oversized
  else if rest.isEmpty then .ok (signed negative (ofDigits (digits.filterMap asciiDigit?)))
  else .error .unreadable

/-- A text without what an integer does not need: blanks around it, a plus sign, zeros at the
start, a fraction of zeros, and underscores. -/
def simplify? (cs : List Char) : Option (List Char) :=
  let (sign, unsigned) := match trimList (fun c : Char => isWhiteSpace c) cs with
    | '-' :: rest => (['-'], rest)
    | '+' :: rest => ([], rest)
    | rest => ([], rest)
  (dropLeadingZeros? unsigned).map fun digits => sign ++ dropUnderscores (dropZeroFraction digits)

/-- An integer in a document's text. What is no plain integer is simplified and read again; that it
has too many digits counts only where they come first. -/
def readInt (s : String) : Except IntFault Int :=
  match readPlainInt s.toList with
  | .error .unreadable =>
    match (simplify? s.toList).map readPlainInt with
    | some (.ok n) => .ok n
    | _ => .error .unreadable
  | result => result

/-- The digits of groups that single underscores hold apart. -/
def groupedDigits? (cs : List Char) : Option (List Nat) :=
  let groups := cs.splitOnP (· == '_')
  if groups.any (·.isEmpty) then none else groups.flatten.mapM fun c : Char => decimalValue? c

/-- An integer in a setting, in decimal digits of any script. -/
def readSetting? (s : String) : Option Int := do
  let (negative, rest) := splitSign (trimList (fun c : Char => isWhiteSpace c) s.toList)
  let digits ← groupedDigits? rest
  if digits.length ≤ digitLimit then return signed negative (ofDigits digits) else none

/-! ## Doubles -/

/-- The exponent after the letter E, or zero where there is none. -/
def readExponent? : List Char → Option Int
  | [] => some 0
  | c :: rest =>
    if c = 'e' ∨ c = 'E' then
      let (negative, digits) := splitSign rest
      if digits.isEmpty then none
      else (digits.mapM asciiDigit?).map fun ds => signed negative (ofDigits ds)
    else none

/-- An unsigned decimal with at least one digit before or after the point. -/
def readDecimal? (negative : Bool) (cs : List Char) : Option Double := do
  let (whole, afterWhole) := cs.span Char.isDigit
  let (fraction, tail) := match afterWhole with
    | '.' :: rest => rest.span Char.isDigit
    | rest => ([], rest)
  if whole.isEmpty && fraction.isEmpty then none
  let digits ← (whole ++ fraction).mapM asciiDigit?
  let exponent ← readExponent? tail
  return Double.ofDecimal negative (ofDigits digits) (exponent - fraction.length)

/-- A decimal after an optional sign, or the word for an infinity or for no number. -/
def readPlainDouble? (cs : List Char) : Option Double :=
  let (negative, rest) := splitSign cs
  match String.ofList (rest.map Char.toLower) with
  | "inf" | "infinity" => some (.infinity negative)
  | "nan" => some (.notANumber false)
  | _ => readDecimal? negative rest

/-- A double in a document's text. White space around it and underscores do not go together. -/
def readDouble? (s : String) : Option Double :=
  match readPlainDouble? (trimList (fun c : Char => isWhiteSpace c) s.toList) with
  | some x => some x
  | none => readPlainDouble? (dropUnderscores s.toList)

end DesignTree.Number
