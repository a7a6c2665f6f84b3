import DesignTree.Node.Color
import DesignTree.Proofs.Text.Trim
import DesignTree.Text.Case
import Mathlib.Data.List.Basic

/-! # Colours and their hexadecimal texts

`Rgb.Spells` is the form of a hexadecimal colour: blanks aside, three or six hexadecimal digits
after at most one number sign. These texts are read as colours and no others. A colour that is read
is written as its six digits in upper case, with three digits doubled, and is read back from them
(`Rgb.ofHex_iff_spells`). Nothing is lost on the way through the channels, which are doubles: of a
number up to 255 the channel is the double nearest to its share of 255, and 255 times the channel is
nearest to the number again (`Rgb.nearestInt_channel`).
-/

namespace DesignTree

open Text

/-- The digits 0 to 9 and the letters a to f in either case. -/
def CodePoint.IsHexDigit (c : CodePoint) : Prop :=
  ('0' ≤ c ∧ c ≤ '9') ∨ ('a' ≤ c ∧ c ≤ 'f') ∨ ('A' ≤ c ∧ c ≤ 'F')

/-- The digit for a value below sixteen, in upper case. -/
def CodePoint.hexDigit (n : Nat) : CodePoint := .ofChar (Nat.digitChar n).toUpper

namespace Rgb

open CodePoint

/-- A text that shows a colour by the given digits. -/
structure Spells (s : Text) (digits : List CodePoint) : Prop where
  text : (trim s).toList = digits ∨ (trim s).toList = .ofChar '#' :: digits
  isHexDigit : ∀ c ∈ digits, c.IsHexDigit
  length : digits.length = 3 ∨ digits.length = 6

/-- Six digits, made of three by doubling each. -/
def sixDigits (digits : List CodePoint) : List CodePoint :=
  if digits.length = 3 then digits.flatMap fun c => [c, c] else digits

/-- The text that is written for a colour of the given digits. -/
def canonical (digits : List CodePoint) : Text := "#" ++ upper (.ofList (sixDigits digits))

/-! ## Digits -/

theorem isHexDigit_iff_isSome (c : CodePoint) : c.IsHexDigit ↔ (hexValue? c).isSome = true := by
  unfold IsHexDigit hexValue?
  split
  · simp [*]
  · split
    · simp [*]
    · split <;> simp [*]

/-- There are few code points to look at for a digit. -/
theorem exists_ofNat_of_isHexDigit {c : CodePoint} (h : c.IsHexDigit) :
    ∃ m < 103, c = .ofNat m ∧ (hexValue? (.ofNat m)).isSome = true := by
  have bound : c.toNat < 103 := by
    rcases h with ⟨-, h⟩ | ⟨-, h⟩ | ⟨-, h⟩ <;> exact Nat.lt_of_le_of_lt h (by decide)
  have number : CodePoint.ofNat c.toNat = c := dif_pos c.isLt
  exact ⟨c.toNat, bound, number.symm, by rw [number]; exact (isHexDigit_iff_isSome c).1 h⟩

/-- A digit has a value below sixteen, which tells its upper-case form. -/
theorem exists_value_of_isHexDigit {c : CodePoint} (h : c.IsHexDigit) :
    ∃ n < 16, hexValue? c = some n ∧ upperChar c = [hexDigit n] := by
  have values : ∀ m < 103, (hexValue? (.ofNat m)).all fun n =>
      decide (n < 16 ∧ upperChar (.ofNat m) = [hexDigit n]) := by
    decide +kernel
  obtain ⟨m, bound, rfl, some⟩ := exists_ofNat_of_isHexDigit h
  obtain ⟨n, hn⟩ := Option.isSome_iff_exists.1 some
  have own := values m bound
  rw [hn, Option.all_some, decide_eq_true_eq] at own
  exact ⟨n, own.1, hn, own.2⟩

theorem isBlank_of_isHexDigit {c : CodePoint} (h : c.IsHexDigit) : isBlank c = false := by
  have blanks : ∀ m < 103, (hexValue? (.ofNat m)).isSome = true → isBlank (.ofNat m) = false := by
    decide +kernel
  obtain ⟨m, bound, rfl, some⟩ := exists_ofNat_of_isHexDigit h
  exact blanks m bound some

theorem isHexDigit_hexDigit : ∀ n < 16, (hexDigit n).IsHexDigit := by
  simp only [isHexDigit_iff_isSome]
  decide

theorem hexValue?_hexDigit : ∀ n < 16, hexValue? (hexDigit n) = some n := by decide

/-- Digits have values, which tell their upper-case forms. -/
theorem exists_values {digits : List CodePoint} (h : ∀ c ∈ digits, c.IsHexDigit) :
    ∃ values, digits.mapM hexValue? = some values ∧ (∀ n ∈ values, n < 16) ∧
      digits.flatMap upperChar = values.map hexDigit := by
  induction digits with
  | nil => exact ⟨[], rfl, by simp, rfl⟩
  | cons c rest ih =>
    rw [List.forall_mem_cons] at h
    obtain ⟨n, bound, value, form⟩ := exists_value_of_isHexDigit h.1
    obtain ⟨values, read, bounds, forms⟩ := ih h.2
    refine ⟨n :: values, ?_, List.forall_mem_cons.2 ⟨bound, bounds⟩, ?_⟩
    · rw [List.mapM_cons, value, read]
      rfl
    · rw [List.flatMap_cons, form, forms, List.map_cons, List.singleton_append]

/-- What has values consists of digits. -/
theorem isHexDigit_of_mapM {digits : List CodePoint} {values : List Nat}
    (h : digits.mapM hexValue? = some values) :
    digits.length = values.length ∧ ∀ c ∈ digits, c.IsHexDigit := by
  induction digits generalizing values with
  | nil =>
    cases h
    exact ⟨rfl, by simp⟩
  | cons c rest ih =>
    rw [List.mapM_cons] at h
    obtain ⟨n, value, h⟩ := Option.bind_eq_some_iff.1 h
    obtain ⟨values, read, h⟩ := Option.bind_eq_some_iff.1 h
    cases h
    obtain ⟨length, digits⟩ := ih read
    refine ⟨congrArg (· + 1) length, List.forall_mem_cons.2 ⟨?_, digits⟩⟩
    exact (isHexDigit_iff_isSome c).2 (by rw [value]; rfl)

/-! ## Reading -/

/-- The channels that digits stand for. -/
def channels? (digits : List CodePoint) : Option (Nat × Nat × Nat) :=
  match digits.mapM hexValue? with
  | some [r, g, b] => some (17 * r, 17 * g, 17 * b)
  | some [r, r', g, g', b, b'] => some (16 * r + r', 16 * g + g', 16 * b + b')
  | _ => none

theorem hexChannels?_eq (s : Text) : hexChannels? s = channels? (hexDigits s) := rfl

/-- The digits of a text are what it shows a colour by. -/
theorem hexDigits_of_spells {s : Text} {digits : List CodePoint} (h : Spells s digits) :
    hexDigits s = digits := by
  show dropLeading [.ofChar '#'] (trim s).toList = digits
  rcases h.text with ht | ht
  · have noSign : ¬ [CodePoint.ofChar '#'].isPrefixOf digits = true := by
      cases digits with
      | nil => decide
      | cons c rest =>
        have ne : CodePoint.ofChar '#' ≠ c := by
          rintro rfl
          exact absurd (h.isHexDigit _ List.mem_cons_self) (by
            rw [isHexDigit_iff_isSome]
            decide)
        simp [ne]
    rw [ht, dropLeading, if_neg noSign]
  · rw [ht, dropLeading, if_pos (by simp)]
    rfl

/-- Only what shows a colour has channels. -/
theorem spells_of_channels? {s : Text} {channels : Nat × Nat × Nat}
    (h : hexChannels? s = some channels) : Spells s (hexDigits s) := by
  have text : (trim s).toList = hexDigits s ∨ (trim s).toList = .ofChar '#' :: hexDigits s := by
    show _ = dropLeading [.ofChar '#'] (trim s).toList ∨
      _ = _ :: dropLeading [.ofChar '#'] (trim s).toList
    unfold dropLeading
    split
    · next hp =>
      obtain ⟨rest, hr⟩ := List.isPrefixOf_iff_prefix.1 hp
      exact .inr (by rw [← hr]; rfl)
    · exact .inl rfl
  unfold hexChannels? at h
  split at h
  · next values =>
    obtain ⟨length, digits⟩ := isHexDigit_of_mapM values
    exact ⟨text, digits, .inl length⟩
  · next values =>
    obtain ⟨length, digits⟩ := isHexDigit_of_mapM values
    exact ⟨text, digits, .inr length⟩
  · cases h

/-- Three digits stand for the same channels as when they are doubled. -/
theorem channels?_sixDigits {digits : List CodePoint} (h : ∀ c ∈ digits, c.IsHexDigit) :
    channels? (sixDigits digits) = channels? digits := by
  unfold sixDigits
  split
  · next hl =>
    obtain ⟨x, y, z, rfl⟩ := List.length_eq_three.1 hl
    obtain ⟨r, -, hr, -⟩ := exists_value_of_isHexDigit (h x (by simp))
    obtain ⟨g, -, hg, -⟩ := exists_value_of_isHexDigit (h y (by simp))
    obtain ⟨b, -, hb, -⟩ := exists_value_of_isHexDigit (h z (by simp))
    have double (n : Nat) : 16 * n + n = 17 * n := by omega
    simp [channels?, hr, hg, hb, double]
  · rfl

/-- The six values below sixteen for which digits stand. -/
theorem exists_sixValues {digits : List CodePoint} (h : ∀ c ∈ digits, c.IsHexDigit)
    (hl : digits.length = 3 ∨ digits.length = 6) :
    ∃ r r' g g' b b', (∀ n ∈ [r, r', g, g', b, b'], n < 16) ∧
      (sixDigits digits).mapM hexValue? = some [r, r', g, g', b, b'] ∧
      channels? digits = some (16 * r + r', 16 * g + g', 16 * b + b') ∧
      canonical digits = .ofList (.ofChar '#' :: [r, r', g, g', b, b'].map hexDigit) := by
  have six : ∀ c ∈ sixDigits digits, c.IsHexDigit := by
    unfold sixDigits
    split
    · intro c hc
      obtain ⟨d, hd, hc⟩ := List.mem_flatMap.1 hc
      simp only [List.mem_cons, List.not_mem_nil, or_false, or_self] at hc
      exact hc ▸ h d hd
    · exact h
  have length : (sixDigits digits).length = 6 := by
    rcases hl with hl | hl
    · obtain ⟨x, y, z, rfl⟩ := List.length_eq_three.1 hl
      rfl
    · rw [sixDigits, if_neg (by omega), hl]
  obtain ⟨values, read, bounds, forms⟩ := exists_values six
  have count := (isHexDigit_of_mapM read).1
  rw [length] at count
  obtain ⟨r, r', g, g', b, b', rfl⟩ : ∃ r r' g g' b b', values = [r, r', g, g', b, b'] := by
    match values, count with
    | [r, r', g, g', b, b'], _ => exact ⟨r, r', g, g', b, b', rfl⟩
  refine ⟨r, r', g, g', b, b', bounds, read, ?_, ?_⟩
  · rw [← channels?_sixDigits h, channels?, read]
  · rw [canonical, upper, forms]
    rfl

/-! ## Writing -/

/-- The number nearest to 255 times a channel is the one that the channel was made from. -/
theorem nearestInt_channel :
    ∀ n < 256, (channel n * Double.ofInt 255).nearestInt? = some (n : Int) := by
  decide +kernel

/-- A number up to 255 is written by two digits. -/
theorem toList_hexText : ∀ r < 16, ∀ r' < 16,
    (hexText (16 * r + r' : Nat)).toList.map .ofChar = [hexDigit r, hexDigit r'] := by
  decide +kernel

/-- A colour is written by the digits of its channels. -/
theorem toHex_ofChannels {r r' g g' b b' : Nat} (h : ∀ n ∈ [r, r', g, g', b, b'], n < 16) :
    toHex (ofChannels (16 * r + r') (16 * g + g') (16 * b + b')) =
      .ok (.ofList (.ofChar '#' :: [r, r', g, g', b, b'].map hexDigit)) := by
  simp only [List.forall_mem_cons] at h
  obtain ⟨hr, hr', hg, hg', hb, hb', -⟩ := h
  have nearest (n : Nat) (hn : n < 256) :
      nearestInt (channel n * Double.ofInt 255) = .ok (n : Int) := by
    rw [nearestInt, nearestInt_channel n hn]
  have channels : ([channel (16 * r + r'), channel (16 * g + g'), channel (16 * b + b')].mapM
      fun x => nearestInt (x * Double.ofInt 255)) =
        .ok [((16 * r + r' : Nat) : Int), ((16 * g + g' : Nat) : Int),
          ((16 * b + b' : Nat) : Int)] := by
    simp only [List.mapM_cons, List.mapM_nil]
    rw [nearest _ (by omega), nearest _ (by omega), nearest _ (by omega)]
    rfl
  have text (s : String) : ((s : Text)).toList = s.toList.map .ofChar := rfl
  unfold toHex ofChannels
  rw [channels]
  refine congrArg Except.ok (Text.ext_iff.2 ?_)
  rw [Text.toList_append, text, text, String.toList_join]
  simp only [List.map_cons, List.map_nil, List.flatMap_cons, List.flatMap_nil, List.map_append,
    toList_hexText _ hr _ hr', toList_hexText _ hg _ hg', toList_hexText _ hb _ hb']
  rfl

/-! ## Reading what is written -/

section

variable {r r' g g' b b' : Nat} (h : ∀ n ∈ [r, r', g, g', b, b'], n < 16)
include h

/-- Six digits in upper case after a number sign show a colour by themselves. -/
theorem spells_ofList : Spells (.ofList (.ofChar '#' :: [r, r', g, g', b, b'].map hexDigit))
    ([r, r', g, g', b, b'].map hexDigit) := by
  have digits : ∀ c ∈ [r, r', g, g', b, b'].map hexDigit, c.IsHexDigit := by
    intro c hc
    obtain ⟨n, hn, rfl⟩ := List.mem_map.1 hc
    exact isHexDigit_hexDigit n (h n hn)
  have plain : ∀ c ∈ .ofChar '#' :: [r, r', g, g', b, b'].map hexDigit, isBlank c = false :=
    List.forall_mem_cons.2 ⟨by decide, fun c hc => isBlank_of_isHexDigit (digits c hc)⟩
  exact ⟨.inr (toList_trim plain), digits, .inr rfl⟩

theorem hexChannels?_ofList :
    hexChannels? (.ofList (.ofChar '#' :: [r, r', g, g', b, b'].map hexDigit)) =
      some (16 * r + r', 16 * g + g', 16 * b + b') := by
  rw [hexChannels?_eq, hexDigits_of_spells (spells_ofList h), channels?]
  simp only [List.forall_mem_cons] at h
  obtain ⟨hr, hr', hg, hg', hb, hb', -⟩ := h
  simp [hexValue?_hexDigit, *]

end

theorem ofHex_of_channels {s : Text} {r g b : Nat} (h : hexChannels? s = some (r, g, b)) :
    ofHex s = .ok (ofChannels r g b) := by
  rw [ofHex, ofHex?, h]
  rfl

/-- A text that shows a colour is read as this colour, whose text is that of the digits, and this
text is read as the same colour. -/
theorem exists_ofHex_of_spells {s : Text} {digits : List CodePoint} (h : Spells s digits) :
    ∃ r r' g g' b b', (sixDigits digits).mapM hexValue? = some [r, r', g, g', b, b'] ∧
      ofHex s = .ok (ofChannels (16 * r + r') (16 * g + g') (16 * b + b')) ∧
      toHex (ofChannels (16 * r + r') (16 * g + g') (16 * b + b')) = .ok (canonical digits) ∧
      ofHex (canonical digits) = .ok (ofChannels (16 * r + r') (16 * g + g') (16 * b + b')) := by
  obtain ⟨r, r', g, g', b, b', bounds, read, channels, text⟩ :=
    exists_sixValues h.isHexDigit h.length
  refine ⟨r, r', g, g', b, b', read, ofHex_of_channels ?_, ?_, ?_⟩
  · rw [hexChannels?_eq, hexDigits_of_spells h, channels]
  · rw [text, toHex_ofChannels bounds]
  · rw [text, ofHex_of_channels (hexChannels?_ofList bounds)]

/-- **Hexadecimal colours.** A text is read as a colour if and only if, blanks around it aside, it
consists of three or six hexadecimal digits after at most one number sign; any other text is a
malformed colour. The channels of the colour are those of the pairs of digits, three digits being
doubled. The colour is written by these six digits in upper case after a number sign, and that is
read as the same colour. -/
theorem ofHex_iff_spells (s : Text) :
    ((∃ color, ofHex s = .ok color) ↔ ∃ digits, Spells s digits) ∧
      (∀ e, ofHex s = .error e → e = .invalidColor s) ∧
      ∀ digits color, Spells s digits → ofHex s = .ok color →
        (∃ r r' g g' b b', (sixDigits digits).mapM hexValue? = some [r, r', g, g', b, b'] ∧
          color = ofChannels (16 * r + r') (16 * g + g') (16 * b + b')) ∧
        toHex color = .ok (canonical digits) ∧ ofHex (canonical digits) = .ok color := by
  refine ⟨⟨?_, ?_⟩, ?_, ?_⟩
  · rintro ⟨color, h⟩
    cases channels : hexChannels? s with
    | none =>
      rw [ofHex, ofHex?, channels] at h
      cases h
    | some read => exact ⟨hexDigits s, spells_of_channels? channels⟩
  · rintro ⟨digits, h⟩
    obtain ⟨r, r', g, g', b, b', -, read, -⟩ := exists_ofHex_of_spells h
    exact ⟨_, read⟩
  · intro e h
    unfold ofHex at h
    split at h
    · cases h
    · exact (Except.error.inj h).symm
  · intro digits color h read
    obtain ⟨r, r', g, g', b, b', values, own, written, again⟩ := exists_ofHex_of_spells h
    obtain rfl := Except.ok.inj (own.symm.trans read)
    exact ⟨⟨r, r', g, g', b, b', values, rfl⟩, written, again⟩

theorem ofHex_iff_spells_short :
    let s : Text := " #2aF\n"
    let digits : List CodePoint := ['2', 'a', 'F']
    Spells s digits ∧ ofHex s = .ok (ofChannels 0x22 0xAA 0xFF) ∧
      toHex (ofChannels 0x22 0xAA 0xFF) = .ok "#22AAFF" ∧
      ofHex "#22AAFF" = .ok (ofChannels 0x22 0xAA 0xFF) := by
  intro s digits
  have spells : Spells s digits := by
    refine ⟨.inr (by decide +kernel), ?_, .inl rfl⟩
    simp only [isHexDigit_iff_isSome]
    decide
  have read : ofHex s = .ok (ofChannels 0x22 0xAA 0xFF) :=
    ofHex_of_channels (by decide +kernel)
  have text : canonical digits = "#22AAFF" := by decide +kernel
  obtain ⟨-, written, again⟩ := (ofHex_iff_spells s).2.2 digits _ spells read
  rw [text] at written again
  exact ⟨spells, read, written, again⟩

end Rgb

end DesignTree
