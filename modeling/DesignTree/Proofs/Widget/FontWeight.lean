import DesignTree.Proofs.Number.Text
import DesignTree.Proofs.Text.Trim
import DesignTree.Proofs.Widget.Writing
import DesignTree.Theme

/-! # Weights that are normalized again

A weight is trimmed first, then loses the name of its vocabulary, and then the letter before its
digits. Only the second step can bring out what an earlier one takes away: behind the vocabulary
there may stand blanks, or the vocabulary once more. Such weights are called `Layered`. All other
weights are normal as soon as they have been normalized (`normalizeText_normalizeText_eq_iff`), and
so the typographies and text styles that are read with them are read back as they are written
(`normalize_again_iff`).
-/

namespace DesignTree

open Text

/-- Intervals that lie apart have no code point in common. -/
theorem Text.inRanges_eq_false {table other : List (Nat × Nat)} {n : Nat}
    (apart : ∀ r ∈ table, ∀ q ∈ other, r.2 < q.1 ∨ q.2 < r.1) (h : inRanges table n = true) :
    inRanges other n = false := by
  refine Bool.eq_false_iff.2 fun both => ?_
  obtain ⟨r, hr, low, high⟩ := inRanges_eq_true_iff.1 h
  obtain ⟨q, hq, low', high'⟩ := inRanges_eq_true_iff.1 both
  have := apart r hr q hq
  omega

/-- No digit of any script is a blank. -/
theorem Text.isBlank_of_isDigit {c : CodePoint} (h : isDigit c = true) : isBlank c = false := by
  have space : isWhiteSpace c = false := inRanges_eq_false (by decide +kernel) h
  have separator : inRanges [(0x1C, 0x1F)] c.toNat = false :=
    inRanges_eq_false (by decide +kernel) h
  rw [isBlank, space, Bool.false_or]
  simpa [inRanges] using separator

namespace FontWeight

/-! ## What is normal -/

/-- What is left of a weight without blanks and vocabulary. -/
def core (s : Text) : List CodePoint := dropLeading qualifier.toList (trim s).toList

theorem normalizeText_eq (s : Text) : normalizeText s = .ofList (dropLetter (core s)) := rfl

theorem qualifier_ne_nil : qualifier.toList ≠ [] := List.cons_ne_nil _ _

theorem head?_of_qualifier {cs : List CodePoint} (h : qualifier.toList <+: cs) :
    cs.head? = some (.ofChar 'F') := by
  obtain ⟨rest, rfl⟩ := h
  rfl

/-- The letter goes away only before digits, and leaves them. -/
theorem dropLetter_cases (cs : List CodePoint) :
    dropLetter cs = cs ∨
      ∃ digits, cs = .ofChar 'w' :: digits ∧ dropLetter cs = digits ∧ ∀ c ∈ digits, isDigit c := by
  cases cs with
  | nil => exact .inl rfl
  | cons c rest =>
    rw [dropLetter]
    split
    · next h =>
      simp only [Bool.and_eq_true, decide_eq_true_eq, List.all_eq_true] at h
      obtain ⟨⟨rfl, -⟩, digits⟩ := h
      exact .inr ⟨rest, rfl, rfl, digits⟩
    · exact .inl rfl

theorem dropLetter_sublist (cs : List CodePoint) : (dropLetter cs).Sublist cs := by
  rcases dropLetter_cases cs with same | ⟨digits, rfl, same, -⟩
  · rw [same]
  · rw [same]
    exact List.sublist_cons_self _ digits

theorem core_suffix (s : Text) : core s <:+ (trim s).toList := dropLeading_suffix _ _

/-- Whatever is taken away in front, no blank is left at the end. -/
theorem isBlank_of_mem_getLast?_core {s : Text} {c : CodePoint} (h : c ∈ (core s).getLast?) :
    isBlank c = false := by
  obtain ⟨front, hf⟩ := core_suffix s
  have ending : (trim s).toList.getLast? = some c := by
    rw [← hf, List.getLast?_append, Option.mem_def.1 h, Option.some_or]
  exact getLast?_trimList ending

theorem trim_core_iff (s : Text) : trim (.ofList (core s)) = .ofList (core s) ↔
    ¬∃ c ∈ (core s).head?, isBlank c = true := by
  rw [Text.ext_iff]
  show trimList isBlank (core s) = core s ↔ _
  rw [trimList_eq_self_iff, and_iff_left fun _ hc => isBlank_of_mem_getLast?_core hc]
  simp only [not_exists, not_and, Bool.not_eq_true]

/-- A weight is normal exactly if none of the three steps takes anything away from it. -/
theorem normalizeText_eq_self_iff (s : Text) : normalizeText s = s ↔
    trim s = s ∧ ¬qualifier.toList <+: s.toList ∧ dropLetter s.toList = s.toList := by
  rw [normalizeText_eq, Text.ext_iff, Text.ext_iff, ← dropLeading_eq_self_iff qualifier_ne_nil]
  show dropLetter (core s) = s.toList ↔ _
  have trimmed : (trim s).toList.Sublist s.toList := trimList_sublist isBlank s.toList
  constructor
  · intro same
    -- Each step leaves a part of what it gets, and in the end nothing is missing.
    have first : (core s).Sublist s.toList := (core_suffix s).sublist.trans trimmed
    have last : s.toList.Sublist (core s) := same ▸ dropLetter_sublist (core s)
    have whole : core s = s.toList := first.antisymm last
    have trimSame : (trim s).toList = s.toList :=
      trimmed.antisymm (last.trans (core_suffix s).sublist)
    refine ⟨trimSame, ?_, ?_⟩
    · rwa [core, trimSame] at whole
    · rwa [whole] at same
  · rintro ⟨trimSame, unqualified, unlettered⟩
    rw [core, trimSame, unqualified, unlettered]

/-- A text is normal if its first character is none that a step looks for, and its last one is no
blank. -/
theorem normalizeText_of_plain {s : Text}
    (head : ∀ c ∈ s.toList.head?, isBlank c = false ∧ c ≠ .ofChar 'F' ∧ c ≠ .ofChar 'w')
    (last : ∀ c ∈ s.toList.getLast?, isBlank c = false) : normalizeText s = s := by
  refine (normalizeText_eq_self_iff s).2 ⟨?_, fun leads => ?_, ?_⟩
  · exact Text.ext_iff.2 (trimList_eq_self_iff.2 ⟨fun c hc => (head c hc).1, last⟩)
  · exact (head _ (head?_of_qualifier leads)).2.1 rfl
  · rcases dropLetter_cases s.toList with same | ⟨digits, hs, -, -⟩
    · exact same
    · exact absurd rfl (head (.ofChar 'w') (by rw [hs]; rfl)).2.2

/-- Texts without any of these characters are normal. -/
theorem normalizeText_of_forall {s : Text}
    (h : ∀ c ∈ s.toList, isBlank c = false ∧ c ≠ .ofChar 'F' ∧ c ≠ .ofChar 'w') :
    normalizeText s = s :=
  normalizeText_of_plain (fun c hc => h c (List.mem_of_mem_head? hc))
    fun c hc => (h c (List.mem_of_mem_getLast? hc)).1

theorem plain_of_isDigit {c : CodePoint} (h : isDigit c = true) :
    isBlank c = false ∧ c ≠ .ofChar 'F' ∧ c ≠ .ofChar 'w' := by
  refine ⟨isBlank_of_isDigit h, ?_, ?_⟩
  · rintro rfl
    exact absurd h (by decide +kernel)
  · rintro rfl
    exact absurd h (by decide +kernel)

/-- The text of an integer is normal. -/
theorem normalizeText_repr (n : Int) : normalizeText n.repr = (n.repr : Text) := by
  refine normalizeText_of_forall fun c hc => ?_
  obtain ⟨d, hd, rfl⟩ := List.mem_map.1 hc
  rw [Number.toList_repr, List.mem_append] at hd
  rcases hd with sign | digit
  · have minus : d = '-' := by
      split at sign
      · exact List.mem_singleton.1 sign
      · cases sign
    rw [minus]
    decide +kernel
  · refine plain_of_isDigit (inRanges_eq_true_iff.2 ⟨(0x30, 0x39), List.mem_cons_self, ?_⟩)
    have ascii := Number.isDigit_of_mem_toDigits digit
    simp only [Char.isDigit, Bool.and_eq_true, decide_eq_true_eq] at ascii
    exact ascii

/-- What stands in brackets is normal. -/
theorem normalizeText_bracketed (opening closing : Char) (inner : Text)
    (ho : isBlank opening = false ∧ opening ≠ 'F' ∧ opening ≠ 'w') (hc : isBlank closing = false) :
    let s : Text := .ofList [.ofChar opening] ++ inner ++ .ofList [.ofChar closing]
    normalizeText s = s := by
  intro s
  refine normalizeText_of_plain (fun c first => ?_) fun c last => ?_
  · cases first
    exact ⟨ho.1, mt CodePoint.ofChar_inj.1 ho.2.1, mt CodePoint.ofChar_inj.1 ho.2.2⟩
  · have closed : s.toList.getLast? = some (.ofChar closing) := List.getLast?_concat
    cases closed.symm.trans last
    exact hc

/-! ## Texts -/

/-- A weight behind whose vocabulary stands what would have gone away in front of it: a blank, or
the vocabulary itself. -/
def Layered (s : Text) : Prop :=
  ∃ rest : Text, trim s = qualifier ++ rest ∧
    ((∃ c ∈ rest.toList.head?, isBlank c = true) ∨ qualifier.toList <+: rest.toList)

theorem layered_iff (s : Text) : Layered s ↔
    (∃ c ∈ (core s).head?, isBlank c = true) ∨ qualifier.toList <+: core s := by
  by_cases leads : qualifier.toList <+: (trim s).toList
  · obtain ⟨rest, hr⟩ := leads
    have behind : core s = rest := by rw [core, ← hr, dropLeading_append]
    rw [behind]
    constructor
    · rintro ⟨other, ho, layer⟩
      have same : other.toList = rest := by
        rw [Text.ext_iff, ← hr, toList_append, List.append_right_inj] at ho
        exact ho.symm
      rwa [same] at layer
    · intro layer
      exact ⟨.ofList rest, Text.ext_iff.2 hr.symm, layer⟩
  · have whole : core s = (trim s).toList := dropLeading_of_not leads
    rw [whole]
    constructor
    · rintro ⟨rest, hr, -⟩
      exact absurd ⟨rest.toList, congrArg Text.toList hr.symm⟩ leads
    · rintro (⟨c, first, blank⟩ | again)
      · rw [head?_trimList first] at blank
        cases blank
      · exact absurd again leads

instance : DecidablePred Layered := fun s => decidable_of_iff
  (((core s).head?.any isBlank || qualifier.toList.isPrefixOf (core s)) = true) <| by
    rw [layered_iff, Bool.or_eq_true, List.isPrefixOf_iff_prefix, Option.any_eq_true]
    rfl

/-- A text is normal once it has been normalized, exactly if it is not layered. -/
theorem normalizeText_normalizeText_eq_iff (s : Text) :
    normalizeText (normalizeText s) = normalizeText s ↔ ¬Layered s := by
  rw [layered_iff, normalizeText_eq s]
  rcases dropLetter_cases (core s) with same | ⟨digits, hcore, same, isDigits⟩
  · rw [same, normalizeText_eq_self_iff, trim_core_iff, not_or]
    exact and_congr_right' (and_iff_left same)
  · -- Digits are normal, and neither blanks nor the vocabulary stood in front of their letter.
    rw [same, hcore]
    refine iff_of_true ?_ ?_
    · exact normalizeText_of_forall fun c hc => plain_of_isDigit (isDigits c hc)
    · rintro (⟨c, first, blank⟩ | leads)
      · cases first
        exact absurd blank (by decide +kernel)
      · exact absurd (head?_of_qualifier leads) (by simp [CodePoint.ofChar_inj])

/-! ## Values -/

/-- A weight in a document that is a layered text. -/
def LayeredValue (v : Value) : Prop := ∃ s, v = .text s ∧ Layered s

theorem layeredValue_text (s : Text) : LayeredValue (.text s) ↔ Layered s := by
  constructor
  · rintro ⟨_, same, layered⟩
    cases same
    exact layered
  · exact fun layered => ⟨s, rfl, layered⟩

theorem normalize_text (s : Text) : normalize (.text s) = .ok (.text (normalizeText s)) := rfl

theorem normalize_text_eq_iff (s : Text) :
    normalize (.text s) = .ok (.text s) ↔ normalizeText s = s := by
  rw [normalize_text, Except.ok.injEq, Value.text.injEq]

/-- Only texts can be layered. Lists and records are normal as they are shown, with their
brackets. -/
theorem normalize_eq_self_iff {v w : Value} (h : normalize v = .ok w) :
    normalize w = .ok w ↔ ¬LayeredValue v := by
  have other (hv : ∀ s, v ≠ .text s) (hw : normalize w = .ok w) :
      normalize w = .ok w ↔ ¬LayeredValue v :=
    iff_of_true hw fun ⟨s, hs, _⟩ => hv s hs
  cases v with
  | null =>
    cases h
    exact other nofun rfl
  | bool b =>
    cases h
    exact other nofun rfl
  | number n =>
    rw [normalize] at h
    split at h
    · cases h
      exact other nofun ((normalize_text_eq_iff _).2 (normalizeText_repr _))
    · cases h
  | text s =>
    cases h
    rw [layeredValue_text]
    exact (normalize_text_eq_iff _).trans (normalizeText_normalizeText_eq_iff s)
  | list items =>
    have shown := normalizeText_bracketed '[' ']' (intercalate ", " (Literal.nestedItems items))
      (by decide +kernel) (by decide +kernel)
    cases h
    exact other nofun ((normalize_text_eq_iff _).2 (congrArg normalizeText shown))
  | record fs =>
    have shown := normalizeText_bracketed '\x7b' '\x7d'
      (intercalate ", " (Literal.nestedFields fs)) (by decide +kernel) (by decide +kernel)
    cases h
    exact other nofun ((normalize_text_eq_iff _).2 (congrArg normalizeText shown))

/-! ## Weights in records -/

/-- The field of a record that holds a weight. -/
def key : Key := ⟨"fontWeight", "font_weight"⟩

/-- A record that gives a layered weight. -/
def GivesLayered (v : Value) : Prop :=
  ∃ name given, key.find? v.fields = some (name, given) ∧ LayeredValue given

theorem givesLayered_iff {fs : Fields} {name : Text} {given : Value}
    (h : key.find? fs = some (name, given)) : GivesLayered (.record fs) ↔ LayeredValue given := by
  constructor
  · rintro ⟨_, _, found, layered⟩
    cases found.symm.trans h
    exact layered
  · exact fun layered => ⟨name, given, h, layered⟩

theorem normalize_of_decode {v : Value} {weight : Option Text} (h : decode v = .ok weight) :
    normalize v = .ok (.ofOption .text weight) := by
  rw [decode] at h
  split at h
  · next w hw =>
    rw [hw]
    cases w with
    | null =>
      cases h
      rfl
    | text s =>
      cases h
      rfl
    | _ => cases h
  · cases h

/-- The weight that a record is read with is normal exactly if the record gives no layered one. -/
theorem map_normalizeText_eq_iff {fs : Fields} {weight : Option Text}
    (h : fs.orElse key none decode = .ok weight) :
    weight.map normalizeText = weight ↔ ¬GivesLayered (.record fs) := by
  cases found : key.find? fs with
  | none =>
    rw [Fields.orElse, found] at h
    cases h
    refine iff_of_true rfl ?_
    rintro ⟨_, _, other, -⟩
    cases found.symm.trans other
  | some e =>
    obtain ⟨name, given⟩ := e
    rw [Fields.orElse, found] at h
    have normal := normalize_of_decode (Decoded.under_eq_ok_iff.1 h)
    rw [givesLayered_iff found, ← normalize_eq_self_iff normal]
    cases weight with
    | none => exact iff_of_true rfl rfl
    | some s => rw [Option.map_some, Option.some_inj, ← normalize_text_eq_iff, Value.ofOption]

/-- A weight that is shown is read as it is after one more normalization. -/
theorem orElse_of_shown {fs : Fields} {k : Key} {weight : Option Text}
    (h : k.find? fs = (weight.map Value.text).map fun v => (k.camel, v)) :
    fs.orElse k none decode = .ok (weight.map normalizeText) := by
  cases weight with
  | none =>
    rw [Fields.orElse, h]
    rfl
  | some s => exact Fields.orElse_of_read none rfl h

end FontWeight

/-! ## Typographies and text styles -/

open Fields

namespace Typography

/-- The typography as it is read back, its weight normalized once more. -/
def reread (t : Typography) : Typography :=
  { t with fontWeight := t.fontWeight.map FontWeight.normalizeText }

def slots (t : Typography) : List FieldSlot :=
  InputModel.typography.keys.zip
    [t.fontSize.map .number, t.fontWeight.map .text, t.fontFamily.map .text,
      t.letterSpacing.map .number, t.lineHeight.map .number, t.color.map .text,
      some (.bool t.isThemeReference), t.themePath.map .text]

theorem toValue_eq (t : Typography) : t.toValue = .record (ofSlots t.slots) := by
  simp [toValue, slots, InputModel.keys, InputModel.fields, ofSlots, field]

theorem readsBack : ReadsBack toValue decode reread := by
  refine .record _ slots InputModel.typography.apart.separate (fun _ => rfl) toValue_eq ?_
  intro t fs shown
  simp only [slots, InputModel.keys, InputModel.fields, List.map_cons, List.zip_cons_cons,
    shows_cons] at shown
  obtain ⟨fontSize, fontWeight, fontFamily, letterSpacing, lineHeight, color, reference, path, -⟩ :=
    shown
  rw [optional_of_shown .number fontSize, FontWeight.orElse_of_shown fontWeight,
    optional_of_shown .text fontFamily, optional_of_shown .number letterSpacing,
    optional_of_shown .number lineHeight, optional_of_shown .text color,
    orElse_of_shown .bool _ reference, optional_of_shown .text path]
  simp [reread]

theorem fontWeight_of_decode {fs : Fields} {t : Typography} (h : decode (.record fs) = .ok t) :
    fs.orElse FontWeight.key none FontWeight.decode = .ok t.fontWeight := by
  obtain ⟨_, _, h₇, -, rfl⟩ := Decoded.seq_eq_ok_iff.1 h
  obtain ⟨_, _, h₆, -, rfl⟩ := Decoded.seq_eq_ok_iff.1 h₇
  obtain ⟨_, _, h₅, -, rfl⟩ := Decoded.seq_eq_ok_iff.1 h₆
  obtain ⟨_, _, h₄, -, rfl⟩ := Decoded.seq_eq_ok_iff.1 h₅
  obtain ⟨_, _, h₃, -, rfl⟩ := Decoded.seq_eq_ok_iff.1 h₄
  obtain ⟨_, _, h₂, -, rfl⟩ := Decoded.seq_eq_ok_iff.1 h₃
  obtain ⟨_, _, h₁, weight, rfl⟩ := Decoded.seq_eq_ok_iff.1 h₂
  obtain ⟨_, -, rfl⟩ := Decoded.map_eq_ok_iff.1 h₁
  exact weight

theorem decode_toValue_iff {v : Value} {t : Typography} (h : decode v = .ok t) :
    decode t.toValue = .ok t ↔ ¬FontWeight.GivesLayered v := by
  cases v with
  | record fs =>
    rw [readsBack.read, ← FontWeight.map_normalizeText_eq_iff (fontWeight_of_decode h),
      Decoded.ok.injEq]
    exact ⟨congrArg fontWeight, fun same => by rw [reread, same]⟩
  | _ => cases h

end Typography

namespace TextStyle

/-- The text style as it is read back, its weight normalized once more. -/
def reread (s : TextStyle) : TextStyle :=
  { s with fontWeight := s.fontWeight.map FontWeight.normalizeText }

def keys : List Key :=
  [⟨"fontSize", "font_size"⟩, FontWeight.key, ⟨"fontFamily", "font_family"⟩,
    ⟨"letterSpacing", "letter_spacing"⟩, ⟨"wordSpacing", "word_spacing"⟩, .word "height",
    .word "color"]

def slots (s : TextStyle) : List FieldSlot :=
  keys.zip
    [s.fontSize.map .number, s.fontWeight.map .text, s.fontFamily.map .text,
      s.letterSpacing.map .number, s.wordSpacing.map .number, s.height.map .number,
      s.color.map .text]

theorem toValue_eq (s : TextStyle) : s.toValue = .record (ofSlots s.slots) := by
  simp [toValue, slots, keys, FontWeight.key, ofSlots]

theorem readsBack : ReadsBack toValue decode reread := by
  have separate : Key.Separate keys := by
    simp [Key.Separate, keys, FontWeight.key, Text.ofString_inj]
  refine .record keys slots separate (fun _ => rfl) toValue_eq ?_
  intro s fs shown
  simp only [slots, keys, List.zip_cons_cons, shows_cons] at shown
  obtain ⟨fontSize, fontWeight, fontFamily, letterSpacing, wordSpacing, height, color, -⟩ := shown
  rw [optional_of_shown .number fontSize, ← FontWeight.key, FontWeight.orElse_of_shown fontWeight,
    optional_of_shown .text fontFamily, optional_of_shown .number letterSpacing,
    optional_of_shown .number wordSpacing, optional_of_shown .number height,
    optional_of_shown .text color]
  simp [reread]

theorem fontWeight_of_decode {fs : Fields} {s : TextStyle} (h : decode (.record fs) = .ok s) :
    fs.orElse FontWeight.key none FontWeight.decode = .ok s.fontWeight := by
  obtain ⟨_, _, h₆, -, rfl⟩ := Decoded.seq_eq_ok_iff.1 h
  obtain ⟨_, _, h₅, -, rfl⟩ := Decoded.seq_eq_ok_iff.1 h₆
  obtain ⟨_, _, h₄, -, rfl⟩ := Decoded.seq_eq_ok_iff.1 h₅
  obtain ⟨_, _, h₃, -, rfl⟩ := Decoded.seq_eq_ok_iff.1 h₄
  obtain ⟨_, _, h₂, -, rfl⟩ := Decoded.seq_eq_ok_iff.1 h₃
  obtain ⟨_, _, h₁, weight, rfl⟩ := Decoded.seq_eq_ok_iff.1 h₂
  obtain ⟨_, -, rfl⟩ := Decoded.map_eq_ok_iff.1 h₁
  exact weight

theorem decode_toValue_iff {v : Value} {s : TextStyle} (h : decode v = .ok s) :
    decode s.toValue = .ok s ↔ ¬FontWeight.GivesLayered v := by
  cases v with
  | record fs =>
    rw [readsBack.read, ← FontWeight.map_normalizeText_eq_iff (fontWeight_of_decode h),
      Decoded.ok.injEq]
    exact ⟨congrArg fontWeight, fun same => by rw [reread, same]⟩
  | _ => cases h

end TextStyle

namespace FontWeight

/-- **Which weights are normalized for good.** Whatever a weight is, its normal form stays as it is
when it is normalized again, exactly if the weight is no layered text. A typography and a text style
that are written are read back as they are, exactly if they were read from a record that gives no
layered weight. -/
theorem normalize_again_iff (v : Value) :
    (∀ w, normalize v = .ok w → (normalize w = .ok w ↔ ¬LayeredValue v)) ∧
      (∀ t, Typography.decode v = .ok t →
        (Typography.decode t.toValue = .ok t ↔ ¬GivesLayered v)) ∧
      ∀ s, TextStyle.decode v = .ok s → (TextStyle.decode s.toValue = .ok s ↔ ¬GivesLayered v) :=
  ⟨fun _ h => normalize_eq_self_iff h, fun _ h => Typography.decode_toValue_iff h,
    fun _ h => TextStyle.decode_toValue_iff h⟩

theorem normalize_again_iff_w700 :
    let weight : Text := " FontWeight.w700 "
    let v : Value := .record [("fontSize", .number 14), ("font_weight", .text weight)]
    let t : Typography := { fontSize := some 14, fontWeight := some "700" }
    let s : TextStyle := { fontSize := some 14, fontWeight := some "700" }
    normalize (.text weight) = .ok (.text "700") ∧ normalize (.text "700") = .ok (.text "700") ∧
      Typography.decode v = .ok t ∧ Typography.decode t.toValue = .ok t ∧
      TextStyle.decode v = .ok s ∧ TextStyle.decode s.toValue = .ok s := by
  intro weight v t s
  have normal : normalizeText weight = "700" := by decide +kernel
  have plain : ¬Layered weight := by decide +kernel
  have found : key.find? v.fields = some (("font_weight" : Text), Value.text weight) := rfl
  have given : ¬GivesLayered v :=
    mt ((givesLayered_iff found).trans (layeredValue_text weight)).1 plain
  have first : normalize (.text weight) = .ok (.text "700") := by rw [normalize_text, normal]
  have read (w : Text) : Typography.decode (.record [("fontSize", .number 14),
      ("font_weight", .text w)]) = .ok { t with fontWeight := some (normalizeText w) } := rfl
  have readStyle (w : Text) : TextStyle.decode (.record [("fontSize", .number 14),
      ("font_weight", .text w)]) = .ok { s with fontWeight := some (normalizeText w) } := rfl
  have typography : Typography.decode v = .ok t := (read weight).trans (by rw [normal])
  have style : TextStyle.decode v = .ok s := (readStyle weight).trans (by rw [normal])
  obtain ⟨again, -, -⟩ := normalize_again_iff (.text weight)
  obtain ⟨-, typographyAgain, styleAgain⟩ := normalize_again_iff v
  exact ⟨first, (again _ first).2 (mt (layeredValue_text weight).1 plain), typography,
    (typographyAgain t typography).2 given, style, (styleAgain s style).2 given⟩

/-- Blanks behind the vocabulary stay where they are at first, and go away when the weight is
normalized again. -/
theorem normalize_blank_behind_vocabulary :
    let t : Typography := { fontWeight := some " w700" }
    let s : TextStyle := { fontWeight := some " w700" }
    normalize (.text "FontWeight. w700") = .ok (.text " w700") ∧
      normalize (.text " w700") = .ok (.text "700") ∧
      normalize (.text " w700") ≠ .ok (.text " w700") ∧
      Typography.decode (.record [("fontWeight", .text "FontWeight. w700")]) = .ok t ∧
      Typography.decode t.toValue = .ok { fontWeight := some "700" } ∧
      TextStyle.decode (.record [("fontWeight", .text "FontWeight. w700")]) = .ok s ∧
      TextStyle.decode s.toValue = .ok { fontWeight := some "700" } := by
  intro t s
  have first : normalizeText "FontWeight. w700" = " w700" := by decide +kernel
  have second : normalizeText " w700" = "700" := by decide +kernel
  have read (w : Text) : Typography.decode (.record [("fontWeight", .text w)]) =
      .ok { fontWeight := some (normalizeText w) } := rfl
  have readStyle (w : Text) : TextStyle.decode (.record [("fontWeight", .text w)]) =
      .ok { fontWeight := some (normalizeText w) } := rfl
  refine ⟨?_, ?_, ?_, ?_, ?_, ?_, ?_⟩
  · rw [normalize_text, first]
  · rw [normalize_text, second]
  · rw [Ne, normalize_text_eq_iff, second]
    decide
  · rw [read, first]
  · rw [Typography.readsBack.read, Typography.reread, Option.map_some, second]
  · rw [readStyle, first]
  · rw [TextStyle.readsBack.read, TextStyle.reread, Option.map_some, second]

end FontWeight

end DesignTree
