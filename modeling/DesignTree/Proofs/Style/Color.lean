import DesignTree.Proofs.Style.Account
import DesignTree.Proofs.Style.Tokens

/-! # What becomes of colour entries

Each colour entry of a styling comes to one account, which hangs on nothing but the entry and the
resolver (`Resolver.colorAccount`, and `Resolver.EntryOutcome` in words). A list of entries comes to
their accounts one after the other, whatever the node (`applyColors_accounts`).
-/

namespace DesignTree.Resolver

/-! ## Entries -/

/-- A colour entry refers into the theme, to a path that counts. -/
def Refers (r : Resolver) (c : ColorEntry) (path : Text) : Prop :=
  c.isThemeReference = true ∧ c.themePath = some path ∧ path.isEmpty = false ∧
    r.config.useVariables = true

/-- A path of the theme has a colour token, in one of the modes if these come first. -/
def HasColor (r : Resolver) (path : Text) : Prop :=
  let collection := Token.collectionName r.config.collectionPrefix .colors
  (r.config.preferMultiMode = true ∧
      (r.tokens.getModal? collection (Token.name path)).isSome = true) ∨
    (r.tokens.get? collection (Token.name path)).isSome = true

/-- The paint of a colour by its hexadecimal text, if it is one. -/
def paint? (value : Text) : Option Paint := (Rgb.ofHex? value).map fun color => .solid color

/-- How the colour of a property is painted: as a fill, as a stroke, or not at all. -/
def painting? (property : Text) : Option (Paint → Edit) :=
  if Widget.fillProperties.contains property then some fun p => { fills := [p] }
  else if Widget.strokeProperties.contains property then some fun p => { strokes := [p] }
  else none

/-- Whether a colour entry is to be painted, but its value is no colour. -/
def isMalformed (c : ColorEntry) : Bool :=
  (painting? c.property).isSome && (Rgb.ofHex? c.value).isNone

/-- The message of the error for a malformed entry. -/
def malformedMessage (c : ColorEntry) : Text :=
  "Failed to apply color " ++ c.property ++ ": " ++ (DesignError.invalidColor c.value).message

/-- The message of the warning for a property that no node has. -/
def unmappedMessage (c : ColorEntry) : Text :=
  "Color property " ++ c.property ++ " has no node equivalent"

/-- What the literal value of a colour entry comes to: one paint, one error, or one warning. -/
def literalAccount (c : ColorEntry) : Account :=
  match painting? c.property, Rgb.ofHex? c.value with
  | some painted, some color => .applied (painted (.solid color)) [c.property]
  | some _, none => .error (malformedMessage c)
  | none, _ => .warning (unmappedMessage c)

/-- What a colour entry comes to. -/
def colorAccount (r : Resolver) (c : ColorEntry) : Account :=
  match r.activePath c.isThemeReference c.themePath with
  | none => literalAccount c
  | some path =>
    match r.colorBinding? c.property path with
    | some b => .bound c.property b
    | none =>
      if r.config.fallbackToDirectValues then
        if isMalformed c then literalAccount c
        else (literalAccount c).andThen (.warning (missingWarning path))
      else .error (missingError path)

section

variable {r : Resolver} {c : ColorEntry}

theorem activePath_eq_some_iff {path : Text} :
    r.activePath c.isThemeReference c.themePath = some path ↔ r.Refers c path := by
  unfold activePath Refers
  cases c.isThemeReference <;> cases r.config.useVariables <;>
    simp [Option.filter_eq_some_iff]

theorem isSome_colorBinding?_iff {path : Text} :
    (r.colorBinding? c.property path).isSome = true ↔ r.HasColor path := by
  unfold colorBinding? HasColor
  rw [isSome_binding?, Bool.or_eq_true, Bool.and_eq_true]

theorem unspaced_of_painting? {property : Text} {painted : Paint → Edit}
    (h : painting? property = some painted) (p : Paint) :
    (painted p).padding = none ∧ (painted p).margin = none := by
  unfold painting? at h
  split at h
  · cases h
    exact ⟨rfl, rfl⟩
  · split at h
    · cases h
      exact ⟨rfl, rfl⟩
    · cases h

/-- A literal value is written by the edit of its property. -/
theorem applyLiteral_eq (c : ColorEntry) :
    applyLiteral c =
      match painting? c.property with
      | none =>
        return .ok (.ofWarning ("Color property " ++ c.property ++ " has no node equivalent"))
      | some painted =>
        match Rgb.ofHex? c.value with
        | some color => do
          modifyProperties (painted (.solid color)).properties
          return .ok (.ofApplied c.property)
        | none => return .error (.invalidColor c.value) := by
  unfold applyLiteral painting? Rgb.ofHex
  cases Widget.fillProperties.contains c.property <;>
    cases Widget.strokeProperties.contains c.property <;> cases Rgb.ofHex? c.value <;> rfl

theorem run_applyLiteral (c : ColorEntry) (n : Node) :
    StateT.run (ExceptT.run (applyLiteral c)) n =
      (.ok (if isMalformed c then .error (.invalidColor c.value)
          else .ok (literalAccount c).result),
        (literalAccount c).edit.apply n) := by
  rw [applyLiteral_eq, isMalformed, literalAccount]
  cases hp : painting? c.property with
  | none =>
    rw [Account.edit_warning, Edit.apply_empty]
    rfl
  | some painted =>
    cases Rgb.ofHex? c.value with
    | none =>
      simp only
      rw [Account.edit_error, Edit.apply_empty]
      rfl
    | some color =>
      obtain ⟨padding, margin⟩ := unspaced_of_painting? hp (.solid color)
      simp only
      rw [Account.edit_applied, Edit.apply_of_unspaced padding margin]
      rfl

theorem literalAccount_of_malformed (h : isMalformed c = true) :
    literalAccount c = .error (malformedMessage c) := by
  rw [isMalformed, Bool.and_eq_true, Option.isSome_iff_exists, Option.isNone_iff_eq_none] at h
  obtain ⟨⟨painted, hp⟩, ho⟩ := h
  unfold literalAccount
  rw [hp, ho]

/-- A literal value on a node, where `f` goes on from what comes of a value that is a colour. -/
theorem run_literal (c : ColorEntry) (f : StyleResult → StyleResult) (n : Node) :
    StateT.run (ExceptT.run (show Change StyleResult from do
        match ← applyLiteral c with
        | .ok result => return f result
        | .error e => return malformedColor c e)) n =
      (.ok (if isMalformed c then (literalAccount c).result else f (literalAccount c).result),
        (literalAccount c).edit.apply n) := by
  rw [ExceptT.run_bind, StateT.run_bind, run_applyLiteral]
  cases hm : isMalformed c with
  | true =>
    rw [literalAccount_of_malformed hm]
    rfl
  | false => rfl

theorem rejection_literalAccount (c : ColorEntry) : (literalAccount c).rejection = none := by
  unfold literalAccount
  split <;> rfl

/-- No property is for fills and for strokes. -/
theorem not_stroke_of_fill {property : Text}
    (h : Widget.fillProperties.contains property = true) :
    Widget.strokeProperties.contains property = false := by
  rw [List.contains_iff_mem] at h
  revert property
  decide

theorem edit_literalAccount (c : ColorEntry) :
    (literalAccount c).edit = {
      fills := if Widget.fillProperties.contains c.property then (paint? c.value).toList else []
      strokes :=
        if Widget.strokeProperties.contains c.property then (paint? c.value).toList else [] } := by
  unfold literalAccount painting? paint?
  cases hf : Widget.fillProperties.contains c.property with
  | true =>
    rw [not_stroke_of_fill hf]
    cases Rgb.ofHex? c.value <;> rfl
  | false =>
    cases Widget.strokeProperties.contains c.property <;> cases Rgb.ofHex? c.value <;> rfl

theorem for_applyColor (r : Resolver) (c : ColorEntry) (t : Node.Traits) :
    (r.colorAccount c).For (r.applyColor c) t := by
  have literal := rejection_literalAccount c
  unfold colorAccount applyColor
  cases r.activePath c.isThemeReference c.themePath with
  | none =>
    intro n _
    refine (run_literal c id n).trans ?_
    simp only [id, ite_self, Account.outcome_of_complete literal]
  | some path =>
    cases hb : r.colorBinding? c.property path with
    | some b =>
      simp only [hb]
      exact Account.for_pure rfl rfl
    | none =>
      simp only [hb]
      cases r.config.fallbackToDirectValues with
      | false => exact Account.for_pure rfl rfl
      | true =>
        intro n _
        refine (run_literal c (·.merge (.ofWarning (missingWarning path))) n).trans ?_
        cases isMalformed c with
        | true => rw [if_pos rfl, if_pos rfl, if_pos rfl, Account.outcome_of_complete literal]
        | false =>
          have complete := (Account.rejection_andThen literal).trans
            (rfl : (Account.warning (missingWarning path)).rejection = none)
          rw [if_neg Bool.false_ne_true, if_pos rfl, if_neg Bool.false_ne_true,
            Account.outcome_of_complete complete, Account.result_andThen literal,
            Account.edit_andThen literal, Account.edit_warning, Edit.append_empty]
          rfl

theorem rejection_colorAccount (r : Resolver) (c : ColorEntry) :
    (r.colorAccount c).rejection = none := by
  have literal := rejection_literalAccount c
  unfold colorAccount
  split
  · exact literal
  · split
    · rfl
    · split
      · split
        · exact literal
        · exact Account.rejection_andThen literal
      · rfl

/-- Whether the literal value of a colour entry is taken. -/
def takesLiteral (r : Resolver) (c : ColorEntry) : Bool :=
  match r.activePath c.isThemeReference c.themePath with
  | none => true
  | some path => (r.colorBinding? c.property path).isNone && r.config.fallbackToDirectValues

theorem takesLiteral_iff {r : Resolver} {c : ColorEntry} :
    r.takesLiteral c = true ↔
      ∀ path, r.Refers c path → ¬r.HasColor path ∧ r.config.fallbackToDirectValues = true := by
  unfold takesLiteral
  simp only [← activePath_eq_some_iff, ← isSome_colorBinding?_iff (c := c)]
  cases r.activePath c.isThemeReference c.themePath with
  | none => simp
  | some path => simp

theorem edit_colorAccount (r : Resolver) (c : ColorEntry) :
    (r.colorAccount c).edit = if r.takesLiteral c then (literalAccount c).edit else {} := by
  unfold colorAccount takesLiteral
  cases r.activePath c.isThemeReference c.themePath with
  | none => rfl
  | some path =>
    cases hb : r.colorBinding? c.property path with
    | some b => simp only [hb]; rfl
    | none =>
      simp only [hb]
      cases r.config.fallbackToDirectValues with
      | false => rfl
      | true =>
        cases isMalformed c with
        | true => rfl
        | false =>
          exact (Account.edit_andThen (rejection_literalAccount c)).trans (Edit.append_empty _)

end

/-! ## Lists of entries -/

/-- What a list of colour entries comes to. -/
def colorsAccount (r : Resolver) (cs : List ColorEntry) : Account :=
  .all (cs.map r.colorAccount)

/-- The paints of those entries whose literal value is taken for one of some properties. -/
def paintsFor (r : Resolver) (properties : List Text) (cs : List ColorEntry) : List Paint :=
  (cs.filter fun c => properties.contains c.property && r.takesLiteral c).filterMap
    fun c => paint? c.value

theorem rejection_colorsAccount (r : Resolver) (cs : List ColorEntry) :
    (r.colorsAccount cs).rejection = none := by
  refine Account.rejection_all_iff.2 fun a ha => ?_
  obtain ⟨c, -, rfl⟩ := List.mem_map.1 ha
  exact r.rejection_colorAccount c

theorem colorsAccount_append (r : Resolver) (cs ds : List ColorEntry) :
    r.colorsAccount (cs ++ ds) = (r.colorsAccount cs).andThen (r.colorsAccount ds) := by
  unfold colorsAccount
  rw [List.map_append, Account.all_append]

theorem for_applyColors (r : Resolver) (cs : List ColorEntry) (t : Node.Traits) :
    (r.colorsAccount cs).For (r.applyColors cs) t := by
  induction cs with
  | nil => exact Account.for_pure rfl rfl
  | cons c rest ih =>
    exact (r.for_applyColor c t).both (fun _ _ hx hy => (hx.merge hy).settled_eq) ih

theorem paintsFor_cons (r : Resolver) (properties : List Text) (c : ColorEntry)
    (cs : List ColorEntry) :
    r.paintsFor properties (c :: cs) =
      (if r.takesLiteral c then
        if properties.contains c.property then (paint? c.value).toList else []
      else []) ++ r.paintsFor properties cs := by
  unfold paintsFor
  rw [List.filter_cons]
  cases r.takesLiteral c with
  | false => simp only [Bool.and_false, Bool.false_eq_true, if_false, List.nil_append]
  | true =>
    cases properties.contains c.property with
    | false => simp only [Bool.false_and, Bool.false_eq_true, if_true, if_false, List.nil_append]
    | true =>
      simp only [Bool.true_and, if_true, List.filterMap_cons]
      cases paint? c.value <;> rfl

/-- Colour entries write paints and nothing else. -/
theorem edit_colorsAccount (r : Resolver) (cs : List ColorEntry) :
    (r.colorsAccount cs).edit = {
      fills := r.paintsFor Widget.fillProperties cs
      strokes := r.paintsFor Widget.strokeProperties cs } := by
  induction cs with
  | nil => rfl
  | cons c rest ih =>
    have first : (r.colorsAccount (c :: rest)).edit =
        (r.colorAccount c).edit ++ (r.colorsAccount rest).edit :=
      Account.edit_andThen (r.rejection_colorAccount c)
    rw [first, ih, edit_colorAccount, edit_literalAccount, paintsFor_cons, paintsFor_cons]
    cases r.takesLiteral c <;> rfl

/-! ## Accounts in words -/

/-- What the literal value of a colour entry comes to: a fill or a stroke with its property applied,
an error for a malformed value, or a warning for a property that no node has. -/
inductive LiteralOutcome (c : ColorEntry) : Account → Prop
  | fill {color : Rgb} (hp : c.property ∈ Widget.fillProperties)
    (hv : Rgb.ofHex? c.value = some color) :
    LiteralOutcome c (.applied { fills := [.solid color] } [c.property])
  | stroke {color : Rgb} (hp : c.property ∈ Widget.strokeProperties)
    (hv : Rgb.ofHex? c.value = some color) :
    LiteralOutcome c (.applied { strokes := [.solid color] } [c.property])
  | malformed (hp : c.property ∈ Widget.fillProperties ∨ c.property ∈ Widget.strokeProperties)
    (hv : Rgb.ofHex? c.value = none) :
    LiteralOutcome c (.error (malformedMessage c))
  | unmapped (hf : c.property ∉ Widget.fillProperties) (hs : c.property ∉ Widget.strokeProperties) :
    LiteralOutcome c (.warning (unmappedMessage c))

/-- What a colour entry comes to: the binding of its token, or without the token an error or the
literal value with a warning, or else the literal value alone. A malformed value gives its error and
nothing more. -/
inductive EntryOutcome (r : Resolver) (c : ColorEntry) : Account → Prop
  | bound {path : Text} {b : Binding} (hr : r.Refers c path) (ht : r.HasColor path)
    (hb : r.colorBinding? c.property path = some b) :
    EntryOutcome r c (.bound c.property b)
  | missing {path : Text} (hr : r.Refers c path) (ht : ¬r.HasColor path)
    (hs : r.config.fallbackToDirectValues = false) :
    EntryOutcome r c (.error (missingError path))
  | replaced {path : Text} {a : Account} (hr : r.Refers c path) (ht : ¬r.HasColor path)
    (hs : r.config.fallbackToDirectValues = true) (ha : LiteralOutcome c a)
    (he : a.result.errors = []) :
    EntryOutcome r c (a.andThen (.warning (missingWarning path)))
  | spoilt {path : Text} {a : Account} (hr : r.Refers c path) (ht : ¬r.HasColor path)
    (hs : r.config.fallbackToDirectValues = true) (ha : LiteralOutcome c a)
    (he : a.result.errors ≠ []) : EntryOutcome r c a
  | literal {a : Account} (hr : ∀ path, ¬r.Refers c path) (ha : LiteralOutcome c a) :
    EntryOutcome r c a

theorem literalOutcome (c : ColorEntry) : LiteralOutcome c (literalAccount c) := by
  unfold literalAccount painting?
  cases hf : Widget.fillProperties.contains c.property with
  | true =>
    have hp := List.contains_iff_mem.1 hf
    cases hv : Rgb.ofHex? c.value with
    | none => exact .malformed (.inl hp) hv
    | some color => exact .fill hp hv
  | false =>
    have hf' : c.property ∉ Widget.fillProperties := by simpa using hf
    cases hs : Widget.strokeProperties.contains c.property with
    | true =>
      have hp := List.contains_iff_mem.1 hs
      cases hv : Rgb.ofHex? c.value with
      | none => exact .malformed (.inr hp) hv
      | some color => exact .stroke hp hv
    | false => exact .unmapped hf' (by simpa using hs)

theorem errors_literalAccount (c : ColorEntry) :
    (literalAccount c).result.errors = [] ↔ isMalformed c = false := by
  unfold literalAccount isMalformed
  cases painting? c.property <;> cases Rgb.ofHex? c.value <;>
    simp [Account.applied, Account.error, Account.warning, StyleResult.ofWarning,
      StyleResult.ofError]

theorem entryOutcome (r : Resolver) (c : ColorEntry) : r.EntryOutcome c (r.colorAccount c) := by
  have literal := literalOutcome c
  unfold colorAccount
  cases hp : r.activePath c.isThemeReference c.themePath with
  | none =>
    refine .literal (fun path h => ?_) literal
    cases hp.symm.trans (activePath_eq_some_iff.2 h)
  | some path =>
    have refers := activePath_eq_some_iff.1 hp
    have known : (r.colorBinding? c.property path).isSome = true ↔ r.HasColor path :=
      isSome_colorBinding?_iff
    cases hb : r.colorBinding? c.property path with
    | some b =>
      simp only [hb]
      exact .bound refers (known.1 (by rw [hb]; rfl)) hb
    | none =>
      have unknown : ¬r.HasColor path := fun h => by
        have := known.2 h
        rw [hb] at this
        cases this
      simp only [hb]
      cases hs : r.config.fallbackToDirectValues with
      | false => exact .missing refers unknown hs
      | true =>
        cases hm : isMalformed c with
        | true =>
          have marred : (literalAccount c).result.errors ≠ [] := fun h => by
            rw [errors_literalAccount, hm] at h
            cases h
          exact .spoilt refers unknown hs literal marred
        | false => exact .replaced refers unknown hs literal ((errors_literalAccount c).2 hm)

/-- **Every colour entry is accounted for once.** On any node each entry comes to one outcome, apart
from the others: entries report what their outcomes report, in order, and paint what these paint.
So the entries of two lists one after the other come to what the first list comes to and then the
second one. -/
theorem applyColors_accounts (r : Resolver) (n : Node) (cs ds : List ColorEntry) :
    (∃ as, List.Forall₂ r.EntryOutcome cs as ∧
      Gives (r.applyColors cs) n
        { success := (as.flatMap (·.result.errors)).isEmpty
          applied := as.flatMap (·.result.applied)
          bindings := as.flatMap (·.result.bindings)
          errors := as.flatMap (·.result.errors)
          warnings := as.flatMap (·.result.warnings) }
        { n with properties := { n.properties with
            fills := extend n.properties.fills (as.flatMap (·.edit.fills))
            strokes := extend n.properties.strokes (as.flatMap (·.edit.strokes)) } }) ∧
      r.applyColors (cs ++ ds) = do
        let first ← r.applyColors cs
        let second ← r.applyColors ds
        return first.merge second := by
  refine ⟨⟨cs.map r.colorAccount, ?_, ?_⟩, ?_⟩
  · rw [List.forall₂_map_right_iff, List.forall₂_same]
    exact fun c _ => r.entryOutcome c
  · have complete := r.rejection_colorsAccount cs
    have gives := (r.for_applyColors cs n.traits).gives complete
    have paints : (r.colorsAccount cs).edit = {
        fills := (cs.map r.colorAccount).flatMap (·.edit.fills)
        strokes := (cs.map r.colorAccount).flatMap (·.edit.strokes) } := by
      have fills := Account.read_all (·.edit.fills) rfl
        (fun a b ha => by rw [Account.edit_andThen ha]; rfl) complete
      have strokes := Account.read_all (·.edit.strokes) rfl
        (fun a b ha => by rw [Account.edit_andThen ha]; rfl) complete
      rw [← fills, ← strokes, ← colorsAccount, edit_colorsAccount]
    have result : (r.colorsAccount cs).result = _ := Account.result_all complete
    rw [result, paints, Edit.apply_of_unspaced rfl rfl] at gives
    exact gives
  · exact Account.eq_of_for (r.for_applyColors _) fun t => by
      rw [colorsAccount_append]
      exact (r.for_applyColors cs t).both (fun _ _ _ _ => rfl) (r.for_applyColors ds t)

end DesignTree.Resolver
