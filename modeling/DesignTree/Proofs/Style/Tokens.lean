import DesignTree.Proofs.Style.Binding
import Mathlib.Data.Option.Basic

/-! # Styling by a table with more tokens

A styling by some tokens is compared with the same styling by a table that has at least these. Both
go the same way but where a token is missing from the first table and not from the second one: there
the second styling binds what the first one gives a literal value to or reports. So the nodes differ
in their properties at most (`Node.Beside`), which no change looks at for its result, and the second
result binds more and reports less (`StyleResult.Outdone`). `Follows` relates two changes step by
step; from the single properties it carries over to whole stylings (`applyStyles_of_within`).
-/

namespace DesignTree

/-- Every token that the first table finds under a collection and a name, the second one finds
there, and so for tokens of several modes. -/
structure TokenTable.Within (t t' : TokenTable) : Prop where
  single : ∀ collection name, (t.get? collection name).isSome → (t'.get? collection name).isSome
  modal : ∀ collection name,
    (t.getModal? collection name).isSome → (t'.getModal? collection name).isSome

/-! ## Nodes and results side by side -/

/-- Nodes that are the same but for their properties. -/
def Node.Beside (n m : Node) : Prop := ∃ p, m = { n with properties := p }

namespace Node.Beside

variable {n m : Node}

theorem refl (n : Node) : n.Beside n :=
  ⟨n.properties, by cases n; rfl⟩

theorem kind (h : n.Beside m) : m.kind = n.kind := by
  obtain ⟨p, rfl⟩ := h
  rfl

theorem autoLayout (h : n.Beside m) : m.autoLayout = n.autoLayout := by
  obtain ⟨p, rfl⟩ := h
  rfl

theorem withProperties (h : n.Beside m) (p q : NodeProperties) :
    Beside { n with properties := p } { m with properties := q } := by
  obtain ⟨_, rfl⟩ := h
  exact ⟨q, rfl⟩

theorem withLayout (h : n.Beside m) (layout : Option AutoLayout) :
    Beside { n with autoLayout := layout } { m with autoLayout := layout } := by
  obtain ⟨p, rfl⟩ := h
  exact ⟨p, rfl⟩

end Node.Beside

/-- The bound properties of a node, one for each binding. -/
def Node.targets (n : Node) : List Text := n.bindings.map (·.targetProperty)

namespace StyleResult

/-- The properties that a result binds, one for each binding. -/
def targets (r : StyleResult) : List Text := r.bindings.map (·.targetProperty)

/-- The second result binds at least what the first one does and reports at most what that does. -/
structure Outdone (a b : StyleResult) : Prop where
  errors : b.errors.Sublist a.errors
  warnings : b.warnings.Sublist a.warnings
  targets : a.targets.Sublist b.targets

namespace Outdone

variable {a a' b b' : StyleResult}

theorem refl (a : StyleResult) : a.Outdone a := ⟨.refl _, .refl _, .refl _⟩

theorem merge (h : a.Outdone b) (h' : a'.Outdone b') : (a.merge a').Outdone (b.merge b') where
  errors := h.errors.append h'.errors
  warnings := h.warnings.append h'.warnings
  targets := by
    rw [StyleResult.targets, StyleResult.targets, StyleResult.merge, StyleResult.merge,
      List.map_append, List.map_append]
    exact h.targets.append h'.targets

theorem settled (h : a.Outdone b) : a.settled.Outdone b.settled :=
  ⟨h.errors, h.warnings, h.targets⟩

/-- What binds nothing is outdone by a binding. -/
theorem ofBinding (h : a.bindings = []) (property : Text) (x : Binding) :
    a.Outdone (.ofBinding property x) where
  errors := List.nil_sublist _
  warnings := List.nil_sublist _
  targets := by
    rw [StyleResult.targets, h]
    exact List.nil_sublist _

end Outdone

end StyleResult

namespace Resolver

/-! ## Changes side by side -/

variable {α β γ δ : Type}

/-- Where the first change comes to a result, the second one comes to one that is related to it, if
it starts from a node beside that of the first one, and ends with a node beside it. -/
def Follows (R : α → β → Prop) (c : Change α) (d : Change β) : Prop :=
  ∀ n m a n', n.Beside m → Gives c n a n' → ∃ b m', Gives d m b m' ∧ n'.Beside m' ∧ R a b

theorem follows_pure {R : α → β → Prop} {a : α} {b : β} (h : R a b) :
    Follows R (pure a) (pure b) := by
  intro n m a' n' hm hc
  obtain ⟨rfl, rfl⟩ := gives_pure.1 hc
  exact ⟨b, m, gives_pure.2 ⟨rfl, rfl⟩, hm, h⟩

theorem follows_throw {R : α → β → Prop} (rejection : Rejection) (d : Change β) :
    Follows R (throw rejection) d :=
  fun _ _ _ _ _ h => absurd h gives_throw

theorem Follows.bind {R : α → β → Prop} {S : γ → δ → Prop} {c : Change α} {d : Change β}
    {f : α → Change γ} {g : β → Change δ} (h : Follows R c d)
    (hf : ∀ a b, R a b → Follows S (f a) (g b)) : Follows S (c >>= f) (d >>= g) := by
  intro n m x n' hm hc
  obtain ⟨a, between, ha, hx⟩ := gives_bind.1 hc
  obtain ⟨b, between', hb, hbetween, hR⟩ := h n m a between hm ha
  obtain ⟨y, m', hy, hn', hS⟩ := hf a b hR between between' x n' hbetween hx
  exact ⟨y, m', gives_bind.2 ⟨b, between', hb, hy⟩, hn', hS⟩

/-- What may be followed by nothing may be followed by any result that is related to all of its. -/
theorem Follows.of_nothing {p : α → Prop} {R : α → β → Prop} {c : Change α} {b : β}
    (h : Follows (fun a _ => p a) c (pure ())) (hR : ∀ a, p a → R a b) :
    Follows R c (pure b) := by
  intro n m a n' hm hc
  obtain ⟨_, m', hm', hn', ha⟩ := h n m a n' hm hc
  obtain ⟨-, rfl⟩ := gives_pure.1 hm'
  exact ⟨b, m', rfl, hn', hR a ha⟩

theorem follows_get_bind {S : γ → δ → Prop} {f : Node → Change γ} {g : Node → Change δ}
    (h : ∀ n m, n.Beside m → Follows S (f n) (g m)) : Follows S (get >>= f) (get >>= g) :=
  fun n m x n' hm hc => h n m hm n m x n' hm (gives_get_bind.1 hc)

theorem get_bind_follows {S : γ → δ → Prop} {f : Node → Change γ} {d : δ}
    (h : ∀ n, Follows S (f n) (pure d)) : Follows S (get >>= f) (pure d) :=
  fun n m x n' hm hc => h n n m x n' hm (gives_get_bind.1 hc)

theorem follows_modifyProperties (f g : NodeProperties → NodeProperties) :
    Follows Eq (modifyProperties f) (modifyProperties g) := by
  intro n m a n' hm hc
  cases hc
  exact ⟨(), _, rfl, hm.withProperties _ _, rfl⟩

theorem follows_modify_layout (layout : Option AutoLayout) :
    Follows Eq (modify fun n => { n with autoLayout := layout } : Change Unit)
      (modify fun n => { n with autoLayout := layout }) := by
  intro n m a n' hm hc
  cases hc
  exact ⟨(), _, rfl, hm.withLayout layout, rfl⟩

/-- Where the first change touches the properties, the second one may do nothing. -/
theorem modifyProperties_follows (f : NodeProperties → NodeProperties) :
    Follows Eq (modifyProperties f) (pure ()) := by
  intro n m a n' hm hc
  obtain ⟨p, rfl⟩ := hm
  cases hc
  exact ⟨(), _, rfl, ⟨p, rfl⟩, rfl⟩

/-! ## Literal values -/

theorem follows_applyLiteral (c : ColorEntry) : Follows Eq (applyLiteral c) (applyLiteral c) := by
  unfold applyLiteral
  simp only
  split
  · exact follows_pure rfl
  · split
    · exact (follows_modifyProperties _ _).bind fun _ _ _ => follows_pure rfl
    · exact follows_pure rfl

/-- A literal value binds nothing, and what comes after it may do without. -/
theorem applyLiteral_follows (c : ColorEntry) :
    Follows (fun e _ => ∀ result, e = .ok result → result.bindings = []) (applyLiteral c)
      (pure ()) := by
  unfold applyLiteral
  simp only
  split
  · refine follows_pure fun result h => ?_
    cases h
    rfl
  · split
    · refine (modifyProperties_follows _).bind (g := fun _ => pure ()) fun _ _ _ =>
        follows_pure fun result h => ?_
      cases h
      rfl
    · exact follows_pure fun result h => nomatch h

/-- Whether a text property can be set hangs on its value alone. -/
theorem exists_setText {v : TextValue} {p p' : NodeProperties} (h : setText v p = .ok p')
    (q : NodeProperties) : ∃ q', setText v q = .ok q' := by
  cases v with
  | fontSize n | fontFamily s | fontWeight s => exact ⟨_, rfl⟩
  | lineHeight n | letterSpacing n =>
    obtain ⟨m, hm, -⟩ := map_eq_ok_iff.1 h
    exact ⟨_, map_eq_ok_iff.2 ⟨m, hm, rfl⟩⟩

theorem follows_applyTextLiteral (v : TextValue) :
    Follows Eq (applyTextLiteral v) (applyTextLiteral v) := by
  refine follows_get_bind fun n m _ => ?_
  split
  · next p hp =>
    obtain ⟨q, hq⟩ := exists_setText hp m.properties
    rw [hq]
    exact (follows_modifyProperties _ _).bind fun _ _ _ => follows_pure rfl
  · exact follows_throw _ _

theorem applyTextLiteral_follows (v : TextValue) :
    Follows (fun result _ => result.bindings = []) (applyTextLiteral v) (pure ()) := by
  refine get_bind_follows fun n => ?_
  split
  · exact (modifyProperties_follows _).bind (g := fun _ => pure ()) fun _ _ _ => follows_pure rfl
  · exact follows_throw _ _

theorem follows_applySpacing (s : Spacing) : Follows Eq (applySpacing s) (applySpacing s) := by
  refine follows_get_bind fun n m hm => ?_
  rw [hm.autoLayout]
  split
  · exact follows_pure rfl
  · exact (follows_modify_layout _).bind fun _ _ _ => follows_pure rfl

theorem follows_applyBorders (b : Border) : Follows Eq (applyBorders b) (applyBorders b) := by
  have stroke : Follows Eq (applyStroke b) (applyStroke b) := by
    unfold applyStroke
    split
    · exact follows_pure rfl
    · split
      · exact (follows_modifyProperties _ _).bind fun _ _ _ => follows_pure rfl
      · exact follows_pure rfl
  have radius : Follows Eq (applyRadius b) (applyRadius b) := by
    unfold applyRadius
    split
    · exact follows_pure rfl
    · exact (follows_modifyProperties _ _).bind fun _ _ _ => follows_pure rfl
  refine stroke.bind fun _ _ hs => radius.bind fun _ _ hr => ?_
  rw [hs, hr]
  exact follows_pure rfl

theorem follows_applyShadows (shadows : List Shadow) :
    Follows Eq (applyShadows shadows) (applyShadows shadows) := by
  unfold applyShadows
  split
  · exact follows_throw _ _
  · exact follows_pure rfl
  · exact (follows_modifyProperties _ _).bind fun _ _ _ => follows_pure rfl

theorem Follows.outdone {c d : Change StyleResult} (h : Follows Eq c d) :
    Follows StyleResult.Outdone c d := by
  intro n m a n' hm hc
  obtain ⟨b, m', hb, hn', rfl⟩ := h n m a n' hm hc
  exact ⟨a, m', hb, hn', .refl a⟩

/-! ## Tokens -/

theorem isSome_binding? (r : Resolver) (part : Token.Section) (name target : Text) :
    let collection := Token.collectionName r.config.collectionPrefix part
    (r.binding? part name target).isSome =
      ((r.config.preferMultiMode && (r.tokens.getModal? collection name).isSome) ||
        (r.tokens.get? collection name).isSome) := by
  intro collection
  simp only [binding?, Option.isSome_map]
  cases r.config.preferMultiMode <;> simp [collection]

theorem targetProperty_of_binding? {r : Resolver} {part : Token.Section} {name target : Text}
    {x : Binding} (h : r.binding? part name target = some x) : x.targetProperty = target := by
  obtain ⟨id, -, rfl⟩ := Option.map_eq_some_iff.1 h
  rfl

section

variable {t t' : TokenTable} {config : StyleConfig}

/-- What is bound by a token of the first table is bound by one of the second. -/
theorem exists_binding?_of_within (h : t.Within t') {part : Token.Section} {name target : Text}
    {x : Binding} (hx : (⟨t, config⟩ : Resolver).binding? part name target = some x) :
    ∃ y, (⟨t', config⟩ : Resolver).binding? part name target = some y := by
  have found : ((⟨t, config⟩ : Resolver).binding? part name target).isSome := by rw [hx]; rfl
  refine Option.isSome_iff_exists.1 ?_
  rw [isSome_binding?, Bool.or_eq_true, Bool.and_eq_true] at found ⊢
  exact found.imp (.imp_right (h.modal _ _)) (h.single _ _)

/-- A binding follows one of the same property. -/
theorem outdone_ofBinding {part : Token.Section} {name target property : Text} {x y : Binding}
    (hx : (⟨t, config⟩ : Resolver).binding? part name target = some x)
    (hy : (⟨t', config⟩ : Resolver).binding? part name target = some y) :
    (StyleResult.ofBinding property x).Outdone (.ofBinding property y) where
  errors := .refl _
  warnings := .refl _
  targets := by
    rw [StyleResult.targets, StyleResult.targets, StyleResult.ofBinding, StyleResult.ofBinding,
      List.map_singleton, List.map_singleton, targetProperty_of_binding? hx,
      targetProperty_of_binding? hy]

/-- Looking a token up in the second table follows looking it up in the first one, if what is done
for a missing token binds nothing and comes to the same whatever the properties of the node are. -/
theorem follows_lookup (h : t.Within t') {part : Token.Section} {name target property : Text}
    {missing : Change StyleResult} (same : Follows Eq missing missing)
    (unbound : Follows (fun result _ => result.bindings = []) missing (pure ())) :
    Follows StyleResult.Outdone
      (match (⟨t, config⟩ : Resolver).binding? part name target with
        | some b => pure (.ofBinding property b)
        | none => missing)
      (match (⟨t', config⟩ : Resolver).binding? part name target with
        | some b => pure (.ofBinding property b)
        | none => missing) := by
  cases hx : (⟨t, config⟩ : Resolver).binding? part name target with
  | some x =>
    obtain ⟨y, hy⟩ := exists_binding?_of_within h hx
    rw [hy]
    exact follows_pure (outdone_ofBinding hx hy)
  | none =>
    cases (⟨t', config⟩ : Resolver).binding? part name target with
    | some y => exact unbound.of_nothing fun result hr => .ofBinding hr property y
    | none => exact same.outdone

theorem follows_applyColor (h : t.Within t') (c : ColorEntry) :
    Follows StyleResult.Outdone ((⟨t, config⟩ : Resolver).applyColor c)
      ((⟨t', config⟩ : Resolver).applyColor c) := by
  unfold applyColor
  have path : (⟨t', config⟩ : Resolver).activePath = (⟨t, config⟩ : Resolver).activePath := rfl
  rw [path]
  cases (⟨t, config⟩ : Resolver).activePath c.isThemeReference c.themePath with
  | none =>
    refine (follows_applyLiteral c).bind fun e _ he => ?_
    subst he
    cases e <;> exact follows_pure (.refl _)
  | some path =>
    refine follows_lookup h ?_ ?_
    · split
      · refine (follows_applyLiteral c).bind fun e _ he => ?_
        subst he
        cases e <;> exact follows_pure rfl
      · exact follows_pure rfl
    · split
      · refine (applyLiteral_follows c).bind (g := fun _ => pure ()) fun e _ he => ?_
        cases e with
        | ok result => exact follows_pure (List.append_eq_nil_iff.2 ⟨he result rfl, rfl⟩)
        | error e => exact follows_pure rfl
      · exact follows_pure rfl

theorem follows_applyColors (h : t.Within t') (cs : List ColorEntry) :
    Follows StyleResult.Outdone ((⟨t, config⟩ : Resolver).applyColors cs)
      ((⟨t', config⟩ : Resolver).applyColors cs) := by
  induction cs with
  | nil => exact follows_pure (.refl _)
  | cons c rest ih =>
    exact (follows_applyColor h c).bind fun _ _ hc => ih.bind fun _ _ hrest =>
      follows_pure (hc.merge hrest).settled

theorem follows_applyTextValue (h : t.Within t') (path : Option Text) (v : TextValue) :
    Follows StyleResult.Outdone ((⟨t, config⟩ : Resolver).applyTextValue path v)
      ((⟨t', config⟩ : Resolver).applyTextValue path v) := by
  unfold applyTextValue
  cases path with
  | none => exact (follows_applyTextLiteral v).outdone
  | some path =>
    refine follows_lookup h ?_ ?_
    · split
      · refine (follows_applyTextLiteral v).bind fun result _ hr => ?_
        subst hr
        exact follows_pure rfl
      · exact follows_pure rfl
    · split
      · exact (applyTextLiteral_follows v).bind (g := fun _ => pure ()) fun result _ hr =>
          follows_pure (List.append_eq_nil_iff.2 ⟨hr, rfl⟩)
      · exact follows_pure rfl

theorem follows_applyTextValues (h : t.Within t') (path : Option Text) (vs : List TextValue) :
    Follows StyleResult.Outdone ((⟨t, config⟩ : Resolver).applyTextValues path vs)
      ((⟨t', config⟩ : Resolver).applyTextValues path vs) := by
  induction vs with
  | nil => exact follows_pure (.refl _)
  | cons v rest ih =>
    exact (follows_applyTextValue h path v).bind fun _ _ hv => ih.bind fun _ _ hrest =>
      follows_pure (hv.merge hrest)

theorem follows_applyTypography (h : t.Within t') (typography : Typography) :
    Follows StyleResult.Outdone ((⟨t, config⟩ : Resolver).applyTypography typography)
      ((⟨t', config⟩ : Resolver).applyTypography typography) := by
  refine follows_get_bind fun n m hm => ?_
  rw [hm.kind]
  split
  · exact follows_pure (.refl _)
  · exact (follows_applyTextValues h _ _).bind fun _ _ hv => (follows_applyColors h _).bind
      fun _ _ hc => follows_pure (hv.merge hc).settled

/-! ## Whole stylings -/

theorem follows_aspects (h : t.Within t') (kind : NodeKind) (s : Styling) :
    List.Forall₂ (Follows StyleResult.Outdone) ((⟨t, config⟩ : Resolver).aspects kind s)
      ((⟨t', config⟩ : Resolver).aspects kind s) :=
  rel_aspects (follows_applyColors h) (follows_applyTypography h)
    (fun s => (follows_applySpacing s).outdone) (fun b => (follows_applyBorders b).outdone)
    (fun ss => (follows_applyShadows ss).outdone) kind s

end

/-- Aspects only add bindings. -/
theorem targets_applyAspects (cs : List (Change StyleResult)) (n : Node) (total : StyleResult) :
    total.targets.Sublist (applyAspects n total cs).2.1.targets := by
  induction cs generalizing n total with
  | nil => exact .refl _
  | cons c rest ih =>
    rw [applyAspects]
    rcases StateT.run (ExceptT.run c) n with ⟨rejection | own, m⟩
    · exact .refl _
    · have added : total.targets.Sublist (total.merge own).targets := by
        rw [StyleResult.targets, StyleResult.targets, StyleResult.merge, List.map_append]
        exact List.sublist_append_left _ _
      exact added.trans (ih m _)

/-- Aspects that follow others bind at least what those do, and come to a result if those do. -/
theorem applyAspects_of_follows {cs ds : List (Change StyleResult)}
    (h : List.Forall₂ (Follows StyleResult.Outdone) cs ds) {n m : Node} (hm : n.Beside m)
    {total total' : StyleResult} (ht : total.Outdone total') :
    (applyAspects n total cs).2.1.targets.Sublist (applyAspects m total' ds).2.1.targets ∧
      ((applyAspects n total cs).2.2 = none → (applyAspects m total' ds).2.2 = none ∧
        (applyAspects n total cs).2.1.Outdone (applyAspects m total' ds).2.1) := by
  induction h generalizing n m total total' with
  | nil => exact ⟨ht.targets, fun _ => ⟨rfl, ht⟩⟩
  | @cons c d rest others hc _ ih =>
    rcases hr : StateT.run (ExceptT.run c) n with ⟨rejection | own, between⟩
    · have ended : applyAspects n total (c :: rest) = (between, total, some rejection) := by
        rw [applyAspects, hr]
      rw [ended]
      exact ⟨ht.targets.trans (targets_applyAspects _ _ _), fun hn =>
        absurd hn (Option.some_ne_none rejection)⟩
    · obtain ⟨own', between', hd, hbetween, hown⟩ := hc n m own between hm hr
      have step : applyAspects n total (c :: rest) =
          applyAspects between (total.merge own) rest := by
        rw [applyAspects, hr]
      have step' : applyAspects m total' (d :: others) =
          applyAspects between' (total'.merge own') others := by
        rw [applyAspects, hd]
      rw [step, step']
      exact ih hbetween (ht.merge hown)

/-- What the aspects of a styling come to: the node, the result, and the rejection if there is
one. -/
def outcome (r : Resolver) (n : Node) (s : Styling) : Node × StyleResult × Option Rejection :=
  applyAspects (clearPaints s n) {} (r.aspects n.kind s)

section

variable (r : Resolver) (n : Node) (s : Styling)

theorem bindings_outcome : (r.outcome n s).1.bindings = n.bindings := by
  have aspects : ∀ c ∈ r.aspects n.kind s, Restyles c := fun c hc => restyles_of_mem_aspects hc
  let cleared := clearPaints s n
  obtain ⟨q, other, outcome, -, h⟩ :=
    applyAspects_restyle aspects n.kind cleared.properties cleared.autoLayout {}
  have applied := h cleared rfl
  rw [Node.restyle_self] at applied
  rw [Resolver.outcome, applied]
  rfl

theorem applyStyles_eq :
    r.applyStyles n s =
      match (r.outcome n s).2.2 with
      | none =>
        ({ (r.outcome n s).1 with
            bindings := (r.outcome n s).1.bindings ++ (r.outcome n s).2.1.bindings },
          (r.outcome n s).2.1.settled)
      | some rejection =>
        ((r.outcome n s).1, { (r.outcome n s).2.1 with
          errors := (r.outcome n s).2.1.errors ++
            ["Failed to apply styles: " ++ rejection.headline] }.settled) := by
  rw [applyStyles, ← outcome]
  rcases r.outcome n s with ⟨m, total, _ | rejection⟩ <;> rfl

theorem targets_applyStyles : (r.applyStyles n s).2.targets = (r.outcome n s).2.1.targets := by
  rw [applyStyles_eq]
  cases (r.outcome n s).2.2 <;> rfl

theorem warnings_applyStyles : (r.applyStyles n s).2.warnings = (r.outcome n s).2.1.warnings := by
  rw [applyStyles_eq]
  cases (r.outcome n s).2.2 <;> rfl

theorem success_applyStyles_iff :
    (r.applyStyles n s).2.success = true ↔
      (r.outcome n s).2.2 = none ∧ (r.outcome n s).2.1.errors = [] := by
  rw [applyStyles_eq]
  cases (r.outcome n s).2.2 <;> simp [StyleResult.settled]

/-- The bindings of the result are added to the node, unless a rejection ended the styling. -/
theorem bindings_applyStyles :
    (r.applyStyles n s).1.bindings =
      n.bindings ++ if (r.outcome n s).2.2.isNone then (r.outcome n s).2.1.bindings else [] := by
  rw [applyStyles_eq, ← bindings_outcome r n s]
  cases (r.outcome n s).2.2 with
  | none => rfl
  | some rejection => exact (List.append_nil _).symm

end

section

variable {t t' : TokenTable}

theorem outdone_outcome (h : t.Within t') (config : StyleConfig) (n : Node) (s : Styling) :
    let first := (⟨t, config⟩ : Resolver).outcome n s
    let second := (⟨t', config⟩ : Resolver).outcome n s
    first.2.1.targets.Sublist second.2.1.targets ∧
      (first.2.2 = none → second.2.2 = none ∧ first.2.1.Outdone second.2.1) :=
  applyAspects_of_follows (follows_aspects h n.kind s) (.refl _) (.refl _)

theorem targets_applyStyles_sublist (h : t.Within t') (config : StyleConfig) (n : Node)
    (s : Styling) :
    ((⟨t, config⟩ : Resolver).applyStyles n s).1.targets.Sublist
      ((⟨t', config⟩ : Resolver).applyStyles n s).1.targets := by
  obtain ⟨targets, outdone⟩ := outdone_outcome h config n s
  rw [Node.targets, Node.targets, bindings_applyStyles, bindings_applyStyles, List.map_append,
    List.map_append]
  refine .append (.refl _) ?_
  split
  · next hn =>
    rw [if_pos (Option.isNone_iff_eq_none.2 (outdone (Option.isNone_iff_eq_none.1 hn)).1)]
    exact targets
  · exact List.nil_sublist _

/-- **More tokens never break a node.** By a table with at least the tokens of another one a styling
that succeeds by that one succeeds too, and gives no warning that it does not give there. Whether it
succeeds or not, every property is bound at least as often, in the result and on the node. -/
theorem applyStyles_of_within (h : t.Within t') (config : StyleConfig) (n : Node) (s : Styling) :
    let first := (⟨t, config⟩ : Resolver).applyStyles n s
    let second := (⟨t', config⟩ : Resolver).applyStyles n s
    (first.2.success = true →
        second.2.success = true ∧ second.2.warnings.Sublist first.2.warnings) ∧
      ∀ target, first.2.targets.count target ≤ second.2.targets.count target ∧
        first.1.targets.count target ≤ second.1.targets.count target := by
  intro first second
  obtain ⟨targets, outdone⟩ := outdone_outcome h config n s
  refine ⟨fun hs => ?_, fun target => ⟨?_, ?_⟩⟩
  · obtain ⟨hn, he⟩ := (success_applyStyles_iff _ _ _).1 hs
    obtain ⟨hn', outdone⟩ := outdone hn
    refine ⟨(success_applyStyles_iff _ _ _).2 ⟨hn', ?_⟩, ?_⟩
    · exact List.sublist_nil.1 (he ▸ outdone.errors)
    · rw [warnings_applyStyles, warnings_applyStyles]
      exact outdone.warnings
  · rw [targets_applyStyles, targets_applyStyles]
    exact targets.count_le target
  · exact (targets_applyStyles_sublist h config n s).count_le target

end

theorem applyStyles_of_within_title :
    let light : Theme := { colorScheme := { colors := .of [(.primary, "#6750A4")] } }
    let dark : Theme := { colorScheme := { colors := .of [(.error, "#F2B8B5")] },
                          textTheme := { styles := .of [(.bodyMedium, { fontSize := some 14 })] } }
    let t := TokenTable.ofTheme light
    let modal := TokenTable.modalCollections [(dark, "Dark")] "Default"
    let t' : TokenTable := { t with modal := modal.map fun c => (c.name, c) }
    let fill (path : Text) : ColorEntry := { value := "#000000", isThemeReference := true,
                                             themePath := some path }
    let body : Typography := { fontSize := some 14, fontFamily := some "Inter",
                               isThemeReference := true, themePath := some "textTheme.bodyMedium" }
    let s : Styling := { givenColors := some [fill "colorScheme.primary", fill "colorScheme.error"],
                         givenTypography := some (some body) }
    let n : Node := { kind := .text, name := "title" }
    let config : StyleConfig := { preferMultiMode := true }
    t.Within t' ∧ ((⟨t, config⟩ : Resolver).applyStyles n s).2.success = true ∧
      (((⟨t', config⟩ : Resolver).applyStyles n s).2.success = true ∧
        ((⟨t', config⟩ : Resolver).applyStyles n s).2.warnings.Sublist
          ((⟨t, config⟩ : Resolver).applyStyles n s).2.warnings) ∧
      ∀ target, ((⟨t, config⟩ : Resolver).applyStyles n s).2.targets.count target ≤
          ((⟨t', config⟩ : Resolver).applyStyles n s).2.targets.count target ∧
        ((⟨t, config⟩ : Resolver).applyStyles n s).1.targets.count target ≤
          ((⟨t', config⟩ : Resolver).applyStyles n s).1.targets.count target := by
  intro light dark t modal t' fill body s n config
  have within : t.Within t' := ⟨fun _ _ h => h, fun _ _ h => nomatch h⟩
  have succeeds : ((⟨t, config⟩ : Resolver).applyStyles n s).2.success = true := by decide +kernel
  obtain ⟨better, bound⟩ := applyStyles_of_within within config n s
  exact ⟨within, succeeds, better succeeds, bound⟩

end Resolver

end DesignTree
