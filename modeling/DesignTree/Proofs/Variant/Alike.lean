import DesignTree.Proofs.Lowering.Alike
import DesignTree.Proofs.Variant.Synthesis

/-! # Making trees in different runs

Styling does not look at identifiers, so that alike trees are styled alike (`Alike.styleTree`). What
a synthesizer makes of a widget is therefore the same in all runs but for the identifiers
(`alike_of_lower`), and it makes a tree in one run exactly if it does in any other
(`returns_lower_congr`). -/

namespace DesignTree

namespace Node

theorem anonymous_style (r : Resolver) (w : Widget) {n m : Node} (h : n.anonymous = m.anonymous)
    (hk : n.kind = m.kind) (hp : n.properties = m.properties) (hl : n.autoLayout = m.autoLayout) :
    (r.style w n).node.anonymous = (r.style w m).node.anonymous := by
  obtain ⟨q, other, result, added, -, -, hstyle⟩ :=
    r.applyStyles_restyle w.styling n.kind n.properties n.autoLayout
  have hn := hstyle n rfl
  have hm := hstyle m hk.symm
  rw [restyle_self] at hn
  rw [hp, hl, restyle_self] at hm
  have own : ({ n.restyle q other with bindings := n.bindings ++ added } : Node).anonymous =
      ({ m.restyle q other with bindings := m.bindings ++ added } : Node).anonymous :=
    congrArg (fun k : Node => { k with properties := q, autoLayout := other,
                                       bindings := k.bindings ++ added }) h
  unfold Resolver.style
  rw [hn, hm]
  exact own

/-- Trees that are each styled like those alike to them are styled alike one after the other: a
styling that does not go through ends both lists at the same tree. -/
theorem labelsAll_styleAll (r : Resolver) {ns ms : List Node} (ws : List Widget)
    (styled : ∀ n ∈ ns, ∀ m, n.Alike m → ∀ w, (r.styleTree w n).1.Alike (r.styleTree w m).1)
    (h : labelsAll anonymous ns = labelsAll anonymous ms) :
    labelsAll anonymous (r.styleAll ws ns).1 = labelsAll anonymous (r.styleAll ws ms).1 := by
  induction ns generalizing ws ms with
  | nil =>
    cases ms with
    | nil => rfl
    | cons m rest => cases h
  | cons n ns ih =>
    cases ms with
    | nil => cases h
    | cons m ms =>
      rw [labelsAll, labelsAll, List.cons.injEq] at h
      obtain ⟨head, tail⟩ := h
      cases ws with
      | nil =>
        change labelsAll anonymous (n :: ns) = labelsAll anonymous (m :: ms)
        rw [labelsAll, labelsAll, head, tail]
      | cons w ws =>
        have first := styled n List.mem_cons_self m head w
        have others := ih ws (fun k hk => styled k (List.mem_cons_of_mem n hk)) tail
        have complete : (r.styleTree w n).2.2 = (r.styleTree w m).2.2 := by
          rw [Bool.eq_iff_iff, r.complete_styleTree_iff, r.complete_styleTree_iff, Alike.shape head]
        rw [Resolver.styleAll_cons, Resolver.styleAll_cons, complete]
        split
        · rw [labelsAll, labelsAll, first, others]
        · rw [labelsAll, labelsAll, first, tail]

/-- Alike trees are styled alike. -/
theorem Alike.styleTree {n m : Node} (h : n.Alike m) (r : Resolver) (w : Widget) :
    (r.styleTree w n).1.Alike (r.styleTree w m).1 := by
  induction n using Node.induct generalizing m w with
  | step n ih =>
    obtain ⟨own, children⟩ := alike_iff.1 h
    have styled := anonymous_style r w own h.kind h.properties h.autoLayout
    have count : n.children.length = m.children.length := by
      simpa [labelsAll_eq_map] using congrArg List.length children
    rw [r.styleTree_eq w n, r.styleTree_eq w m, count]
    split
    · have below := labelsAll_styleAll r w.children (fun k hk _ hm v => ih k hk hm v) children
      exact alike_iff.2 ⟨styled, below⟩
    · obtain ⟨p, a, bs, -, hn⟩ := r.restyled_style w n
      obtain ⟨p', a', bs', -, hm⟩ := r.restyled_style w m
      refine alike_iff.2 ⟨styled, ?_⟩
      rw [hn, hm]
      exact children

end Node

namespace Synthesizer

open InRun

variable {s : Synthesizer} {w : Widget}

/-- What is made of a widget is the same in all runs but for the identifiers. -/
theorem alike_of_lower {run run' after after' : Run} {n m : Node}
    (hn : (s.lower w).Yields run n after) (hm : (s.lower w).Yields run' m after') : n.Alike m := by
  obtain ⟨k, lowered, hk, hn⟩ := yields_lower.1 hn
  obtain ⟨k', lowered', hk', hm⟩ := yields_lower.1 hm
  have same := w.alike_of_yields hk hk'
  cases hr : s.resolver with
  | none =>
    rw [hr] at hn hm
    rw [hn.1, hm.1]
    exact same
  | some r =>
    rw [hr] at hn hm
    rw [hn.2.1, hm.2.1]
    exact same.styleTree r w

/-- A tree that is made in one run is made in any other. -/
theorem returns_lower_congr (s : Synthesizer) (w : Widget) (run run' : Run) :
    (s.lower w).Returns run ↔ (s.lower w).Returns run' := by
  cases hr : s.resolver with
  | none =>
    have plain : s.lower w = w.lower := by
      rw [lower, hr]
      exact bind_pure w.lower
    rw [plain, w.returns_lower_iff run, w.returns_lower_iff run']
  | some r => rw [returns_lower_iff hr, returns_lower_iff hr]

end Synthesizer

end DesignTree
