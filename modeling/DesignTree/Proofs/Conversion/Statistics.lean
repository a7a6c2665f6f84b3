import DesignTree.Proofs.Conversion.Basic
import Mathlib.Algebra.Ring.Int.Defs

/-! # The balance of a conversion

The statistics count the widgets of a tree and the nodes of the converted one. Lowering makes one
node for each widget, and none of them an instance; then each usage that has no usage above it
becomes one instance, and the nodes below it are gone (`tally_of_yields`). So the numbers differ by
the widgets below those usages (`statistics_of_convert`).
-/

namespace DesignTree

open InRun

/-- Some widgets and the nodes made from them: of the widgets, `replaced` have become instances, and
those below them have no nodes. -/
structure Tally (replaced ws : List Widget) (ms : List Node) : Prop where
  instances : ms.countP (·.kind = .componentInstance) = replaced.length
  lengths : (ws.length : Int) - ms.length = (replaced.map fun v => (v.size : Int) - 1).sum

namespace Tally

theorem append {rs rs' ws ws' : List Widget} {ms ms' : List Node} (h : Tally rs ws ms)
    (h' : Tally rs' ws' ms') : Tally (rs ++ rs') (ws ++ ws') (ms ++ ms') where
  instances := by rw [List.countP_append, List.length_append, h.instances, h'.instances]
  lengths := by
    have lengths := h.lengths
    have lengths' := h'.lengths
    rw [List.map_append, List.sum_append, List.length_append, List.length_append]
    omega

/-- A widget that keeps its node adds nothing to what is replaced. -/
theorem cons {rs ws : List Widget} {ms : List Node} (w : Widget) {m : Node}
    (hm : m.kind ≠ .componentInstance) (h : Tally rs ws ms) : Tally rs (w :: ws) (m :: ms) where
  instances := by
    rw [List.countP_cons_of_neg (by simpa using hm)]
    exact h.instances
  lengths := by
    have lengths := h.lengths
    rw [List.length_cons, List.length_cons]
    omega

/-- A whole tree of widgets becomes one instance. -/
theorem single (w : Widget) {m : Node} (hm : m.kind = .componentInstance)
    (hc : m.children = []) : Tally [w] w.walk m.walk := by
  rw [Node.walk_eq, hc, Node.walkAll_nil]
  exact ⟨by simp [hm], by simp [Widget.size]⟩

end Tally

namespace Catalog

variable {c : Catalog} {us : Usages} {run after : Run}

theorem tally_children {used : Text → Bool} {ws : List Widget} {ns ms : List Node}
    (h : InTurn (fun w n m _ _ => (∀ v ∈ n.walk, v.kind ≠ .componentInstance) →
      Tally (w.topmost used) w.walk m.walk) ws ns ms run after)
    (hn : ∀ v ∈ Node.walkAll ns, v.kind ≠ .componentInstance) :
    Tally (ws.flatMap (Widget.topmost used)) (Widget.walkAll ws) (Node.walkAll ms) := by
  induction h with
  | nil => exact ⟨rfl, rfl⟩
  | cons first _ ih =>
    rw [Node.walkAll_cons, List.forall_mem_append] at hn
    exact (first hn.1).append (ih hn.2)

/-- Where each node has the identifier of its widget and none is an instance, the topmost usages
are replaced. -/
theorem tally_of_yields (w : Widget) {n m : Node}
    (hl : n.labels Node.widgetId = w.labels (fun v => some v.id))
    (hn : ∀ v ∈ n.walk, v.kind ≠ .componentInstance)
    (h : (c.placeInstances us w n).Yields run m after) :
    Tally (w.topmost us.has) w.walk m.walk := by
  refine placeInstances_induct (motive := fun w n m _ _ =>
    (∀ v ∈ n.walk, v.kind ≠ .componentInstance) → Tally (w.topmost us.has) w.walk m.walk)
    ?_ ?_ w hl h hn
  · intro w n m run after componentId _ hu hm _
    have used : us.has w.id = true := by rw [Entries.has, hu, Option.isSome_some]
    obtain ⟨b, p, -, -, -, rfl⟩ := yields_replace.1 hm
    rw [Widget.topmost_eq, if_pos used]
    exact .single w rfl rfl
  · intro w n ms run after _ hu hm hn
    have unused : ¬us.has w.id = true := by
      rw [Entries.has, hu]
      exact Bool.false_ne_true
    rw [Node.walk_eq, List.forall_mem_cons] at hn
    rw [Widget.topmost_eq, if_neg unused, Widget.walk_eq, Node.walk_eq]
    exact .cons w hn.1 (tally_children hm hn.2)

end Catalog

/-- The statistics of a tree of widgets and the node tree that it was converted to, where `replaced`
have become instances. -/
structure Statistics.Balance (s : Statistics) (root : Widget) (node : Node)
    (replaced : List Widget) : Prop where
  found : s.widgetsFound = root.walk.length
  converted : s.widgetsConverted = node.walk.length
  instances : s.instancesCreated = replaced.length
  difference : (s.widgetsFound : Int) - s.widgetsConverted =
    (replaced.map fun v => (v.size : Int) - 1).sum

namespace Converter

/-- **Statistics balance.** A conversion finds all widgets of its tree, and converts as many as its
root has nodes. The instances that it creates are those of the usages that have no usage above them,
and what it finds without converting it are the widgets below these. -/
theorem statistics_of_convert (c : Converter) (root : Widget) (theme : Option Theme)
    (ds : List Definition) (modes : Entries Theme) (r : Conversion)
    (h : c.convert root theme ds modes = .ok r) :
    r.statistics.Balance root r.root
      (root.topmost fun id => ds.any fun d => d.usageIds.contains id) := by
  obtain ⟨tokens, node, catalog, after, library, -, hy, -, rfl⟩ := convert_eq_ok_iff.1 h
  obtain ⟨limit, styled, lowered, built, -, hs, hb, hp⟩ := yields_convertTree.1 hy
  have tally := Catalog.tally_of_yields root (labels_widgetId (Synthesizer.labels_lower rfl hs))
    (Synthesizer.kind_ne_of_lower rfl hs) hp
  rw [has_ofCatalog_of_buildAll hb] at tally
  exact ⟨rfl, rfl, tally.instances, tally.lengths⟩

theorem statistics_of_convert_page :
    let save : Widget := { id := "save", kind := .button, properties := { text := some "Save" } }
    let bar : Widget := { id := "bar", kind := .row, children := [save, save] }
    let page : Widget := { id := "page", kind := .column, children := [bar, save] }
    let ds : List Definition := [{ widget := save, name := "Plain", usageIds := ["save"] },
                                 { widget := bar, name := "Bar", usageIds := ["bar"] }]
    ∃ r, (⟨{}, .ofNat 4, .text "Library", .text "1"⟩ : Converter).convert page none ds = .ok r ∧
      r.statistics.Balance page r.root
        (page.topmost fun id => ds.any fun d => d.usageIds.contains id) := by
  intro save bar page ds
  obtain ⟨r, h⟩ := isOk_iff.1 (by decide +kernel :
    ((⟨{}, .ofNat 4, .text "Library", .text "1"⟩ : Converter).convert page none ds).isOk)
  exact ⟨r, h, statistics_of_convert _ page none ds [] r h⟩

end Converter

end DesignTree
