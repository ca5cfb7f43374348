import RenderTree.Proofs.Display.Present
import RenderTree.Proofs.Walk.WellFormed

/-!
# Hiding what has no file

A walk can be asked to hide the components that remain unresolved. It finds the same tree then, with
these components marked, and the marks do no more than take them out of what is shown.

* `Facts.hideUnresolved` — a component that is hidden exactly if it is unresolved.
* `component_hides` — hiding changes nothing else about a component and those below it.
* `keep_shown_hideUnresolved` — to hide the unresolved components is to leave them out.
* `walk_hideThirdParty` — both for whole walks, and what is shown of their trees.
-/

namespace RenderTree

/-! ### Trees with unresolved components hidden -/

/-- The same component, hidden exactly if it is unresolved. -/
def Facts.hideUnresolved (f : Facts) : Facts :=
  { f with hidden := f.status == .unresolved }

/-- Whether a component is not unresolved. -/
def Facts.isKnown (f : Facts) : Bool :=
  f.status != .unresolved

/-- With the unresolved hidden those components are shown that are known. -/
theorem Facts.shown_hideUnresolved (f : Facts) : f.hideUnresolved.shown = f.isKnown := rfl

/-- A component that is neither hidden nor unresolved stays as it is. -/
theorem Facts.hideUnresolved_eq_self {f : Facts} (hf : f.hidden = false) (hk : f.isKnown = true) :
    f.hideUnresolved = f := by
  have hstatus : (f.status == Status.unresolved) = false := by simpa [isKnown] using hk
  rw [hideUnresolved, hstatus, ← hf]

/-- **Hiding leaves out.** Where nothing else is hidden, a tree whose unresolved components are
hidden has left, without its hidden components, what the tree has without its unresolved ones. -/
theorem Component.keep_shown_hideUnresolved {c : Component}
    (hc : ∀ d ∈ c.preorder, d.facts.hidden = false) (hroot : c.facts.isKnown = true) :
    (c.map Facts.hideUnresolved).keep Facts.shown = c.keep Facts.isKnown := by
  induction c using tree_induction with
  | node f cs ih =>
    have hf : f.hideUnresolved = f :=
      Facts.hideUnresolved_eq_self (hc (node f cs) (by simp [preorder])) hroot
    -- The children that are left are the same in both trees: those that are not unresolved.
    have hcs : (cs.map (map Facts.hideUnresolved)).filter (fun d => d.facts.shown) =
        (cs.filter (fun d => d.facts.isKnown)).map (map Facts.hideUnresolved) := by
      rw [List.filter_map]
      congr 1
      apply List.filter_congr
      intro d _
      rw [Function.comp_apply, facts_map, Facts.shown_hideUnresolved]
    rw [map_node, keep_node, keep_node, hf, hcs, List.map_map]
    congr 1
    apply List.map_congr_left
    intro d hd
    obtain ⟨hmem, hknown⟩ := List.mem_filter.1 hd
    have hshown : ∀ e ∈ d.preorder, e.facts.hidden = false :=
      fun e he => hc e (mem_preorder_of_mem_children hmem he)
    exact ih d hmem hshown hknown

namespace Walker

variable {w : Walker} {l : Path} {above : List Path} {depth : Nat} {b : Binding}
  {c : Component} {errors : List ScanError}

/-! ### Walks that hide -/

/-- The walker that hides unresolved components, or does not. -/
def hides (w : Walker) (hide : Bool) : Walker :=
  { w with options := { w.options with hideThirdParty := hide } }

/-- Hiding does not matter to what specifiers stand for. -/
theorem resolve_hides (w : Walker) (hide : Bool) (specifier : Text) (importer : Option Path) :
    (w.hides hide).resolve specifier importer = w.resolve specifier importer :=
  rfl

/-- Hiding does not matter to what files render. -/
theorem scan_hides (w : Walker) (hide : Bool) (p : Path) : (w.hides hide).scan p = w.scan p :=
  rfl

/-- **One component.** Hiding finds a component as it is found without, but with the unresolved
components of its tree hidden, and with the same errors. -/
theorem component_hides (w : Walker) (l : Path) (above : List Path) :
    ∀ depth b, (w.hides true).component l above depth b =
      (((w.hides false).component l above depth b).1.map Facts.hideUnresolved,
        ((w.hides false).component l above depth b).2) := by
  induction l, above using w.way_induction with
  | step l above ih =>
    intro depth b
    have hx := (w.hides false).exit_component l above depth b
    generalize (w.hides false).component l above depth b = r at hx ⊢
    obtain ⟨c, errors⟩ := r
    -- Nothing that decides which exit is taken depends on whether unresolved components are hidden.
    cases hx with
    | missing found => exact Exit.component_eq (.missing found)
    | cycle found onWay => exact Exit.component_eq (.cycle found onWay)
    | beyond found new deep => exact Exit.component_eq (.beyond found new deep)
    | faulty found new near scanned => exact Exit.component_eq (.faulty found new near scanned)
    | @opened next used found new near scanned =>
      have hopened : (w.hides true).component l above depth b = _ :=
        Exit.component_eq (.opened found new near scanned)
      have hbelow := components_map used fun b' _ =>
        ih next ⟨used, scanned⟩ new (depth + 1) b'
      rw [hopened, hbelow, Component.map_node]
      rfl

/-- A walk that hides unresolved components finds the tree that it finds otherwise, but with these
components hidden, and the same errors. -/
theorem found_hides (w : Walker) (root : Path) (l : Path) (used : List Binding) :
    (w.hides true).found root l used =
      ⟨((w.hides false).found root l used).root.map Facts.hideUnresolved,
        ((w.hides false).found root l used).errors⟩ := by
  have hbelow := components_map used fun b _ => w.component_hides l [] 1 b
  rw [found, hbelow, found, Component.map_node]
  rfl

/-- A component that fits is not hidden if unresolved components are not. -/
theorem Fits.hidden_eq_false (h : w.Fits c) (hw : w.options.hideThirdParty = false) :
    c.facts.hidden = false := by
  rw [Fits] at h
  split at h
  · exact h.elim
  · exact h.1
  · exact h.2.2.1
  · rw [h.2.2, hw]
  · exact h.2.2

end Walker

/-! ### Whole walks -/

/-- Nothing is hidden in the tree of a walk that does not hide unresolved components. -/
theorem walk_hidden_eq_false {w : Walker} {root : Path} {t : Walked}
    (hw : w.options.hideThirdParty = false) (h : w.walk root = .ok t) :
    ∀ c ∈ t.root.preorder, c.facts.hidden = false := by
  intro c hc
  obtain ⟨above, hb⟩ := Component.exists_branch t.root hc
  exact (branch_fits h hb).hidden_eq_false hw

/-- **Hidden components.** A walk that hides unresolved components fails as one that does not, or
lists the same errors and finds the same tree, but with the unresolved components hidden and no
others. However that tree is presented, it is shown as the tree of the other walk would be if it had
no unresolved components. -/
theorem walk_hideThirdParty (w : Walker) (root : Path) :
    Walked.Alike
      (fun t u => u.errors = t.errors ∧ u.root = t.root.map Facts.hideUnresolved ∧
        ∀ p : Presentation, u.root.present p = (t.root.keep Facts.isKnown).present p)
      ((w.hides false).walk root) ((w.hides true).walk root) := by
  refine walk_alike rfl (fun _ _ => rfl) ?_
  intro l used hl hs
  have ht : (w.hides false).walk root = .ok _ := walk_eq_ok_iff.2 ⟨l, used, hl, hs, rfl⟩
  have hknown : ((w.hides false).found root l used).root.facts.isKnown = true := rfl
  rw [Walker.found_hides w root l used]
  refine ⟨rfl, rfl, ?_⟩
  intro p
  rw [← Component.present_keep_shown]
  exact congrArg (Component.present · p)
    (Component.keep_shown_hideUnresolved (walk_hidden_eq_false rfl ht) hknown)

end RenderTree
