import RenderTree.Proofs.Tree.Preorder
import RenderTree.Proofs.Walk.Hidden
import Mathlib.Algebra.GroupWithZero.Nat
import Mathlib.Algebra.Order.BigOperators.Group.List
import Mathlib.Algebra.Order.Group.Nat

/-!
# How much of a tree is shown

A component tree is larger than what is shown of it by the components that are hidden, and by those
that give way to others. Hidden components have nothing below them, so without containers the numbers
add up; with them, what is shown can only be less.

* `Component.size_keep_add_countP` — leaving out leaves makes a tree smaller by their number.
* `Component.count_presentAs_le` — no more is shown than is left without the hidden components.
* `Component.count_presentAs_eq` — all of that is shown if no container gives way.
* `Walked.AddsUp` — the numbers of components found, shown and unresolved fit together.
* `walk_addsUp` — they do for every walk.
-/

namespace RenderTree

namespace Display

/-- The labels of several trees are counted tree by tree. -/
theorem countAll_eq_sum (ds : List Display) : countAll ds = (ds.map count).sum := by
  induction ds with
  | nil => rfl
  | cons d ds ih => simp [countAll, ih]

/-- Every tree has a label. -/
theorem one_le_count (d : Display) : 1 ≤ d.count := by
  cases d with
  | leaf l => simp [count]
  | branch l ds => simp [count]

end Display

namespace Component

variable {o : Presentation} {p : Facts → Bool} {marks : Text} {c : Component}
  {cs : List Component}

/-! ### Sizes of trees -/

/-- The components of several trees are counted tree by tree. -/
theorem sizes_eq_sum (cs : List Component) : sizes cs = (cs.map size).sum := by
  induction cs with
  | nil => rfl
  | cons c cs ih => simp [sizes, ih]

/-- Of several trees those are left whose roots meet the condition, and of these what is left of
each. -/
theorem sizes_keep_add_countP
    (h : ∀ c ∈ cs, (if p c.facts then (c.keep p).size else 0) +
      c.preorder.countP (fun d => !p d.facts) = c.size) :
    sizes ((cs.filter fun c => p c.facts).map (keep p)) +
      (preorders cs).countP (fun d => !p d.facts) = sizes cs := by
  induction cs with
  | nil => rfl
  | cons c cs ih =>
    have hc := h c List.mem_cons_self
    have hcs := ih fun d hd => h d (List.mem_cons_of_mem _ hd)
    rw [preorders, List.countP_append, sizes]
    -- A child that is kept counts with its size, one that is not with its nodes.
    by_cases hp : p c.facts = true
    · have hfilter : (c :: cs).filter (fun c => p c.facts) =
          c :: cs.filter (fun c => p c.facts) := List.filter_cons_of_pos hp
      rw [if_pos hp] at hc
      rw [hfilter, List.map_cons, sizes]
      omega
    · have hfilter : (c :: cs).filter (fun c => p c.facts) =
          cs.filter (fun c => p c.facts) := List.filter_cons_of_neg hp
      rw [if_neg hp] at hc
      rw [hfilter]
      omega

/-- **Leaves left out.** If those components that do not meet a condition have nothing below them, a
tree is larger by their number than what is left of it without them. -/
theorem size_keep_add_countP (hleaf : ∀ d ∈ c.preorder, p d.facts = false → d.children = [])
    (hroot : p c.facts = true) :
    (c.keep p).size + c.preorder.countP (fun d => !p d.facts) = c.size := by
  induction c using tree_induction with
  | node f cs ih =>
    have hbelow : ∀ d ∈ cs, (if p d.facts then (d.keep p).size else 0) +
        d.preorder.countP (fun e => !p e.facts) = d.size := by
      intro d hd
      have hleafd : ∀ e ∈ d.preorder, p e.facts = false → e.children = [] :=
        fun e he => hleaf e (mem_preorder_of_mem_children hd he)
      by_cases hp : p d.facts = true
      · rw [if_pos hp]
        exact ih d hd hleafd hp
      · -- The component is left out, and is all that there is of its tree.
        have hp' : p d.facts = false := by simpa using hp
        have hnil : d.children = [] := hleafd d (by simp [preorder_eq]) hp'
        rw [preorder_eq, size_eq d, hnil]
        simp [preorders, sizes, hp']
    have hcs := sizes_keep_add_countP hbelow
    have hf : p f = true := hroot
    rw [keep_node, preorder, size, size, List.countP_cons_of_neg (by simp [hf])]
    omega

/-! ### What is shown -/

/-- A displayed tree has one label more than the trees below it. -/
theorem count_display (label : Text) (ds : List Display) :
    (display label ds).count = 1 + (ds.map Display.count).sum := by
  cases ds with
  | nil => rfl
  | cons d ds => simp [display, Display.count, Display.countAll_eq_sum]

/-- A component that gives way to none is shown with its visible children below it. -/
theorem count_presentAs (marks : Text) (h : c.successor o = none) :
    (c.presentAs o marks).count =
      1 + (c.visible.map fun d => (d.presentAs o []).count).sum := by
  have hperm := sortByKey_perm (c.visible.map fun d => (d.facts.sortKey, d.presentAs o []))
  have hsum := ((hperm.map Prod.snd).map Display.count).sum_nat
  rw [presentAs_eq, h, count_display, hsum]
  simp [Function.comp_def]

/-- What is left of a tree without its hidden components, from what is left of its visible
children. -/
theorem size_keep_shown (c : Component) :
    (c.keep Facts.shown).size = 1 + (c.visible.map fun d => (d.keep Facts.shown).size).sum := by
  rw [size_eq, children_keep, sizes_eq_sum, List.map_map]
  rfl

/-- **No more is shown.** Whatever gives way, no more is shown of a tree than is left of it without
its hidden components. -/
theorem count_presentAs_le (o : Presentation) (c : Component) :
    ∀ marks, (c.presentAs o marks).count ≤ (c.keep Facts.shown).size := by
  induction c using tree_induction with
  | node f cs ih =>
    intro marks
    have hvisible : ∀ d ∈ (node f cs).visible, ∀ marks,
        (d.presentAs o marks).count ≤ (d.keep Facts.shown).size :=
      fun d hd => ih d (List.mem_filter.1 hd).1
    rw [size_keep_shown]
    cases hs : (node f cs).successor o with
    | some d =>
      -- The other visible children are not shown at all.
      have hmem := mem_visible_of_successor hs
      have hd := hvisible d hmem (marks ++ o.containerSuffix)
      have hle : (d.keep Facts.shown).size ≤
          ((node f cs).visible.map fun d => (d.keep Facts.shown).size).sum :=
        List.le_sum_of_mem (List.mem_map_of_mem hmem)
      rw [presentAs_eq, hs]
      show (d.presentAs o (marks ++ o.containerSuffix)).count ≤ _
      omega
    | none =>
      have hle := List.sum_le_sum fun d hd => hvisible d hd []
      rw [count_presentAs marks hs]
      omega

/-- **All is shown.** If no container gives way, all is shown of a tree that is left of it without its
hidden components. -/
theorem count_presentAs_eq (ho : o.hideContainers = false) (c : Component) :
    ∀ marks, (c.presentAs o marks).count = (c.keep Facts.shown).size := by
  induction c using tree_induction with
  | node f cs ih =>
    intro marks
    rw [count_presentAs marks (successor_of_hideContainers ho _), size_keep_shown]
    congr 2
    apply List.map_congr_left
    intro d hd
    exact ih d (List.mem_filter.1 hd).1 []

end Component

/-! ### Whole walks -/

namespace Walker

variable {w : Walker} {c : Component}

/-- A component that fits is hidden exactly if it is unresolved and these are hidden. -/
theorem Fits.hidden_eq (h : w.Fits c) :
    c.facts.hidden = (w.options.hideThirdParty && c.facts.status == .unresolved) := by
  rw [Fits] at h
  split at h
  next => exact h.elim
  next hs => rw [h.1, hs]; simp
  next hs => rw [h.2.2.1, hs]; simp
  next hs => rw [h.2.2, hs]; simp
  next hs => rw [h.2.2, hs]; simp

/-- A component that fits has neither a path nor children if it is hidden. -/
theorem Fits.of_hidden (h : w.Fits c) (hc : c.facts.hidden = true) :
    c.facts.path = none ∧ c.children = [] := by
  rw [h.hidden_eq, Bool.and_eq_true, beq_iff_eq] at hc
  rw [Fits, hc.2] at h
  exact ⟨h.1, h.2.1⟩

end Walker

/-- The number of components of a tree that are hidden by a walk with certain options. -/
def Component.hiddenBy (c : Component) (o : WalkOptions) : Nat :=
  if o.hideThirdParty then c.count .unresolved else 0

/-- The numbers of components that are found, shown and unresolved fit together. -/
structure Walked.AddsUp (t : Walked) (o : WalkOptions) (p : Presentation) : Prop where
  /-- All components that are found are shown or hidden if no container gives way. -/
  total : p.hideContainers = false →
    (t.root.present p).count + t.root.hiddenBy o = t.root.nodes.length
  /-- Besides the root at least one is shown then, if it renders one that has a file. -/
  some_child : p.hideContainers = false → t.root.hasResolvedChildren = true →
    2 ≤ (t.root.present p).count
  /-- Something is shown in any case. -/
  pos : 1 ≤ (t.root.present p).count
  /-- No more are shown than without containers that give way. -/
  le : (t.root.present p).count + t.root.hiddenBy o ≤ t.root.nodes.length

section Walk

variable {w : Walker} {root : Path} {t : Walked}

/-- Every component of a walk fits how it was handled. -/
theorem fits_of_mem_preorder (h : w.walk root = .ok t) :
    ∀ c ∈ t.root.preorder, w.Fits c := by
  intro c hc
  obtain ⟨above, hb⟩ := Component.exists_branch t.root hc
  exact branch_fits h hb

/-- The hidden components of a walk are as many as are hidden by it. -/
theorem walk_countP_hidden (h : w.walk root = .ok t) :
    t.root.preorder.countP (fun c => !c.facts.shown) = t.root.hiddenBy w.options := by
  have hfits := fits_of_mem_preorder h
  have hhidden : ∀ c ∈ t.root.preorder, (!c.facts.shown) =
      (w.options.hideThirdParty && c.facts.status == .unresolved) := by
    intro c hc
    rw [Facts.shown, Bool.not_not]
    exact (hfits c hc).hidden_eq
  rw [List.countP_congr fun c hc => by rw [hhidden c hc], Component.hiddenBy]
  cases w.options.hideThirdParty with
  | true => simp [Component.count, Component.nodes_eq_preorder]
  | false => simp

/-- What a walk hides is what is left out of its tree. -/
theorem walk_size_keep_shown (h : w.walk root = .ok t) :
    (t.root.keep Facts.shown).size + t.root.hiddenBy w.options = t.root.nodes.length := by
  have hleaf : ∀ c ∈ t.root.preorder, c.facts.shown = false → c.children = [] := by
    intro c hc hs
    exact ((fits_of_mem_preorder h c hc).of_hidden (by simpa [Facts.shown] using hs)).2
  have hroot : t.root.facts.shown = true := by
    obtain ⟨l, -, hfacts, -⟩ := walk_onWay_root h
    rw [hfacts]
    rfl
  rw [← walk_countP_hidden h, Component.length_nodes]
  exact Component.size_keep_add_countP hleaf hroot

/-- A child of the root that has a file is visible. -/
theorem walk_exists_visible (h : w.walk root = .ok t)
    (hr : t.root.hasResolvedChildren = true) : ∃ c, c ∈ t.root.visible := by
  obtain ⟨c, hc, hpath⟩ := List.any_eq_true.1 hr
  refine ⟨c, List.mem_filter.2 ⟨hc, ?_⟩⟩
  have hmem : c ∈ t.root.preorder :=
    Component.mem_preorder_of_mem_children hc (by simp [Component.preorder_eq])
  -- It would have lost its path if it were hidden.
  by_contra hs
  have hnone := ((fits_of_mem_preorder h c hmem).of_hidden (by simpa [Facts.shown] using hs)).1
  rw [hnone] at hpath
  cases hpath

/-- **Found, shown, unresolved.** However the tree of a walk is presented, at least the root is shown
and no more than what is found and not hidden. Unless containers give way it is as much as that, and
more than the root if that renders a component with a file. -/
theorem walk_addsUp (w : Walker) (root : Path) (t : Walked) (h : w.walk root = .ok t)
    (p : Presentation) : t.AddsUp w.options p where
  total := by
    intro hp
    rw [Component.present, Component.count_presentAs_eq hp]
    exact walk_size_keep_shown h
  some_child := by
    intro hp hr
    -- One child that is shown makes up at least one node, in place of the container.
    obtain ⟨c, hc⟩ := walk_exists_visible h hr
    have hle : (c.keep Facts.shown).size ≤
        (t.root.visible.map fun d => (d.keep Facts.shown).size).sum :=
      List.le_sum_of_mem (List.mem_map_of_mem hc)
    have hpos : 1 ≤ (c.keep Facts.shown).size := by
      rw [Component.size_eq]
      omega
    rw [Component.present, Component.count_presentAs_eq hp, Component.size_keep_shown]
    omega
  pos := Display.one_le_count _
  le := by
    have hle := Component.count_presentAs_le p t.root []
    have hsize := walk_size_keep_shown h
    rw [Component.present]
    omega

/-- The numbers fit together for a project with a component that has no file and one whose file is at
fault, both hidden, whichever components count as containers. -/
theorem cyclicProject_addsUp :
    ∃ t, (cyclicProject.hides true).walk (Path.ofText "App") = .ok t ∧
      ∀ p, t.AddsUp (cyclicProject.hides true).options p := by
  have hl := (cyclicProject.resolve_hides true _ _).trans cyclicProject_resolve
  have hs := (cyclicProject.scan_hides true _).trans cyclicProject_scan
  have hwalk : ∃ t, (cyclicProject.hides true).walk (Path.ofText "App") = .ok t :=
    ⟨_, walk_eq_ok_iff.2 ⟨appFile.toPath, _, hl, hs, rfl⟩⟩
  obtain ⟨t, ht⟩ := hwalk
  exact ⟨t, ht, walk_addsUp (cyclicProject.hides true) (Path.ofText "App") t ht⟩

end Walk

end RenderTree
