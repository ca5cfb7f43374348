import RenderTree.Proofs.Tree.Map
import RenderTree.Proofs.Walk.WellFormed

/-!
# The module directory

A module directory is tried for what is not found beside the file that imports it. So it can only
turn components without a file into others; all that is found without it stays where and as it is,
although the trees may have different shapes from there on.

* `Walker.Replaces` — a component that has a file only in the module directory, and what takes its
  place.
* `Walker.Extends` — two trees that agree but for such components.
* `component_extends` — one component, with and without the module directory.
* `walk_moduleDir` — whole walks.
-/

namespace RenderTree

namespace Walker

/-- The walker with a module directory, or without one. -/
def searching (w : Walker) (dir : Option Path) : Walker :=
  { w with options := { w.options with moduleDir := dir } }

variable {w v : Walker} {l next : Path} {above : List Path} {depth : Nat} {b : Binding}
  {dir : Path} {c c' p : Component} {facts : Facts} {used : List Binding}

/-- A file that is found without a module directory is found with one. -/
theorem lookUp_searching (h : (w.searching none).lookUp l b = some next) :
    (w.searching (some dir)).lookUp l b = some next :=
  Disk.resolve_moduleDir h (some dir)

/-! ### Trees with more in them -/

/-- The component `c`, which `p` renders, is a leaf because the walker `w` finds no file for it. The
walker `v` finds one, and has `c'` in its place. -/
structure Replaces (w v : Walker) (p c c' : Component) : Prop where
  status : c.facts.status = .unresolved
  leaf : c.children = []
  missing : w.target p c = none
  found : v.target p c ≠ none
  name : c'.facts.name = c.facts.name
  specifier : c'.facts.specifier = c.facts.specifier
  depth : c'.facts.depth = c.facts.depth

/-- The trees agree in all that is known of their components, but for those that `v` replaces and
for what is below them. -/
inductive Extends (w v : Walker) : Component → Component → Prop where
  | node {f : Facts} {cs cs' : List Component} (length : cs'.length = cs.length)
      (each : ∀ (i : Nat) (c c' : Component), cs[i]? = some c → cs'[i]? = some c' →
        ¬ w.Replaces v (.node f cs) c c' → Extends w v c c') :
      Extends w v (.node f cs) (.node f cs')

/-- Every tree extends itself. -/
theorem Extends.refl (c : Component) : w.Extends v c c := by
  induction c using Component.tree_induction with
  | node f cs ih =>
    refine .node rfl ?_
    intro i c c' hc hc' _
    rw [hc, Option.some.injEq] at hc'
    exact hc' ▸ ih c (List.mem_of_getElem? hc)

/-! ### Components with and without the module directory -/

/-- The component that `b` stands for is found with the walker `v` as with `w`, or replaced, or there
is more below it, and all that could not be read is listed with `v` too. -/
def ExtendsAt (w v : Walker) (l : Path) (above : List Path) (depth : Nat) (b : Binding) :
    Prop :=
  (∀ p : Component, p.facts.path = some l →
    ¬ w.Replaces v p (w.component l above depth b).1 (v.component l above depth b).1 →
      w.Extends v (w.component l above depth b).1 (v.component l above depth b).1) ∧
  (w.component l above depth b).2.Sublist (v.component l above depth b).2

/-- What both walkers find alike extends itself. -/
theorem extendsAt_of_eq (h : v.component l above depth b = w.component l above depth b) :
    w.ExtendsAt v l above depth b := by
  rw [ExtendsAt, h]
  exact ⟨fun _ _ _ => .refl _, .refl _⟩

/-- What is found below a file extends if each of its components does. -/
theorem components_extends (hpath : facts.path = some l)
    (h : ∀ b ∈ used, w.ExtendsAt v l above depth b) :
    w.Extends v (.node facts (w.components l above depth used).1)
        (.node facts (v.components l above depth used).1) ∧
      (w.components l above depth used).2.Sublist (v.components l above depth used).2 := by
  constructor
  · refine .node (by simp [components_eq]) ?_
    intro i c c' hc hc' hnot
    -- Both children come from the same binding.
    rw [getElem?_components] at hc hc'
    obtain ⟨b, hb, rfl⟩ := Option.map_eq_some_iff.1 hc
    rw [hb, Option.map_some, Option.some.injEq] at hc'
    subst hc'
    exact (h b (List.mem_of_getElem? hb)).1 (.node facts _) hpath hnot
  · rw [components_eq, components_eq]
    clear hpath
    induction used with
    | nil => exact .refl _
    | cons b bs ih =>
      rw [List.flatMap_cons, List.flatMap_cons]
      exact (h b List.mem_cons_self).2.append
        (ih fun b' hb' => h b' (List.mem_cons_of_mem _ hb'))

/-- A component without a file is replaced where there is one in the module directory. -/
theorem replaces_of_missing (hc : w.lookUp l b = none) (hv : v.lookUp l b = some next)
    (hp : p.facts.path = some l) :
    w.Replaces v p (w.unresolved (fresh depth b)) (v.component l above depth b).1 := by
  have hx := v.exit_component l above depth b
  have htarget : v.target p (w.unresolved (fresh depth b)) = some next :=
    (v.target_eq_lookUp hp rfl).trans hv
  exact {
    status := rfl
    leaf := rfl
    missing := (w.target_eq_lookUp hp rfl).trans hc
    found := by simp [htarget]
    name := congrArg Prod.fst hx.label_eq
    specifier := congrArg Prod.snd hx.label_eq
    depth := hx.depth_eq }

/-- **One component.** With a module directory a component is found as without, or replaced, or
there is more below it. -/
theorem component_extends (w : Walker) (dir : Path) (l : Path) (above : List Path) :
    ∀ depth b, (w.searching none).ExtendsAt (w.searching (some dir)) l above depth b := by
  induction l, above using w.way_induction with
  | step l above ih =>
    intro depth b
    have hx := (w.searching none).exit_component l above depth b
    generalize hr : (w.searching none).component l above depth b = r at hx
    obtain ⟨c, errors⟩ := r
    -- What is found without the module directory is found with it, and the same exit is taken.
    cases hx with
    | missing found =>
      cases hv : (w.searching (some dir)).lookUp l b with
      | none => exact extendsAt_of_eq (hr.symm ▸ Exit.component_eq (.missing hv))
      | some next =>
        rw [ExtendsAt, hr]
        refine ⟨fun p hp hnot => absurd (replaces_of_missing found hv hp) hnot, ?_⟩
        exact List.nil_sublist _
    | cycle found onWay =>
      exact extendsAt_of_eq (hr.symm ▸ Exit.component_eq (.cycle (lookUp_searching found) onWay))
    | beyond found new deep =>
      exact extendsAt_of_eq (hr.symm ▸ Exit.component_eq (.beyond (lookUp_searching found) new deep))
    | faulty found new near scanned =>
      exact extendsAt_of_eq
        (hr.symm ▸ Exit.component_eq (.faulty (lookUp_searching found) new near scanned))
    | @opened next used found new near scanned =>
      have hv : (w.searching (some dir)).component l above depth b = _ :=
        Exit.component_eq (.opened (lookUp_searching found) new near scanned)
      have hbelow : ∀ b' ∈ used, (w.searching none).ExtendsAt (w.searching (some dir)) next
          (l :: above) (depth + 1) b' := fun b' _ => ih next ⟨used, scanned⟩ new (depth + 1) b'
      have hpath : { fresh depth b with path := some next, status := .scanned }.path =
          some next := rfl
      obtain ⟨htree, herrors⟩ := components_extends hpath hbelow
      rw [ExtendsAt, hr, hv]
      exact ⟨fun _ _ _ => htree, herrors⟩

end Walker

/-! ### Whole walks -/

/-- **Module directories.** A walk with a module directory fails as the walk without it does, or it
finds the tree of that walk, in which some of the components that have no file have been replaced by
others of the same name, specifier and depth, with whatever is below these. It lists all errors of
that walk, in their order. -/
theorem walk_moduleDir (w : Walker) (root : Path) (dir : Path) :
    Walked.Alike
      (fun t u => (w.searching none).Extends (w.searching (some dir)) t.root u.root ∧
        t.errors.Sublist u.errors)
      ((w.searching none).walk root) ((w.searching (some dir)).walk root) := by
  refine walk_alike (Disk.resolve_root_moduleDir ..) (fun _ _ => rfl) ?_
  intro l used _ _
  have hbelow : ∀ b ∈ used, (w.searching none).ExtendsAt (w.searching (some dir)) l [] 1 b :=
    fun b _ => w.component_extends dir l [] 1 b
  have hpath : (Walker.rootFacts root l).path = some l := rfl
  exact Walker.components_extends hpath hbelow

end RenderTree
