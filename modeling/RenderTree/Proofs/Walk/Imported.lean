import RenderTree.Proofs.Text.Basic
import RenderTree.Proofs.Usage.FirstBinding
import RenderTree.Proofs.Walk.WellFormed

/-!
# Where components come from

Every component but the root is imported by the file of the one that renders it. So whatever the
files look like that a walk opens, neither an asset nor an import that binds no name gets into its
tree.

* `Walker.ModuleOf` — the module in the file of a component.
* `Source.Module.Imported` — a component that a module imports.
* `Source.Module.RenderedAs` — the children of a component as what its module renders.
* `walk_imported` — every tree that a walk finds consists of such components.
-/

namespace RenderTree

open RenderTree.Source
open RenderTree.Text

/-- The file of a component has the module `m` in it. -/
def Walker.ModuleOf (w : Walker) (c : Component) (m : Module) : Prop :=
  ∃ l bytes text, c.facts.path = some l ∧ w.read l.text = .ok bytes ∧
    decode bytes = .ok text ∧ w.parse (unixLines text) = .ok m

namespace Source.Module

/-- The component is one that the module imports: of all bindings of its name that the module makes
the first has its specifier, and a clause of one of its statements makes that from code. -/
def Imported (m : Module) (c : Component) : Prop :=
  ∃ b : Binding, m.imports.find? (fun x => x.localName == b.localName) = some b ∧
    b.localName = c.facts.name ∧ c.facts.specifier = some (Text.ofString b.specifier) ∧
    ∃ statement ∈ m.declarations, m.Imports statement b

/-- The components are as the module renders them. -/
structure RenderedAs (m : Module) (library : Text) (cs : List Component) : Prop where
  /-- Their names are different. -/
  distinct : (cs.map (fun c => c.facts.name)).Nodup
  /-- Each of them is imported. -/
  imported : ∀ c ∈ cs, m.Imported c
  /-- There is no more than one unless the module binds the name of the markup library. -/
  single : (∀ b ∈ m.imports, Text.ofString b.localName ≠ library) → cs.length ≤ 1

variable {m : Module} {library : Text} {c : Component}

/-- What a module imports has a specifier that is neither empty nor that of an asset. -/
theorem Imported.specifier (h : m.Imported c) :
    ∃ s, c.facts.specifier = some s ∧ s ≠ [] ∧ isAsset s = false := by
  obtain ⟨b, -, -, hs, statement, -, himports⟩ := h
  obtain ⟨hne, hcode⟩ := himports.code
  exact ⟨_, hs, mt Text.ofString_eq_nil_iff.1 hne, hcode⟩

/-- Components that have the names and specifiers of what a module renders are as it renders them. -/
theorem renderedAs_of_labels
    (h : c.labels = (m.usedComponents m.imports library).map
      (fun b => (Text.ofString b.localName, some (Text.ofString b.specifier)))) :
    m.RenderedAs library c.children where
  distinct := by
    have hnames : c.children.map (fun d => d.facts.name) =
        ((m.usedComponents m.imports library).map Binding.localName).map Text.ofString := by
      have hfst := congrArg (List.map Prod.fst) h
      rw [Component.labels, List.map_map, List.map_map] at hfst
      rw [List.map_map]
      exact hfst
    rw [hnames]
    exact (firstBindings_usedComponents m m.imports library).nodup.map Text.ofString_injective
  imported := by
    intro d hd
    have hmem : (d.facts.name, d.facts.specifier) ∈ c.labels := List.mem_map.2 ⟨d, hd, rfl⟩
    rw [h, List.mem_map] at hmem
    obtain ⟨b, hb, hlabel⟩ := hmem
    rw [Prod.mk.injEq] at hlabel
    -- What is rendered is the first binding of its name, and so one of the module's imports.
    have hfirst := (firstBindings_usedComponents m m.imports library).first b hb
    have himports := mem_imports_iff.1 (mem_of_lookUp hfirst)
    exact ⟨b, hfirst, hlabel.1, hlabel.2.symm, himports⟩
  single := by
    intro hlibrary
    have hlen : c.children.length = (m.usedComponents m.imports library).length := by
      simpa [Component.labels] using congrArg List.length h
    rw [hlen]
    exact length_usedComponents_le hlibrary

end Source.Module

/-- A component that renders what its file does has its children from the module in it. -/
theorem Walker.Renders.exists_module {w : Walker} {c : Component} (h : w.Renders c) :
    ∃ m, w.ModuleOf c m ∧ m.RenderedAs w.options.markupLibrary c.children := by
  obtain ⟨l, bytes, text, m, hpath, hb, ht, hm, hlabels⟩ := h
  exact ⟨m, ⟨l, bytes, text, hpath, hb, ht, hm⟩, Source.Module.renderedAs_of_labels hlabels⟩

section Walk

variable {w : Walker} {root : Path} {t : Walked}
  {c p : Component} {above : List Component}

/-- The children of a scanned component of a walk are what the module in its file renders. -/
theorem branch_renderedAs (h : w.walk root = .ok t) (hb : t.root.Branch c above)
    (hc : c.facts.status = .scanned) :
    ∃ m, w.ModuleOf c m ∧ m.RenderedAs w.options.markupLibrary c.children := by
  obtain ⟨l, ls, hl⟩ := branch_onWay h hb hc
  exact hl.renders.exists_module

/-- Every component of a walk but the root is imported by the module of its parent. -/
theorem branch_imported (h : w.walk root = .ok t) (hb : t.root.Branch c (p :: above)) :
    ∃ m, w.ModuleOf p m ∧ m.Imported c := by
  cases hb with
  | child hp hc =>
    obtain ⟨l, ls, hl⟩ := branch_onWay_of_mem h hp hc
    obtain ⟨m, hm, hrendered⟩ := branch_renderedAs h hp hl.status
    exact ⟨m, hm, hrendered.imported c hc⟩

/-- **Imported components.** In every tree that a walk finds the children of a scanned component have
different names, each is what the first binding of its name in the file stands for, and there is one
at most if the file does not import the markup library. So each component but the root is imported
by the file of another one, from code. -/
theorem walk_imported (w : Walker) (root : Path) (t : Walked)
    (h : w.walk root = .ok t) :
    (∀ c ∈ t.root.nodes, c.facts.status = .scanned →
      ∃ m, w.ModuleOf c m ∧ m.RenderedAs w.options.markupLibrary c.children) ∧
    (∀ c p above, t.root.Branch c (p :: above) →
      ∃ m, w.ModuleOf p m ∧ m.Imported c) ∧
    ∀ c ∈ t.root.nodes, ∀ s, c.facts.specifier = some s → s ≠ [] ∧ isAsset s = false := by
  refine ⟨?_, fun c p above => branch_imported h, ?_⟩
  · intro c hc hscanned
    obtain ⟨above, hb⟩ := Component.mem_nodes_iff.1 hc
    exact branch_renderedAs h hb hscanned
  · intro c hc s hs
    obtain ⟨above, hb⟩ := Component.mem_nodes_iff.1 hc
    cases above with
    | nil =>
      -- The root is not imported at all.
      obtain ⟨l, -, hfacts, -⟩ := walk_onWay_root h
      cases hb
      rw [hfacts] at hs
      cases hs
    | cons p above =>
      obtain ⟨m, -, himported⟩ := branch_imported h hb
      obtain ⟨s', hs', hcode⟩ := himported.specifier
      rw [hs, Option.some.injEq] at hs'
      exact hs' ▸ hcode

/-- A project that imports a style sheet and a component under one name, and something else only for
what it does. -/
def stylishProject : Walker where
  disk := ⟨[topFile "Shop.js"
      ("import React from 'r';import Cart from './c.css';import Cart from './Cart';"
        ++ "import './Setup';<Cart/>") (by decide),
    topFile "Cart.js" "import Item from './Item';export default wrap(Item)" (by decide)]⟩
  cwd := .root

/-- The root of the project has its file. -/
theorem stylishProject_resolve :
    stylishProject.resolve (Path.ofText "Shop").text none = some (.ofText "/Shop.js") := by
  have hlinkless : stylishProject.disk.Linkless := by
    simp [Disk.Linkless, stylishProject, topFile]
  rw [Walker.resolve, hlinkless.resolve_eq]
  decide +kernel

/-- The walk of the project finds a tree. -/
theorem stylishProject_walk : ∃ t, stylishProject.walk (Path.ofText "Shop") = .ok t :=
  ⟨_, walk_eq_ok_iff.2 ⟨_, [⟨"Cart", "./Cart"⟩], stylishProject_resolve,
    scan_eq_ok_of_toOption (by decide +kernel), rfl⟩⟩

/-- Neither the style sheet nor what is imported without a name gets into the tree. -/
theorem stylishProject_imported :
    ∃ t, stylishProject.walk (Path.ofText "Shop") = .ok t ∧
      ∀ c ∈ t.root.nodes, ∀ s, c.facts.specifier = some s → s ≠ [] ∧ isAsset s = false := by
  obtain ⟨t, ht⟩ := stylishProject_walk
  exact ⟨t, ht, (walk_imported stylishProject (Path.ofText "Shop") t ht).2.2⟩

end Walk

end RenderTree
