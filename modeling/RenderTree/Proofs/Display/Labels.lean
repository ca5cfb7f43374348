import RenderTree.Proofs.Display.Rearranged
import RenderTree.Proofs.Text.Basic
import RenderTree.Proofs.Walk.Compose
import RenderTree.Proofs.Walk.Imported

/-!
# Labels of siblings

In a label there may be a specifier before the name of a component, and the mark of a cycle behind it,
and a specifier may be nearly any text. Still the name can be read back from the label if there is no
slash and no space in it, so siblings of different names have different labels.

* `nameIn` — the name in a label; `Facts.nameIn_label`: it is that of the component.
* `Component.DistinctNames` — no two visible siblings of a component tree have the same name.
* `Component.ToldApart` — no two siblings in the display tree of a component tree have the same label.
* `Walker.ImportsPlainNames` — what a walker reads imports things by names without slashes and spaces.
* `walk_distinctNames` — so the names in every tree that a walk finds are distinct.
* `Component.present_toldApart` — siblings of distinct names are told apart by their labels.
-/

namespace RenderTree

open RenderTree.Source
open RenderTree.Text

/-! ### Names in labels -/

/-- A name without slashes and spaces. -/
def IsPlainName (name : Text) : Prop :=
  Symbol.char '/' ∉ name ∧ Symbol.char ' ' ∉ name

instance : DecidablePred IsPlainName :=
  fun _ => inferInstanceAs (Decidable (_ ∧ _))

/-- The name in a label: it stands behind the last slash, up to the first space. -/
def nameIn (label : Text) : Text :=
  beforeFirst (Symbol.char ' ') (afterLast (Symbol.char '/') label)

namespace Facts

/-- A label is the name, or ends with it behind a slash. -/
theorem label_eq_or (f : Facts) : f.label = f.name ∨ ∃ s, f.label = s ++ Symbol.char '/' :: f.name := by
  rw [label]
  split
  · exact .inl rfl
  · split
    · exact .inl rfl
    · split
      · exact .inl rfl
      · split
        · exact .inl rfl
        · exact .inr ⟨_, List.append_assoc ..⟩

/-- A label ends with nothing more, or with the mark of a cycle. -/
theorem labelEnd_eq_or (f : Facts) : f.labelEnd = [] ∨ f.labelEnd = " (cycle)" := by
  rw [labelEnd]
  split
  · exact .inr rfl
  · exact .inl rfl

/-- No slash is in the end of a label. -/
theorem slash_notMem_labelEnd (f : Facts) : Symbol.char '/' ∉ f.labelEnd := by
  rcases f.labelEnd_eq_or with h | h
  · rw [h]
    decide
  · rw [h]
    decide

/-- The mark of a cycle begins with a space. -/
theorem beforeFirst_append_labelEnd {name : Text} (f : Facts) (h : Symbol.char ' ' ∉ name) :
    beforeFirst (Symbol.char ' ') (name ++ f.labelEnd) = name := by
  rcases f.labelEnd_eq_or with hend | hend
  · rw [hend, List.append_nil, beforeFirst_of_notMem h]
  · rw [hend]
    exact beforeFirst_append_cons h

/-- **Names in labels.** The name of a component can be read back from its label, whatever specifier
and mark it has. -/
theorem nameIn_label {f : Facts} (h : IsPlainName f.name) :
    nameIn (f.label ++ f.labelEnd) = f.name := by
  have hslash : Symbol.char '/' ∉ f.name ++ f.labelEnd := by
    rw [List.mem_append, not_or]
    exact ⟨h.1, f.slash_notMem_labelEnd⟩
  have hlast : afterLast (Symbol.char '/') (f.label ++ f.labelEnd) =
      f.name ++ f.labelEnd := by
    rcases f.label_eq_or with hlabel | ⟨s, hlabel⟩
    · rw [hlabel, afterLast_of_notMem hslash]
    · rw [hlabel, List.append_assoc]
      exact afterLast_append hslash
  rw [nameIn, hlast, f.beforeFirst_append_labelEnd h.2]

example : nameIn "my lib/menus/Item (cycle)" = "Item" := by decide

end Facts

/-! ### Display trees -/

namespace Component

variable {o : Presentation} {c d : Component}

/-- At every component of a tree the children that are not hidden have names without slashes and
spaces, and these are all different. -/
def DistinctNames (c : Component) : Prop :=
  ∀ d ∈ c.nodes, (d.visible.map fun e => e.facts.name).Nodup ∧
    ∀ e ∈ d.visible, IsPlainName e.facts.name

/-- Siblings in the display tree of a component tree are told apart by their labels. -/
structure ToldApart (o : Presentation) (c : Component) : Prop where
  /-- The children of whatever stands at a position have different labels. -/
  distinct : ∀ pos e, (c.present o).at? pos = some e → (e.children.map Display.label).Nodup
  /-- A component of the tree is presented as what stands there, and the names of the visible children
  of that component can be read back from the labels. -/
  names : ∀ pos e, (c.present o).at? pos = some e → ∃ d ∈ c.nodes, e = d.present o ∧
    (e.children.map fun x => nameIn x.label).Perm (d.visible.map fun x => x.facts.name)

/-- Where containers are not hidden a component is shown under its own label. -/
theorem label_present (ho : o.hideContainers = false) (c : Component) :
    (c.present o).label = c.facts.label ++ c.facts.labelEnd := by
  obtain ⟨f, cs⟩ := c
  have hdisplay : ∀ label ds, (display label ds).label = label := by
    intro label ds
    cases ds <;> rfl
  rw [present_node ho, hdisplay, List.append_nil, facts_node]

/-- What stands in a display tree is what a component of the tree is presented as, if no container
gives way. -/
theorem exists_of_at?_present {pos : List Nat} {e : Display} (ho : o.hideContainers = false)
    (h : (c.present o).at? pos = some e) : ∃ d ∈ c.nodes, e = d.present o := by
  obtain ⟨n, src, origin, hn⟩ := at?_present_eq_some_iff.1 h
  obtain ⟨way, t, target, -, hsrc, -⟩ := origin.exists_target
  obtain rfl := target.eq_self ho
  exact ⟨t, mem_nodes_of_at? hsrc, shows_iff.1 hn⟩

/-- The labels below a component are those of its visible children, in another order. -/
theorem map_nameIn_perm (ho : o.hideContainers = false)
    (hplain : ∀ e ∈ d.visible, IsPlainName e.facts.name) :
    ((d.present o).children.map fun x => nameIn x.label).Perm
      (d.visible.map fun x => x.facts.name) := by
  have horder := showsInOrder_shownInOrder d
  have hback : ((d.present o).children.map fun x => nameIn x.label) =
      (d.shownInOrder.map Prod.fst).map fun x => x.facts.name := by
    rw [(horder.siblings ho).children_eq, List.map_map, List.map_map]
    refine List.map_congr_left fun p hp => ?_
    have hvisible : p.1 ∈ d.visible := horder.map_fst_perm.mem_iff.1 (List.mem_map_of_mem hp)
    show nameIn (p.1.present o).label = p.1.facts.name
    rw [label_present ho, Facts.nameIn_label (hplain p.1 hvisible)]
  rw [hback]
  exact horder.map_fst_perm.map _

/-- Siblings of different names are told apart by their labels. -/
theorem DistinctNames.toldApart (ho : o.hideContainers = false) (h : c.DistinctNames) :
    c.ToldApart o where
  distinct pos e he := by
    obtain ⟨d, hd, rfl⟩ := exists_of_at?_present ho he
    -- Labels are different because the names that can be read back from them are.
    refine List.Nodup.of_map nameIn ?_
    rw [List.map_map]
    exact (map_nameIn_perm ho (h d hd).2).nodup_iff.2 (h d hd).1
  names pos e he := by
    obtain ⟨d, hd, rfl⟩ := exists_of_at?_present ho he
    exact ⟨d, hd, rfl, map_nameIn_perm ho (h d hd).2⟩

end Component

/-! ### Walks -/

/-- The names that the modules in the files of a walker import things by have no slashes and no
spaces. -/
def Walker.ImportsPlainNames (w : Walker) : Prop :=
  ∀ (p : Path) bytes text m, w.read p.text = .ok bytes → decode bytes = .ok text →
    w.parse (unixLines text) = .ok m → ∀ b ∈ m.imports, IsPlainName b.localName

section Walk

variable {w : Walker} {root : Path} {t : Walked}

/-- What is read is in a regular file. -/
theorem Host.exists_file_of_read {h : Host} {text : Text} {bytes : List UInt8}
    (hread : h.read text = .ok bytes) : ∃ l ∈ h.disk.files, h.disk.bytes? l = some bytes := by
  rw [Host.read, Disk.read] at hread
  cases hfind : h.disk.find h.cwd text with
  | error t => simp [hfind] at hread
  | ok r =>
    obtain ⟨l, _ | (found | _ | target)⟩ := r
    · simp [hfind] at hread
    · have hbytes : h.disk.bytes? l = some found := by
        rw [Disk.bytes?, Disk.entry?_of_find hfind]
      have hfound : found = bytes := by
        simp only [hfind] at hread
        split at hread
        · exact Except.ok.inj hread
        · cases hread
      exact ⟨l, Disk.mem_files (by rw [hbytes]; rfl), hfound ▸ hbytes⟩
    · simp [hfind] at hread
    · simp [hfind] at hread

/-- To look at the regular files is enough. -/
theorem Walker.importsPlainNames_of_files
    (h : ∀ l ∈ w.disk.files, ∀ bytes ∈ w.disk.bytes? l, ∀ text ∈ (decode bytes).toOption,
      ∀ m ∈ (w.parse (unixLines text)).toOption, ∀ b ∈ m.imports, IsPlainName b.localName) :
    w.ImportsPlainNames := by
  intro p bytes text m hread htext hm
  obtain ⟨l, hl, hbytes⟩ := Host.exists_file_of_read hread
  exact h l hl bytes hbytes text (by rw [htext]; rfl) m (by rw [hm]; rfl)

/-- **Names in walks.** In every tree that a walk finds siblings have different names. -/
theorem walk_distinctNames (hplain : w.ImportsPlainNames) (h : w.walk root = .ok t) :
    t.root.DistinctNames := by
  intro c hc
  obtain ⟨above, hb⟩ := Component.mem_nodes_iff.1 hc
  have hsub : c.visible.Sublist c.children := List.filter_sublist
  by_cases hscanned : c.facts.status = .scanned
  · obtain ⟨m, ⟨l, bytes, text, -, hread, htext, hm⟩, hrendered⟩ := branch_renderedAs h hb hscanned
    refine ⟨hrendered.distinct.sublist (hsub.map _), fun e he => ?_⟩
    obtain ⟨b, hfind, hname, -, -⟩ := hrendered.imported e (hsub.subset he)
    exact hname ▸ hplain l bytes text m hread htext hm b (List.mem_of_find?_eq_some hfind)
  · -- What was not opened renders nothing.
    have hnone : c.visible = [] := by
      rw [List.eq_nil_iff_forall_not_mem]
      intro e he
      obtain ⟨l, ls, hl⟩ := branch_onWay_of_mem h hb (hsub.subset he)
      exact hscanned hl.status
    rw [hnone]
    exact ⟨List.nodup_nil, by simp⟩

end Walk

namespace Component

/-- **Labels.** If no container gives way, siblings in a display tree are told apart by their labels: in
that of any tree whose siblings have different names, and in that of any walk of files that import
things by names without slashes and spaces. -/
theorem present_toldApart (o : Presentation) (ho : o.hideContainers = false) :
    (∀ c : Component, c.DistinctNames → c.ToldApart o) ∧
      ∀ (w : Walker) (root : Path) (t : Walked),
        w.ImportsPlainNames → w.walk root = .ok t → t.root.ToldApart o :=
  ⟨fun _ => DistinctNames.toldApart ho, fun _ _ _ hplain h =>
    (walk_distinctNames hplain h).toldApart ho⟩

/-- Siblings are told apart in a page, and in a project with a menu that renders itself. -/
theorem menuProject_toldApart :
    ({} : Presentation).hideContainers = false ∧
      foundPage.DistinctNames ∧ foundPage.ToldApart {} ∧
      menuProject.ImportsPlainNames ∧
      ∃ t, menuProject.walk (Path.ofText "R") = .ok t ∧ t.root.ToldApart {} := by
  have hpage : foundPage.DistinctNames := by
    rw [DistinctNames, nodes_eq_preorder]
    decide +kernel
  have hplain : menuProject.ImportsPlainNames :=
    Walker.importsPlainNames_of_files (by decide +kernel)
  obtain ⟨t, ht, -⟩ := menuProject.walk_root
  obtain ⟨htree, hwalk⟩ := present_toldApart {} rfl
  exact ⟨rfl, hpage, htree foundPage hpage, hplain, t, ht, hwalk _ _ t hplain ht⟩

end Component

end RenderTree
