import RenderTree.Proofs.Display.Order
import RenderTree.Proofs.Display.Position

/-!
# What a display tree shows

A display tree is told by the component tree alone, without going through the recursion that makes
it: which component a label is of, what is added to it, what stands below it and in which order.

* `Component.GivesWay`, `Component.ShownAs` — the components that are replaced, and what each
  component is shown as.
* `Component.Shows` — a display tree shows a component tree, and `shows_iff`: only the presented one
  does.
* `Component.Origin` — where what stands at a position of a display tree is from.
* `Origin.prefix_iff` — origins lie below each other as what stands for them does.
* `present_depicts` — all that is said of a presented tree.
-/

namespace RenderTree

namespace Component

variable {o : Presentation} {c d t t' : Component} {way way' : List Nat} {i j : Nat}

/-! ### Containers that give way -/

/-- A component gives way if containers are to be hidden, the marker occurs in its name, and it has
children that are not hidden. -/
def GivesWay (o : Presentation) (c : Component) : Prop :=
  o.hideContainers = true ∧ o.containerMarker <:+: c.facts.name ∧
    ∃ d ∈ c.children, d.facts.hidden = false

/-- The child with a number is the first one that is not hidden. -/
def FirstVisible (c : Component) (i : Nat) (d : Component) : Prop :=
  c.children[i]? = some d ∧ d.facts.hidden = false ∧
    ∀ j < i, ∀ e, c.children[j]? = some e → e.facts.hidden = true

/-- There is only one first visible child. -/
theorem FirstVisible.unique {d' : Component} (h : c.FirstVisible i d) (h' : c.FirstVisible j d') :
    j = i ∧ d' = d := by
  obtain ⟨hi, hd, hbefore⟩ := h
  obtain ⟨hj, hd', hbefore'⟩ := h'
  rcases Nat.lt_trichotomy i j with hlt | rfl | hlt
  · rw [hbefore' i hlt d hi] at hd
    cases hd
  · exact ⟨rfl, Option.some.inj (hj.symm.trans hi)⟩
  · rw [hbefore j hlt d' hj] at hd'
    cases hd'

/-- The first visible child is a child. -/
theorem FirstVisible.mem (h : c.FirstVisible i d) : d ∈ c.children :=
  List.mem_of_getElem? h.1

/-- The search for a part of a text finds it exactly if it occurs. -/
theorem occursIn_iff (part cs : Text) : occursIn part cs = true ↔ part <:+: cs := by
  induction cs with
  | nil => rw [occursIn, List.isEmpty_iff, List.infix_nil]
  | cons c cs ih =>
    rw [occursIn, Bool.or_eq_true, List.isPrefixOf_iff_prefix, ih, List.infix_cons_iff]

/-- The first visible child is the first of the visible children. -/
theorem head?_visible_eq_some_iff : c.visible.head? = some d ↔ ∃ i, c.FirstVisible i d := by
  rw [visible, List.head?_filter, List.find?_eq_some_iff_getElem]
  constructor
  · rintro ⟨hd, i, hi, rfl, hbefore⟩
    refine ⟨i, List.getElem?_eq_getElem hi, by simpa [Facts.shown] using hd, fun j hj e he => ?_⟩
    obtain ⟨_, rfl⟩ := List.getElem?_eq_some_iff.1 he
    simpa [Facts.shown] using hbefore j hj
  · rintro ⟨i, hi, hd, hbefore⟩
    obtain ⟨hlt, rfl⟩ := List.getElem?_eq_some_iff.1 hi
    refine ⟨by simp [Facts.shown, hd], i, hlt, rfl, fun j hj => ?_⟩
    have hhidden := hbefore j hj _ (List.getElem?_eq_getElem (by omega))
    simp [Facts.shown, hhidden]

/-- What counts as a container. -/
theorem isContainer_iff {f : Facts} : isContainer o f = true ↔
    o.hideContainers = true ∧ o.containerMarker <:+: f.name := by
  rw [isContainer, Bool.and_eq_true, occursIn_iff]

/-- A component that gives way gives way to its first visible child. -/
theorem successor_eq_some_iff :
    c.successor o = some d ↔ c.GivesWay o ∧ ∃ i, c.FirstVisible i d := by
  rw [successor]
  split
  next h =>
    obtain ⟨hhide, hmarker⟩ := isContainer_iff.1 h
    rw [head?_visible_eq_some_iff]
    constructor
    · rintro ⟨i, hi⟩
      exact ⟨⟨hhide, hmarker, d, hi.mem, hi.2.1⟩, i, hi⟩
    · exact And.right
  next h =>
    rw [isContainer_iff] at h
    constructor
    · intro hnone
      cases hnone
    · rintro ⟨⟨hhide, hmarker, -⟩, -⟩
      exact absurd ⟨hhide, hmarker⟩ h

/-- A component has a successor exactly if it gives way to one. -/
theorem successor_eq_none_iff : c.successor o = none ↔ ¬ c.GivesWay o := by
  constructor
  · rintro hnone ⟨hhide, hmarker, d, hd, hshown⟩
    rw [successor, if_pos (isContainer_iff.2 ⟨hhide, hmarker⟩), List.head?_eq_none_iff] at hnone
    have hmem : d ∈ c.visible := List.mem_filter.2 ⟨hd, by simp [Facts.shown, hshown]⟩
    rw [hnone] at hmem
    cases hmem
  · intro h
    rw [Option.eq_none_iff_forall_ne_some]
    exact fun d hd => h (successor_eq_some_iff.1 hd).1

/-! ### Targets -/

/-- What a component is shown as, and the numbers of the children that lead there: a component that
gives way is shown as what its first visible child is shown as, and any other as itself. -/
inductive ShownAs (o : Presentation) : Component → List Nat → Component → Prop where
  | self {c : Component} (h : ¬ c.GivesWay o) : ShownAs o c [] c
  | step {c d t : Component} {i : Nat} {way : List Nat} (h : c.GivesWay o)
      (first : c.FirstVisible i d) (next : ShownAs o d way t) : ShownAs o c (i :: way) t

/-- A component is shown as something. -/
theorem exists_shownAs (o : Presentation) (c : Component) : ∃ way t, ShownAs o c way t := by
  induction c using tree_induction with
  | node f cs ih =>
    cases hs : (node f cs).successor o with
    | none => exact ⟨[], _, .self (successor_eq_none_iff.1 hs)⟩
    | some d =>
      obtain ⟨h, i, first⟩ := successor_eq_some_iff.1 hs
      obtain ⟨way, t, next⟩ := ih d first.mem
      exact ⟨i :: way, t, .step h first next⟩

/-- A component is shown as one thing only. -/
theorem ShownAs.unique (h : ShownAs o c way t) : ShownAs o c way' t' → way' = way ∧ t' = t := by
  induction h generalizing way' with
  | self h =>
    intro h'
    cases h' with
    | self => exact ⟨rfl, rfl⟩
    | step hway => exact absurd hway h
  | step h first _ ih =>
    intro h'
    cases h' with
    | self hway => exact absurd h hway
    | step _ first' next' =>
      obtain ⟨rfl, rfl⟩ := first.unique first'
      obtain ⟨rfl, rfl⟩ := ih next'
      exact ⟨rfl, rfl⟩

/-- What a component is shown as lies where the way leads. -/
theorem ShownAs.at? (h : ShownAs o c way t) : c.at? way = some t := by
  induction h with
  | self => rfl
  | step _ first _ ih => rw [Component.at?_cons, first.1, Option.bind_some, ih]

/-- Only a hidden component that does not give way is shown as a hidden one. -/
theorem ShownAs.eq_nil_of_hidden (h : ShownAs o c way t) (ht : t.facts.hidden = true) :
    way = [] := by
  induction h with
  | self => rfl
  | step _ first next ih =>
    obtain rfl := ih ht
    cases next
    rw [first.2.1] at ht
    cases ht

/-! ### Labels and children -/

/-- The label that a component is shown with in place of one that lies some steps above it. -/
def labelAs (o : Presentation) (t : Component) (steps : Nat) : Text :=
  t.facts.label ++ List.flatten (List.replicate steps o.containerSuffix) ++
    if t.facts.status = .cycle then cycleSuffix else []

/-- A component is presented under the label of what it is shown as, with a suffix for every step on
the way. -/
theorem presentAs_of_shownAs (h : ShownAs o c way t) : ∀ marks, c.presentAs o marks =
    display (t.facts.label ++
        (marks ++ List.flatten (List.replicate way.length o.containerSuffix)) ++ t.facts.labelEnd)
      (t.shownInOrder.map fun p => p.1.present o) := by
  induction h with
  | @self c h =>
    intro marks
    rw [presentAs_eq, successor_eq_none_iff.2 h]
    simp only [map_sortByKey_visible, List.length_nil, List.replicate_zero, List.flatten_nil,
      List.append_nil]
    rfl
  | @step c d t i way h first _ ih =>
    intro marks
    rw [presentAs_eq, successor_eq_some_iff.2 ⟨h, i, first⟩]
    simp only [ih, List.length_cons, List.replicate_succ, List.flatten_cons, List.append_assoc]

/-- **Presenting a component.** It is shown with the label and the visible children of what it is
shown as. -/
theorem present_eq (h : ShownAs o c way t) : c.present o =
    display (t.labelAs o way.length) (t.shownInOrder.map fun p => p.1.present o) := by
  have hend : t.facts.labelEnd = if t.facts.status = .cycle then cycleSuffix else [] := by
    simp [Facts.labelEnd]
  rw [present, presentAs_of_shownAs h, labelAs, hend, List.nil_append]

/-- The trees below a label are those that were put there. -/
theorem children_display (label : Text) (ds : List Display) :
    (display label ds).children = ds := by
  cases ds <;> rfl

/-- A display tree shows a component tree: its label is that of what the component is shown as, and
its children show all visible children of that, one each and in order. It is a leaf exactly if there
are none. -/
inductive Shows (o : Presentation) : Component → Display → Prop where
  | leaf {c t : Component} {way : List Nat} (target : ShownAs o c way t)
      (hidden : ∀ d ∈ t.children, d.facts.hidden = true) :
      Shows o c (.leaf (t.labelAs o way.length))
  | branch {c t : Component} {way : List Nat} {ps : List (Component × Nat)} {ds : List Display}
      (target : ShownAs o c way t) (order : t.ShowsInOrder ps) (visible : ps ≠ [])
      (length : ds.length = ps.length)
      (below : ∀ (k : Nat) p e, ps[k]? = some p → ds[k]? = some e → Shows o p.1 e) :
      Shows o c (.branch (t.labelAs o way.length) ds)

/-- What is presented shows a component if that holds below the component that it is shown as. -/
theorem shows_present_of_below (h : ShownAs o c way t)
    (hbelow : ∀ d ∈ t.children, Shows o d (d.present o)) : Shows o c (c.present o) := by
  have horder := showsInOrder_shownInOrder t
  rw [present_eq h]
  by_cases hnil : t.shownInOrder = []
  · rw [hnil]
    exact .leaf h (shownInOrder_eq_nil_iff.1 hnil)
  · rw [display, if_neg (by simpa using hnil)]
    refine .branch h horder hnil (List.length_map ..) fun k p e hp he => ?_
    rw [List.getElem?_map, hp, Option.map_some, Option.some.injEq] at he
    subst he
    exact hbelow p.1 (List.mem_of_getElem? (horder.getElem?_eq hp).1)

/-- The display tree of a component shows it, and so it is below all that it is shown as. -/
theorem shows_present_and_below (o : Presentation) (c : Component) :
    Shows o c (c.present o) ∧
      ∀ {way t}, ShownAs o c way t → ∀ d ∈ t.children, Shows o d (d.present o) := by
  induction c using tree_induction with
  | node f cs ih =>
    -- What the component is shown as can be the component or lie below one of its children.
    have hbelow : ∀ {way t}, ShownAs o (node f cs) way t →
        ∀ d ∈ t.children, Shows o d (d.present o) := by
      intro way t ht d hd
      cases ht with
      | self => exact (ih d hd).1
      | step _ first next => exact (ih _ first.mem).2 next d hd
    obtain ⟨way, t, ht⟩ := exists_shownAs o (node f cs)
    exact ⟨shows_present_of_below ht (hbelow ht), hbelow⟩

/-- Nothing else shows a component. -/
theorem Shows.eq_present {e : Display} (h : Shows o c e) : e = c.present o := by
  induction h with
  | @leaf c t way target hidden =>
    rw [present_eq target, shownInOrder_eq_nil_iff.2 hidden]
    rfl
  | @branch c t way ps ds target order visible length below ih =>
    have hds : ds = ps.map fun p => p.1.present o := by
      apply List.ext_getElem (by simpa using length)
      intro k hk hk'
      rw [List.length_map] at hk'
      rw [List.getElem_map]
      exact ih k _ _ (List.getElem?_eq_getElem hk') (List.getElem?_eq_getElem hk)
    rw [present_eq target, ← showsInOrder_iff.1 order, ← hds, display, if_neg]
    rw [List.isEmpty_iff, hds, List.map_eq_nil_iff]
    exact visible

/-- **What shows a component.** The display tree of a component shows it, and nothing else does. -/
theorem shows_iff {e : Display} : Shows o c e ↔ e = c.present o := by
  constructor
  · exact Shows.eq_present
  · rintro rfl
    exact (shows_present_and_below o c).1

/-! ### Origins -/

/-- Where what stands at a position of a display tree is from: it shows a component, and this is
shown as the one at another position of the component tree. What stands at the root shows the root;
what is below a child of it is from below the visible child of that number. -/
inductive Origin (o : Presentation) :
    Component → List Nat → Component → List Nat → Prop where
  | root {c t : Component} {way : List Nat} (target : ShownAs o c way t) : Origin o c [] c way
  | child {c t d n : Component} {way pos src : List Nat} {ps : List (Component × Nat)} {k j : Nat}
      (target : ShownAs o c way t) (order : t.ShowsInOrder ps) (number : ps[k]? = some (d, j))
      (next : Origin o d pos n src) : Origin o c (k :: pos) n (way ++ j :: src)

/-- The positions of a display tree have origins, and what stands there shows these. -/
theorem at?_present_eq_some_iff {pos : List Nat} {e : Display} :
    (c.present o).at? pos = some e ↔ ∃ n src, Origin o c pos n src ∧ Shows o n e := by
  constructor
  · -- Down the display tree: a child of it is a shown component, of which the rest is known.
    intro h
    induction pos generalizing c with
    | nil =>
      obtain ⟨way, t, target⟩ := exists_shownAs o c
      exact ⟨c, way, .root target, shows_iff.2 (Option.some.inj h).symm⟩
    | cons k pos ih =>
      obtain ⟨way, t, target⟩ := exists_shownAs o c
      rw [Display.at?_cons, present_eq target, children_display, List.getElem?_map] at h
      obtain ⟨_, hk, hpos⟩ := Option.bind_eq_some_iff.1 h
      obtain ⟨⟨d, j⟩, hp, rfl⟩ := Option.map_eq_some_iff.1 hk
      obtain ⟨n, src, next, hn⟩ := ih hpos
      exact ⟨n, way ++ j :: src, .child target (showsInOrder_shownInOrder t) hp next, hn⟩
  · -- From the component tree: the origin is followed step by step.
    rintro ⟨n, src, h, hn⟩
    obtain rfl := shows_iff.1 hn
    induction h with
    | root => rfl
    | child target order number _ ih =>
      rw [showsInOrder_iff.1 order] at number
      rw [Display.at?_cons, present_eq target, children_display, List.getElem?_map, number]
      exact ih (shows_iff.2 rfl)

/-- What stands at a position other than the root is shown as one that is not hidden. -/
theorem Origin.exists_target {pos src : List Nat} {n : Component} (h : Origin o c pos n src) :
    ∃ way t, ShownAs o n way t ∧ way <:+ src ∧ c.at? src = some t ∧
      (t.facts.hidden = true → pos = [] ∧ src = []) := by
  induction h with
  | @root c t way target =>
    exact ⟨way, t, target, List.suffix_rfl, target.at?, fun ht => ⟨rfl, target.eq_nil_of_hidden ht⟩⟩
  | @child c u d n way₀ pos src ps k j target₀ order number next ih =>
    obtain ⟨way, t, target, hway, hsrc, ht⟩ := ih
    obtain ⟨hj, hd⟩ := order.getElem?_eq number
    refine ⟨way, t, target, ?_, ?_, fun hhidden => ?_⟩
    · exact hway.trans ((List.suffix_cons j src).trans (List.suffix_append way₀ _))
    · rw [at?_append, target₀.at?, Option.bind_some, at?_cons, hj, Option.bind_some, hsrc]
    · -- Otherwise it would be the child itself, which is visible.
      obtain ⟨-, rfl⟩ := ht hhidden
      rw [at?_nil, Option.some.injEq] at hsrc
      rw [hsrc, hhidden] at hd
      cases hd

/-- All that a display tree shows is from the component that its root is shown as, or from below. -/
theorem Origin.way_prefix {pos src : List Nat} {n : Component} (h : Origin o c pos n src)
    (target : ShownAs o c way t) : way <+: src := by
  cases h with
  | root target' =>
    obtain ⟨rfl, -⟩ := target.unique target'
    exact List.prefix_rfl
  | child target' =>
    obtain ⟨rfl, -⟩ := target.unique target'
    exact List.prefix_append ..

/-- **Ancestors.** One of two positions leads on to the other exactly if its origin does. -/
theorem Origin.prefix_iff {pos pos' src src' : List Nat} {n n' : Component}
    (h : Origin o c pos n src) (h' : Origin o c pos' n' src') :
    src <+: src' ↔ pos <+: pos' := by
  induction h generalizing pos' src' with
  | root target => exact iff_of_true (h'.way_prefix target) List.nil_prefix
  | @child c t d n way pos src ps k j target order number next ih =>
    cases h' with
    | root target' =>
      obtain ⟨rfl, -⟩ := target.unique target'
      refine iff_of_false (fun hprefix => ?_) (fun hprefix => ?_)
      · have hlen := hprefix.length_le
        rw [List.length_append, List.length_cons] at hlen
        omega
      · exact List.cons_ne_nil _ _ (List.prefix_nil.1 hprefix)
    | @child _ t' d' _ way' pos' src' ps' k' j' target' order' number' next' =>
      obtain ⟨rfl, rfl⟩ := target.unique target'
      obtain rfl := order.unique order'
      rw [List.prefix_append_right_inj, List.cons_prefix_cons, List.cons_prefix_cons]
      -- A number is that of one child, and this stands at one place only.
      constructor
      · rintro ⟨rfl, hsrc⟩
        have hd : d = d' :=
          Option.some.inj ((order.getElem?_eq number).1.symm.trans (order.getElem?_eq number').1)
        subst hd
        have hk := (List.getElem?_eq_some_iff.1 number).1
        exact ⟨(List.getElem?_inj hk order.nodup).1 (number.trans number'.symm),
          (ih next').1 hsrc⟩
      · rintro ⟨rfl, hpos⟩
        obtain ⟨rfl, rfl⟩ := Prod.mk.inj (Option.some.inj (number.symm.trans number'))
        exact ⟨rfl, (ih next').2 hpos⟩

/-- What a label stands for, and where that is in the tree, is determined. -/
theorem Origin.unique {pos src src' : List Nat} {n n' : Component} (h : Origin o c pos n src)
    (h' : Origin o c pos n' src') : n' = n ∧ src' = src := by
  induction h generalizing src' with
  | root target =>
    cases h' with
    | root target' => exact ⟨rfl, (target.unique target').1⟩
  | child target order number _ ih =>
    cases h' with
    | child target' order' number' next' =>
      obtain ⟨rfl, rfl⟩ := target.unique target'
      obtain rfl := order.unique order'
      obtain ⟨rfl, rfl⟩ := Prod.mk.inj (Option.some.inj (number.symm.trans number'))
      obtain ⟨rfl, rfl⟩ := ih next'
      exact ⟨rfl, rfl⟩

/-- No component stands at two positions. -/
theorem Origin.injective {pos pos' src : List Nat} {n n' : Component} (h : Origin o c pos n src)
    (h' : Origin o c pos' n' src) : pos = pos' := by
  have hle := (h.prefix_iff h').1 List.prefix_rfl
  have hge := (h'.prefix_iff h).1 List.prefix_rfl
  exact hle.eq_of_length (Nat.le_antisymm hle.length_le hge.length_le)

/-- What is to be said of a display tree for it to depict a component tree. -/
structure Depicts (o : Presentation) (e : Display) (c : Component) : Prop where
  /-- The tree shows the component, and no other tree does. -/
  shows_iff : ∀ e', Shows o c e' ↔ e' = e
  /-- What stands at a position is what shows the component of its origin. -/
  at?_iff : ∀ pos e', e.at? pos = some e' ↔ ∃ n src, Origin o c pos n src ∧ Shows o n e'
  /-- There is one origin. -/
  unique : ∀ pos n src n' src', Origin o c pos n src → Origin o c pos n' src' → n' = n ∧ src' = src
  /-- The component of an origin is shown as the one at its position, some steps further down. This
  is not hidden unless it is the root, which then stands at the root. -/
  target : ∀ pos n src, Origin o c pos n src → ∃ way t, ShownAs o n way t ∧ way <:+ src ∧
    c.at? src = some t ∧ (t.facts.hidden = true → pos = [] ∧ src = [])
  /-- No component stands at two positions. -/
  injective : ∀ pos n pos' n' src, Origin o c pos n src → Origin o c pos' n' src → pos = pos'
  /-- One component stands above another exactly if it is above it. -/
  prefix_iff : ∀ pos n src pos' n' src', Origin o c pos n src → Origin o c pos' n' src' →
    (src <+: src' ↔ pos <+: pos')

/-- **Presentation.** Whatever marks containers and is added to labels, what a component tree is
presented as depicts it: containers give way to their first visible children, their labels tell how
often, hidden components are left out, and siblings are sorted. -/
theorem present_depicts (o : Presentation) (c : Component) : Depicts o (c.present o) c where
  shows_iff _ := shows_iff
  at?_iff _ _ := at?_present_eq_some_iff
  unique _ _ _ _ _ := Origin.unique
  target _ _ _ := Origin.exists_target
  injective _ _ _ _ _ := Origin.injective
  prefix_iff _ _ _ _ _ _ := Origin.prefix_iff

end Component

end RenderTree
