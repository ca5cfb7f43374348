import RenderTree.Proofs.Source.Preorder
import RenderTree.Proofs.Text.Basic
import RenderTree.Source.Parse

/-!
# Faults

A text is at fault where its tree has a node that marks a fault. The search for the first such node goes
down only where there is one to find, and still finds what a look at all nodes in their order would. With
it reading a text never fails without a line, whatever trees a grammar gives, unless the dialect is one
that nobody knows.

* `Tree.nodes` — the nodes of a tree, each before those in it.
* `Tree.hasFault_eq`, `Tree.firstFault?_eq` — whether one of these marks a fault, and which is found.
* `Accepts` — a text whose tree has no fault; `Tree.IsFirstFault`: the first fault of a tree.
* `Reading` — the courses that reading a text can take.
* `parse_reads` — what is read, what is reported, and when.
-/

namespace RenderTree.Source

open RenderTree.Text

variable {tree : Script → Tree} {text : Array Char} {d : Dialect} {name : String}

namespace Tree

variable {t u : Tree} {ts us : List Tree}

/-! ### All nodes -/

mutual
/-- The nodes of a tree are the same wherever it lies. -/
theorem map_fst_preorder (above above' : List Tree) :
    (t : Tree) → (t.preorder above).map Prod.fst = (t.preorder above').map Prod.fst
  | node k r a b cs => by
    rw [preorder, preorder, List.map_cons, List.map_cons,
      map_fst_preorderOf _ (node k r a b cs :: above') cs]

theorem map_fst_preorderOf (above above' : List Tree) :
    (ts : List Tree) → (preorderOf above ts).map Prod.fst = (preorderOf above' ts).map Prod.fst
  | [] => rfl
  | t :: ts => by
    rw [preorderOf, preorderOf, List.map_append, List.map_append, map_fst_preorder above above' t,
      map_fst_preorderOf above above' ts]
end

/-- The nodes of a tree, each before those in it. -/
def nodes (t : Tree) : List Tree :=
  (t.preorder []).map Prod.fst

/-- The nodes of several trees. -/
def nodesOf (ts : List Tree) : List Tree :=
  (preorderOf [] ts).map Prod.fst

/-- The nodes of a tree are its root and those of the trees below. -/
theorem nodes_eq (t : Tree) : t.nodes = t :: nodesOf t.children := by
  rw [nodes, preorder_eq, List.map_cons, map_fst_preorderOf [t] []]
  rfl

@[simp] theorem nodesOf_nil : nodesOf [] = [] := rfl

/-- The nodes of several trees are those of the first and of the others. -/
theorem nodesOf_cons (t : Tree) (ts : List Tree) : nodesOf (t :: ts) = t.nodes ++ nodesOf ts := by
  rw [nodesOf, preorderOf, List.map_append]
  rfl

/-- The nodes of two lists of trees stand one behind the other. -/
theorem nodesOf_append (ts us : List Tree) : nodesOf (ts ++ us) = nodesOf ts ++ nodesOf us := by
  induction ts with
  | nil => rfl
  | cons t ts ih => rw [List.cons_append, nodesOf_cons, nodesOf_cons, ih, List.append_assoc]

/-! ### The first fault -/

mutual
/-- A tree has a fault if one of its nodes marks one. -/
theorem hasFault_eq : (t : Tree) → t.hasFault = t.nodes.any isFault
  | node k r a b cs => by
    rw [hasFault, anyFault_eq cs, nodes_eq, List.any_cons]
    rfl

theorem anyFault_eq : (ts : List Tree) → anyFault ts = (nodesOf ts).any isFault
  | [] => rfl
  | t :: ts => by
    rw [anyFault, hasFault_eq t, anyFault_eq ts, nodesOf_cons, List.any_append]
end

/-- **Search.** To go down only where there is a fault to find makes no difference to what is found. -/
theorem searchFault_eq (stack : List Tree) : searchFault stack = (nodesOf stack).find? isFault := by
  fun_induction searchFault stack with
  | case1 => rfl
  | case2 t stack hfault =>
    rw [nodesOf_cons, nodes_eq, List.cons_append, List.find?_cons_of_pos hfault]
  | case3 t stack hplain hfault ih =>
    rw [ih, nodesOf_append, nodesOf_cons, nodes_eq, List.cons_append,
      List.find?_cons_of_neg hplain]
  | case4 t stack hplain hsound ih =>
    have hnone : t.nodes.find? isFault = none := by
      rw [hasFault_eq, List.any_eq_true, not_exists] at hsound
      exact List.find?_eq_none.2 fun u hu hfault => hsound u ⟨hu, hfault⟩
    rw [ih, nodesOf_cons, List.find?_append, hnone, Option.none_or]

/-- The first node of a tree that marks a fault. -/
structure IsFirstFault (t u : Tree) : Prop where
  fault : u.isFault = true
  first : ∃ before after, t.nodes = before ++ u :: after ∧ ∀ v ∈ before, v.isFault = false

/-- The search for the first fault finds the first faulty node. -/
theorem firstFault?_eq (t : Tree) : t.firstFault? = t.nodes.find? isFault := by
  rw [firstFault?, searchFault_eq, nodesOf_cons, nodesOf_nil, List.append_nil]

/-- What the search finds is the first fault. -/
theorem firstFault?_eq_some_iff : t.firstFault? = some u ↔ t.IsFirstFault u := by
  rw [firstFault?_eq, List.find?_eq_some_iff_append]
  simp only [Bool.not_eq_true']
  exact ⟨fun ⟨hfault, hfirst⟩ => ⟨hfault, hfirst⟩, fun ⟨hfault, hfirst⟩ => ⟨hfault, hfirst⟩⟩

end Tree

/-! ### Dialects -/

namespace Dialect

/-- A dialect is found by its name. -/
theorem ofName?_name (d : Dialect) : ofName? d.name = some d := by
  cases d <;> decide

/-- A dialect is found by a name if that is its own. -/
theorem ofName?_eq_some_iff : ofName? name = some d ↔ d.name = name :=
  find?_name_eq_some_iff ofName?_name

/-- No dialect is found by a name that is none of theirs. -/
theorem ofName?_eq_none_iff : ofName? name = none ↔ ∀ d : Dialect, d.name ≠ name :=
  find?_name_eq_none_iff ofName?_name

/-- Dialects with the same name are the same. -/
theorem name_injective {d d' : Dialect} (h : d.name = d'.name) : d = d' :=
  name_injective_of_find? ofName?_name h

end Dialect

/-! ### Reading -/

/-- The trees of a grammar accept a text in a dialect: no node of its tree marks a fault. -/
def Accepts (tree : Script → Tree) (text : Array Char) (d : Dialect) : Prop :=
  ∀ t ∈ (tree ⟨text, d⟩).nodes, t.isFault = false

/-- A tree without faults is one that the grammar accepts. -/
theorem hasFault_eq_false_iff : (tree ⟨text, d⟩).hasFault = false ↔ Accepts tree text d := by
  rw [Tree.hasFault_eq, List.any_eq_false]
  simp only [Bool.not_eq_true]
  rfl

/-- A text that the grammar accepts is read as its tree. -/
theorem readIn_of_accepts (h : Accepts tree text d) :
    readIn tree text d = .ok ⟨text, d, tree ⟨text, d⟩⟩ := by
  have hsound := hasFault_eq_false_iff.2 h
  rw [readIn]
  exact if_neg (by rw [hsound]; exact Bool.false_ne_true)

/-- What is at fault has a first fault, and its line is reported. -/
theorem exists_readIn_eq_error (h : ¬ Accepts tree text d) :
    ∃ u, (tree ⟨text, d⟩).IsFirstFault u ∧
      readIn tree text d = .error (.fault (some (lineAt text u.start))) := by
  have hfault : (tree ⟨text, d⟩).hasFault = true :=
    Bool.of_not_eq_false (mt hasFault_eq_false_iff.1 h)
  obtain ⟨u, hu⟩ : ∃ u, (tree ⟨text, d⟩).firstFault? = some u := by
    rw [← Option.isSome_iff_exists, Tree.firstFault?_eq, List.find?_isSome, ← List.any_eq_true,
      ← Tree.hasFault_eq]
    exact hfault
  refine ⟨u, Tree.firstFault?_eq_some_iff.1 hu, ?_⟩
  rw [readIn]
  exact (if_pos hfault).trans (by rw [hu]; rfl)

/-- How a text is read in the dialect of a name. -/
inductive Reading (tree : Script → Tree) (text : Array Char) (name : String) :
    Except ReadError Module → Prop
  | asked {d : Dialect} (named : d.name = name) (accepts : Accepts tree text d) :
      Reading tree text name (.ok ⟨text, d, tree ⟨text, d⟩⟩)
  | fallback {d other : Dialect} (named : d.name = name) (rejects : ¬ Accepts tree text d)
      (next : d.fallback? = some other) (accepts : Accepts tree text other) :
      Reading tree text name (.ok ⟨text, other, tree ⟨text, other⟩⟩)
  | fault {d : Dialect} {u : Tree} {e : ReadError} (named : d.name = name)
      (rejects : ¬ Accepts tree text d)
      (next : ∀ other, d.fallback? = some other → ¬ Accepts tree text other)
      (first : (tree ⟨text, d⟩).IsFirstFault u) (line : e.line? = some (lineAt text u.start))
      (message : e.message = "Syntax error at line " ++ toString (lineAt text u.start)) :
      Reading tree text name (.error e)
  | unknown {e : ReadError} (unnamed : ∀ d : Dialect, d.name ≠ name) (line : e.line? = none)
      (message : e.message = "No parser configured for dialect: " ++ name) :
      Reading tree text name (.error e)

/-- What reading a text comes to, with the fallback of a dialect. -/
theorem reading_readWithFallback (named : d.name = name) :
    Reading tree text name (readWithFallback tree text d) := by
  rw [readWithFallback]
  by_cases hasked : Accepts tree text d
  · rw [readIn_of_accepts hasked]
    exact .asked named hasked
  · obtain ⟨u, hu, hread⟩ := exists_readIn_eq_error hasked
    rw [hread]
    cases hnext : d.fallback? with
    | none => exact .fault named hasked (by simp [hnext]) hu rfl rfl
    | some other =>
      dsimp only
      by_cases hother : Accepts tree text other
      · rw [readIn_of_accepts hother]
        exact .fallback named hasked hnext hother
      · obtain ⟨v, -, hread'⟩ := exists_readIn_eq_error hother
        rw [hread']
        -- The error that is kept is that of the dialect which was asked for.
        refine .fault named hasked (fun other' hother' => ?_) hu rfl rfl
        obtain rfl := Option.some.inj (hnext.symm.trans hother')
        exact hother

/-- What reading a text comes to, for a dialect by its name. -/
theorem reading_parse (tree : Script → Tree) (text name : String) :
    Reading tree text.toList.toArray name (parse text name tree) := by
  rw [parse]
  split
  next d hd => exact reading_readWithFallback (Dialect.ofName?_eq_some_iff.1 hd)
  next hnone => exact .unknown (Dialect.ofName?_eq_none_iff.1 hnone) rfl rfl

/-! ### What comes of reading -/

/-- What comes of reading a text in the dialect of a name, whatever trees there are. -/
structure Reads (tree : Script → Tree) (text : Array Char) (name : String)
    (r : Except ReadError Module) : Prop where
  /-- The text is read exactly if it is accepted in the dialect, or in that dialect's fallback. -/
  succeeds : (∃ m, r = .ok m) ↔ ∃ d : Dialect, d.name = name ∧
    (Accepts tree text d ∨ ∃ other, d.fallback? = some other ∧ Accepts tree text other)
  /-- All of a module comes from one tree, that of the dialect wherever it is accepted there. -/
  module : ∀ m, r = .ok m → ∃ d : Dialect, d.name = name ∧
    (m.dialect = d ∨ ¬ Accepts tree text d ∧ d.fallback? = some m.dialect) ∧
    Accepts tree text m.dialect ∧
    m.declarations = (tree ⟨text, m.dialect⟩).children.filter
      (fun t => t.kind != .comment && t.kind != .interpreterLine) ∧
    m.tokens = (tree ⟨text, m.dialect⟩).tokens text
  /-- The line that is reported is that of the first fault in the dialect. -/
  fault : ∀ e, r = .error e → ∀ d : Dialect, d.name = name →
    ∃ u, (tree ⟨text, d⟩).IsFirstFault u ∧ e.line? = some (lineAt text u.start) ∧
      e.message = "Syntax error at line " ++ toString (lineAt text u.start)
  /-- Only where the name is that of no dialect there is no line. -/
  unknown : ∀ e, r = .error e → (e.line? = none ↔ ∀ d : Dialect, d.name ≠ name) ∧
    (e.line? = none → e.message = "No parser configured for dialect: " ++ name)

/-- What reading a text can come to is all that is asked of it. -/
theorem Reading.reads {r : Except ReadError Module} (h : Reading tree text name r) :
    Reads tree text name r := by
  cases h with
  | asked named accepts =>
    refine ⟨iff_of_true ⟨_, rfl⟩ ⟨_, named, .inl accepts⟩, ?_, by rintro e ⟨⟩, by rintro e ⟨⟩⟩
    rintro m ⟨⟩
    exact ⟨_, named, .inl rfl, accepts, rfl, rfl⟩
  | fallback named rejects next accepts =>
    refine ⟨iff_of_true ⟨_, rfl⟩ ⟨_, named, .inr ⟨_, next, accepts⟩⟩, ?_, by rintro e ⟨⟩,
      by rintro e ⟨⟩⟩
    rintro m ⟨⟩
    exact ⟨_, named, .inr ⟨rejects, next⟩, accepts, rfl, rfl⟩
  | @fault d u e named rejects next first line message =>
    refine ⟨iff_of_false (by rintro ⟨m, ⟨⟩⟩) ?_, by rintro m ⟨⟩, ?_, ?_⟩
    · -- The name is that of one dialect, whose grammars have been tried.
      rintro ⟨d', named', haccepts⟩
      obtain rfl := Dialect.name_injective (named'.trans named.symm)
      rcases haccepts with haccepts | ⟨other, hnext, haccepts⟩
      · exact rejects haccepts
      · exact next other hnext haccepts
    · rintro e' ⟨⟩ d' named'
      obtain rfl := Dialect.name_injective (named'.trans named.symm)
      exact ⟨u, first, line, message⟩
    · rintro e' ⟨⟩
      have hline : e.line? ≠ none := by
        rw [line]
        exact Option.some_ne_none _
      exact ⟨iff_of_false hline fun hunnamed => hunnamed d named, fun h => absurd h hline⟩
  | unknown unnamed line message =>
    refine ⟨iff_of_false (by rintro ⟨m, ⟨⟩⟩) ?_, by rintro m ⟨⟩, ?_, ?_⟩
    · rintro ⟨d, named, -⟩
      exact unnamed d named
    · rintro e' ⟨⟩ d named
      exact absurd named (unnamed d)
    · rintro e' ⟨⟩
      exact ⟨iff_of_true line unnamed, fun _ => message⟩

/-- **Faults.** A text is read in the dialect of a name or in its fallback, all from one tree; where it
is read in neither, the first fault in the dialect of the name is reported with its line. -/
theorem parse_reads (tree : Script → Tree) (text name : String) :
    Reads tree text.toList.toArray name (parse text name tree) :=
  (reading_parse tree text name).reads

end RenderTree.Source
