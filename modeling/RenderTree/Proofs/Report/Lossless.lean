import RenderTree.Proofs.Json.RoundTrip
import RenderTree.Report

/-!
# Reports that are read back

Nothing of a tree is lost where it is reported as JSON: reading the report gives the tree again.

* `Display.plain_toJson` — the value of a tree is one that is read back from its text.
* `Display.ofJson?_toJson` — the value of a tree stands for the tree.
* `Report.render_json_lossless` — a report is read as the tree, and different trees have different
  reports.
-/

namespace RenderTree

open Display (MemberOrder)

namespace Display

/-! ### The values of trees -/

mutual
/-- There are no numbers in the value of a tree, and its objects have two different keys. -/
theorem plain_toJson (order : MemberOrder) : ∀ d : Display, (d.toJson order).Plain
  | leaf l => ⟨List.nodup_singleton labelKey, trivial, trivial⟩
  | branch l ds => by
    have hds := plainAll_toJsonAll order ds
    cases order with
    | labelFirst => exact ⟨show [labelKey, childrenKey].Nodup by decide, trivial, hds, trivial⟩
    | childrenFirst => exact ⟨show [childrenKey, labelKey].Nodup by decide, hds, trivial, trivial⟩

/-- Several trees are written without duplicate members. -/
theorem plainAll_toJsonAll (order : MemberOrder) : ∀ ds, Json.PlainAll (toJsonAll order ds)
  | [] => trivial
  | d :: ds => ⟨plain_toJson order d, plainAll_toJsonAll order ds⟩
end

mutual
/-- The value of a tree stands for the tree, whichever member of a branch comes first. -/
theorem ofJson?_toJson (order : MemberOrder) : ∀ d : Display, ofJson? (d.toJson order) = some d
  | leaf l => by rw [toJson, ofJson?, if_pos rfl]
  | branch l ds => by
    have hds := ofJsonAll?_toJsonAll order ds
    cases order with
    | labelFirst => rw [toJson, ofJson?, if_pos ⟨rfl, rfl⟩, hds, Option.map_some]
    | childrenFirst => rw [toJson, ofJson?, if_pos ⟨rfl, rfl⟩, hds, Option.map_some]

/-- Several trees are read back from what they are written as. -/
theorem ofJsonAll?_toJsonAll (order : MemberOrder) :
    ∀ ds, ofJsonAll? (toJsonAll order ds) = some ds
  | [] => by rw [toJsonAll, ofJsonAll?]
  | d :: ds => by
    rw [toJsonAll, ofJsonAll?, ofJson?_toJson order d, ofJsonAll?_toJsonAll order ds]
end

end Display

namespace Report

/-! ### Reports -/

/-- A report as JSON is read as the value of its tree. -/
theorem parse_render (d : Display) (order : MemberOrder) :
    Json.parse (render d .json order) = .ok (d.toJson order) :=
  Json.parse_render (d.plain_toJson order)

/-- **Reports are lossless.** Whatever the labels of a tree consist of and however deep it is
nested, its report as JSON is read as a value that stands for just this tree, with no children and
an empty list of children kept apart. So trees with the same report are the same. -/
theorem render_json_lossless (d : Display) (order : MemberOrder) :
    Json.parse (render d .json order) = .ok (d.toJson order) ∧
      Display.ofJson? (d.toJson order) = some d ∧
      ∀ e order', render e .json order' = render d .json order → e = d := by
  refine ⟨parse_render d order, d.ofJson?_toJson order, fun e order' h => ?_⟩
  have hvalue : e.toJson order' = d.toJson order := by
    have hread := parse_render e order'
    rw [h, parse_render d order] at hread
    exact (Except.ok.inj hread).symm
  have htree := e.ofJson?_toJson order'
  rw [hvalue, d.ofJson?_toJson order] at htree
  exact (Option.some.inj htree).symm

end Report

end RenderTree
