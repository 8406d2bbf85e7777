import CallDiagram.Text.Order
import Mathlib.Data.List.Nodup

/-!
# Items in the order of their texts

* `sortBy_perm` — sorting moves the items only;
* `ascending_sortBy` — items with distinct texts are in ascending order of these;
* `sortBy_eq_of_perm` — which does not depend on the order before.
-/

namespace CallDiagram

variable {α : Type} {key : α → Text}

theorem sortBy_perm (key : α → Text) (items : List α) :
    (Text.sortBy key items).Perm items := List.mergeSort_perm items _

theorem ascending_sortBy {items : List α} (h : (items.map key).Nodup) :
    (Text.sortBy key items).Pairwise fun a b =>
      Text.precedes (key a) (key b) = true ∧ key a ≠ key b := by
  have hnodup := (((sortBy_perm key items).map key).nodup_iff).2 h
  refine List.Pairwise.and ?_ (List.pairwise_map.1 hnodup)
  apply List.pairwise_mergeSort
  · intro a b c
    exact Text.precedes_trans
  · intro a b
    exact Text.precedes_total (key a) (key b)

/-- Items with distinct texts are sorted alike, whatever order they are in. -/
theorem sortBy_eq_of_perm {items items' : List α} (hperm : items.Perm items')
    (h : (items.map key).Nodup) : Text.sortBy key items = Text.sortBy key items' := by
  have hsorted := ascending_sortBy h
  have hsorted' := ascending_sortBy ((hperm.map key).nodup_iff.1 h)
  refine List.Perm.eq_of_pairwise (fun a b _ _ hab hba => ?_) hsorted hsorted'
    ((sortBy_perm key items).trans (hperm.trans (sortBy_perm key items').symm))
  exact absurd (Text.precedes_antisymm hab.1 hba.1) hab.2

end CallDiagram
