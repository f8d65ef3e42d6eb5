import Mathlib.Data.List.Destutter
import Mathlib.Data.List.Sort

/-!
# Finite sets as sorted, joined lists

Sorting a list and then dropping every element that equals its left neighbour gives one
list for all lists with the same elements, whatever their order and repetitions. Which
sort is used does not matter: an antisymmetric order leaves it one result.

Joining such a list with a separator loses nothing as long as no element contains the
separator and none is empty. The second condition keeps the empty list apart from the
list of one empty element.
-/

namespace Canonical

section

variable {α : Type} (r : α → α → Prop) [DecidableRel r] [DecidableEq α]

/-- The sorted list with the first of every run of equal neighbours. -/
def canonical (l : List α) : List α := (l.insertionSort r).destutter (· ≠ ·)

variable {r} {l m : List α} [Std.Total r] [IsTrans α r] [Std.Antisymm r]

/-- In a sorted list equal elements are neighbours. -/
theorem canonical_eq_dedup (l : List α) : canonical r l = (l.insertionSort r).dedup :=
  (List.pairwise_insertionSort r l).destutter_eq_dedup

theorem mem_canonical {a : α} : a ∈ canonical r l ↔ a ∈ l := by
  rw [canonical_eq_dedup, List.mem_dedup, List.mem_insertionSort]

theorem nodup_canonical (l : List α) : (canonical r l).Nodup := by
  rw [canonical_eq_dedup]
  exact List.nodup_dedup _

theorem pairwise_canonical (l : List α) : (canonical r l).Pairwise r := by
  rw [canonical_eq_dedup]
  exact (List.pairwise_insertionSort r l).sublist (List.dedup_sublist _)

/-- The canonical list is a normal form for the set of elements. -/
theorem canonical_eq_iff : canonical r l = canonical r m ↔ ∀ a, a ∈ l ↔ a ∈ m := by
  constructor
  · intro h a
    rw [← mem_canonical (r := r), h, mem_canonical]
  · intro h
    have hperm : (canonical r l).Perm (canonical r m) := by
      rw [List.perm_ext_iff_of_nodup (nodup_canonical l) (nodup_canonical m)]
      intro a
      rw [mem_canonical, mem_canonical, h]
    exact List.Perm.eq_of_pairwise' (pairwise_canonical l) (pairwise_canonical m) hperm

end

section

variable {α : Type} {sep : α}

/-- Every element but the first follows a separator. -/
theorem intercalate_cons (x : List α) (items : List (List α)) :
    [sep].intercalate (x :: items) = x ++ items.flatMap fun y => sep :: y := by
  induction items generalizing x with
  | nil => simp
  | cons y items ih =>
      rw [List.intercalate_cons_cons, ih, List.flatMap_cons, List.append_assoc,
        List.singleton_append, List.cons_append]

theorem intercalate_eq_nil_iff {items : List (List α)} (h : ∀ x ∈ items, x ≠ []) :
    [sep].intercalate items = [] ↔ items = [] := by
  constructor
  · intro hnil
    cases items with
    | nil => rfl
    | cons x items =>
        rw [intercalate_cons] at hnil
        exact absurd (List.append_eq_nil_iff.mp hnil).1 (h x List.mem_cons_self)
  · rintro rfl
    rfl

/-- A joined list of non-empty elements free of the separator has one reading. -/
theorem intercalate_injective [DecidableEq α] {items items' : List (List α)}
    (h : ∀ x ∈ items, x ≠ [] ∧ sep ∉ x)
    (h' : ∀ x ∈ items', x ≠ [] ∧ sep ∉ x)
    (heq : [sep].intercalate items = [sep].intercalate items') : items = items' := by
  by_cases hnil : items = []
  · subst hnil
    exact ((intercalate_eq_nil_iff fun x hx => (h' x hx).1).mp heq.symm).symm
  · have hnil' : items' ≠ [] := by
      rintro rfl
      exact hnil ((intercalate_eq_nil_iff fun x hx => (h x hx).1).mp heq)
    rw [← List.splitOn_intercalate sep (fun x hx => (h x hx).2) hnil, heq,
      List.splitOn_intercalate sep (fun x hx => (h' x hx).2) hnil']

end

end Canonical
