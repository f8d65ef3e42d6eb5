import Mathlib.Data.List.Basic

/-!
# Frames of a stream

A reader takes one item off the front of what has arrived, or waits. Draining takes items
for as long as there is one. The rules are about a sender that writes a sequence of frames
and a receiver that has got some prefix of them: the items drained are the first ones sent,
and what is left is the beginning of the next frame.
-/

/-- A reader of items off the front of a buffer; it makes progress. -/
structure Framing (β α : Type) where
  take : List β → Option (α × List β)
  progress : ∀ {buf a rest}, take buf = some (a, rest) → rest.length < buf.length

namespace Framing

variable {β α : Type} (fr : Framing β α)

/-- All items that can be taken, and what is left. -/
def drain (buf : List β) : List α × List β :=
  match _taken : fr.take buf with
  | none => ([], buf)
  | some (a, rest) => (a :: (drain rest).1, (drain rest).2)
termination_by buf.length
decreasing_by all_goals exact fr.progress _taken

/-- The bytes are taken as the item as soon as all of them are there, and not before. -/
structure Frames (a : α) (bytes : List β) : Prop where
  whole : ∀ rest, fr.take (bytes ++ rest) = some (a, rest)
  waits : ∀ part, part <+: bytes → part ≠ bytes → fr.take part = none

variable {fr} {buf rest : List β} {a : α}

theorem drain_of_none (h : fr.take buf = none) : fr.drain buf = ([], buf) := by
  rw [drain]
  split
  · rfl
  · rename_i htake
    rw [h] at htake
    cases htake

theorem drain_of_some (h : fr.take buf = some (a, rest)) :
    fr.drain buf = (a :: (fr.drain rest).1, (fr.drain rest).2) := by
  rw [drain]
  split
  · rename_i htake
    rw [h] at htake
    cases htake
  · rename_i htake
    rw [h] at htake
    obtain ⟨rfl, rfl⟩ := Prod.mk.inj (Option.some.inj htake)
    rfl

theorem take_nil : fr.take [] = none := by
  cases h : fr.take [] with
  | none => rfl
  | some taken => exact absurd (fr.progress h) (Nat.not_lt_zero _)

/-- A prefix of a first part and a second is a proper prefix of the first or goes on into
the second. -/
theorem cut_of_append {x y z : List β} (h : z <+: x ++ y) :
    (z <+: x ∧ z ≠ x) ∨ ∃ w, z = x ++ w ∧ w <+: y := by
  by_cases hlen : z.length < x.length
  · refine .inl ⟨List.prefix_of_prefix_length_le h (List.prefix_append x y) (Nat.le_of_lt hlen), ?_⟩
    rintro rfl
    exact Nat.lt_irrefl _ hlen
  · obtain ⟨w, rfl⟩ := List.prefix_of_prefix_length_le (List.prefix_append x y) h
      (Nat.le_of_not_lt hlen)
    exact .inr ⟨w, rfl, (List.prefix_append_right_inj x).mp h⟩

/-- What a receiver has drained from a whole stream. -/
theorem drain_flatten {items : List (α × List β)} (h : ∀ item ∈ items, fr.Frames item.1 item.2) :
    fr.drain (items.map Prod.snd).flatten = (items.map Prod.fst, []) := by
  induction items with
  | nil => exact drain_of_none take_nil
  | cons item items ih =>
      obtain ⟨hitem, hitems⟩ := List.forall_mem_cons.mp h
      rw [List.map_cons, List.flatten_cons, drain_of_some (hitem.whole _), ih hitems]
      rfl

/-- What a receiver has drained from any prefix of a stream of frames. -/
theorem drain_prefix {items : List (α × List β)} (h : ∀ item ∈ items, fr.Frames item.1 item.2)
    {received : List β} (hreceived : received <+: (items.map Prod.snd).flatten) :
    ∃ k ≤ items.length, (fr.drain received).1 = (items.take k).map Prod.fst ∧
      received = ((items.take k).map Prod.snd).flatten ++ (fr.drain received).2 ∧
      ∀ next, items[k]? = some next →
        (fr.drain received).2 <+: next.2 ∧ (fr.drain received).2 ≠ next.2 := by
  induction items generalizing received with
  | nil =>
      obtain rfl := List.prefix_nil.mp hreceived
      refine ⟨0, Nat.le_refl 0, ?_, ?_, by simp⟩
      · rw [drain_of_none take_nil]
        rfl
      · rw [drain_of_none take_nil]
        rfl
  | cons item items ih =>
      obtain ⟨hitem, hitems⟩ := List.forall_mem_cons.mp h
      rw [List.map_cons, List.flatten_cons] at hreceived
      obtain ⟨hpart, hne⟩ | ⟨more, rfl, hmore⟩ := cut_of_append hreceived
      · have hdrain := drain_of_none (hitem.waits received hpart hne)
        refine ⟨0, Nat.zero_le _, ?_, ?_, ?_⟩
        · rw [hdrain]
          rfl
        · rw [hdrain]
          rfl
        · intro next hnext
          obtain rfl := Option.some.inj hnext
          rw [hdrain]
          exact ⟨hpart, hne⟩
      · obtain ⟨k, hk, hdrained, hreceived, hnext⟩ := ih hitems hmore
        rw [drain_of_some (hitem.whole more)]
        refine ⟨k + 1, Nat.succ_le_succ hk, congrArg (item.1 :: ·) hdrained, ?_, hnext⟩
        rw [List.take_succ_cons, List.map_cons, List.flatten_cons, List.append_assoc, ← hreceived]

end Framing
