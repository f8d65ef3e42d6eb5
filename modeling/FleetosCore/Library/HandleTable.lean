import Mathlib.Data.List.Nodup

/-!
# Tables of loaded resources

A finite table from handles to values. A handle is issued by a counter and never
issued again, so a handle that was freed stays invalid. That handles are distinct and
below the counter is part of the table.

The order of the entries is the order in which they were loaded. Loading and then
freeing gives back the entries of the table before, whatever happened in between to
other entries. A program that loads and frees follows the table through the entries it
knows, which may be all of them or only some.
-/

structure HandleTable (α : Type) where
  entries : List (Nat × α)
  next : Nat
  fresh : ∀ e ∈ entries, e.1 < next
  nodup : (entries.map Prod.fst).Nodup

namespace HandleTable

variable {α : Type} {t : HandleTable α} {h k : Nat} {a b : α}

def empty : HandleTable α := ⟨[], 0, by simp, by simp⟩

/-- The value loaded at a handle. -/
def lookup (t : HandleTable α) (h : Nat) : Option α :=
  (t.entries.find? fun e => e.1 = h).map Prod.snd

/-- Load a value at a new handle. -/
def alloc (t : HandleTable α) (a : α) : HandleTable α where
  entries := t.entries ++ [(t.next, a)]
  next := t.next + 1
  fresh := by
    intro e he
    rcases List.mem_append.mp he with he | he
    · exact Nat.lt_succ_of_lt (t.fresh e he)
    · rw [List.mem_singleton.mp he]
      exact Nat.lt_succ_self _
  nodup := by
    rw [List.map_append, List.nodup_append]
    refine ⟨t.nodup, by simp, ?_⟩
    intro x hx y hy
    obtain ⟨e, he, rfl⟩ := List.mem_map.mp hx
    have hy' : y = t.next := by simpa using hy
    have := t.fresh e he
    omega

/-- Free a handle; nothing happens to the others. -/
def free (t : HandleTable α) (h : Nat) : HandleTable α where
  entries := t.entries.filter fun e => e.1 ≠ h
  next := t.next
  fresh := fun e he => t.fresh e (List.mem_filter.mp he).1
  nodup := t.nodup.sublist (List.filter_sublist.map _)

@[simp] theorem alloc_entries : (t.alloc a).entries = t.entries ++ [(t.next, a)] := rfl

@[simp] theorem free_entries : (t.free h).entries = t.entries.filter fun e => e.1 ≠ h := rfl

theorem eq_of_mem (ha : (h, a) ∈ t.entries) (hb : (h, b) ∈ t.entries) : a = b :=
  (Prod.mk.inj (List.inj_on_of_nodup_map t.nodup ha hb rfl)).2

theorem lookup_eq_some_iff : t.lookup h = some a ↔ (h, a) ∈ t.entries := by
  rw [lookup, Option.map_eq_some_iff]
  constructor
  · rintro ⟨⟨k, b⟩, hfind, rfl⟩
    have hk : k = h := by simpa using List.find?_some hfind
    exact hk ▸ List.mem_of_find?_eq_some hfind
  · intro hmem
    cases hfind : t.entries.find? fun e => e.1 = h with
    | none => exact absurd hmem fun hm => by simpa using List.find?_eq_none.mp hfind _ hm
    | some e =>
        have hk : e.1 = h := by simpa using List.find?_some hfind
        refine ⟨e, rfl, eq_of_mem ?_ hmem⟩
        rw [← hk]
        exact List.mem_of_find?_eq_some hfind

theorem lookup_alloc_self : (t.alloc a).lookup t.next = some a := by
  rw [lookup_eq_some_iff, alloc_entries]
  exact List.mem_append_right _ List.mem_cons_self

theorem lookup_alloc_of_some (h' : t.lookup h = some a) : (t.alloc b).lookup h = some a := by
  rw [lookup_eq_some_iff, alloc_entries]
  exact List.mem_append_left _ (lookup_eq_some_iff.mp h')

/-! ## Entries without a handle -/

/-- The entries at other handles. -/
def without (h : Nat) (known : List (Nat × α)) : List (Nat × α) := known.filter fun e => e.1 ≠ h

variable {known before after : List (Nat × α)}

theorem mem_without {e : Nat × α} : e ∈ without h known ↔ e ∈ known ∧ e.1 ≠ h := by
  rw [without, List.mem_filter, decide_eq_true_eq]

theorem without_eq_self (hfresh : h ∉ known.map Prod.fst) : without h known = known := by
  rw [without, List.filter_eq_self]
  intro e he
  simpa using fun heq : e.1 = h => hfresh (heq ▸ List.mem_map_of_mem he)

/-- One entry is taken out and no other. -/
theorem without_of_split (hnodup : ((before ++ (h, a) :: after).map Prod.fst).Nodup) :
    without h (before ++ (h, a) :: after) = before ++ after := by
  rw [List.map_append, List.map_cons, List.nodup_append, List.nodup_cons] at hnodup
  obtain ⟨-, ⟨hafter, -⟩, hbefore⟩ := hnodup
  have hself := without_eq_self fun hm => hbefore h hm h List.mem_cons_self rfl
  rw [without] at hself ⊢
  rw [List.filter_append, List.filter_cons_of_neg (by simp), hself]
  exact congrArg _ (without_eq_self hafter)

theorem length_without (hnodup : (known.map Prod.fst).Nodup) (hmem : (h, a) ∈ known) :
    (without h known).length + 1 = known.length := by
  obtain ⟨before, after, rfl⟩ := List.append_of_mem hmem
  rw [without_of_split hnodup, List.length_append, List.length_append, List.length_cons]
  omega

/-! ## What is known of a table

The known entries stand in the table in their order; where the view is exact, nothing
else does. -/

structure Shows (t : HandleTable α) (exact : Prop) (known : List (Nat × α)) : Prop where
  sublist : known.Sublist t.entries
  entries_eq : exact → t.entries = known

namespace Shows

variable {exact : Prop}

theorem refl : t.Shows exact t.entries := ⟨.refl _, fun _ => rfl⟩

theorem alloc (hs : t.Shows exact known) :
    (t.alloc a).Shows exact (known ++ [(t.next, a)]) :=
  ⟨hs.sublist.append_right _, fun hexact => by rw [alloc_entries, hs.entries_eq hexact]⟩

theorem free (hs : t.Shows exact known) : (t.free h).Shows exact (without h known) :=
  ⟨hs.sublist.filter _, fun hexact => by rw [free_entries, hs.entries_eq hexact, without]⟩

/-- An entry that may or may not be there is no longer counted on. -/
theorem forget (hinexact : ¬ exact) (hs : t.Shows exact known) :
    t.Shows exact (without h known) :=
  ⟨List.filter_sublist.trans hs.sublist, fun hexact => absurd hexact hinexact⟩

theorem nodup (hs : t.Shows exact known) : (known.map Prod.fst).Nodup :=
  t.nodup.sublist (hs.sublist.map _)

theorem lookup_of_mem (hs : t.Shows exact known) (hmem : (h, a) ∈ known) :
    t.lookup h = some a :=
  lookup_eq_some_iff.mpr (hs.sublist.subset hmem)

theorem mem_of_lookup (hs : t.Shows exact known) (hexact : exact) (hl : t.lookup h = some a) :
    (h, a) ∈ known := by
  rw [← hs.entries_eq hexact]
  exact lookup_eq_some_iff.mp hl

/-- An entry's handle stands nowhere before it. -/
theorem fresh_of_append (hs : t.Shows exact (before ++ (h, a) :: after)) :
    h ∉ before.map Prod.fst := by
  have hnodup := hs.nodup
  rw [List.map_append, List.nodup_append] at hnodup
  exact fun hm => hnodup.2.2 h hm h (by simp) rfl

end Shows

end HandleTable
