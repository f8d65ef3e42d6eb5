import Mathlib.Data.List.Basic

/-!
# Programs that stop at the first error

Rules for `Except`: what a successful sequence, loop or accumulation says about
its parts. A loop over a list succeeds exactly when every iteration does, so a
proof about an early-return loop never has to mention the order of the tests.
-/

namespace Fallible

variable {ε α β : Type}

@[simp] theorem bind_ok_iff {m : Except ε α} {f : α → Except ε β} {y : β} :
    (m >>= f) = .ok y ↔ ∃ x, m = .ok x ∧ f x = .ok y := by
  cases m with
  | error e => simp [bind, Except.bind]
  | ok x => simp [bind, Except.bind]

theorem ok_bind {x : α} {f : α → Except ε β} : ((.ok x : Except ε α) >>= f) = f x := rfl

@[simp] theorem throw_ne_ok {e : ε} {x : α} : ((throw e : Except ε α) = .ok x) ↔ False := by
  constructor
  · intro h
    cases h
  · exact False.elim

@[simp] theorem pure_ok_iff {x y : α} : ((pure x : Except ε α) = .ok y) ↔ x = y := by
  constructor
  · intro h
    exact Except.ok.inj h
  · rintro rfl
    rfl

/-- An early return of an error is not taken exactly when its condition fails. -/
@[simp] theorem throw_if_ok_iff {c : Prop} [Decidable c] {e : ε} {x y : α} :
    (if c then (throw e : Except ε α) else pure x) = .ok y ↔ ¬c ∧ x = y := by
  split
  · rename_i hc
    simp [hc]
  · rename_i hc
    simp [hc]

/-- The same in front of the rest of a sequence. -/
@[simp] theorem throw_if_bind_ok_iff {c : Prop} [Decidable c] {e : ε} {f : α → Except ε β}
    {rest : Except ε β} {y : β} :
    (if c then (throw e : Except ε α) >>= f else rest) = .ok y ↔ ¬c ∧ rest = .ok y := by
  split
  · rename_i hc
    simp [hc]
  · rename_i hc
    simp [hc]

/-- The value of an option, or an error in its place. -/
def okOr (o : Option α) (e : ε) : Except ε α :=
  match o with
  | some x => pure x
  | none => throw e

@[simp] theorem okOr_ok_iff {o : Option α} {e : ε} {x : α} : okOr o e = .ok x ↔ o = some x := by
  cases o with
  | none => simp [okOr]
  | some y => simp [okOr]

@[simp] theorem pure_ne_error {x : α} {e : ε} : ((pure x : Except ε α) = .error e) ↔ False := by
  constructor
  · intro h
    cases h
  · exact False.elim

/-- An error of a sequence is an error of one of its parts. -/
theorem bind_error_iff {m : Except ε α} {f : α → Except ε β} {e : ε} :
    (m >>= f) = .error e ↔ m = .error e ∨ ∃ x, m = .ok x ∧ f x = .error e := by
  cases m with
  | error e' => simp [bind, Except.bind]
  | ok x => simp [bind, Except.bind]

theorem throw_if_bind_error_iff {c : Prop} [Decidable c] {e e' : ε} {f : α → Except ε β}
    {rest : Except ε β} :
    (if c then (throw e : Except ε α) >>= f else rest) = .error e' ↔
      (c ∧ e = e') ∨ (¬c ∧ rest = .error e') := by
  split
  · rename_i hc
    simp [hc, bind, Except.bind, throw, throwThe, MonadExceptOf.throw]
  · rename_i hc
    simp [hc]

theorem okOr_error_iff {o : Option α} {e e' : ε} :
    okOr o e = .error e' ↔ o = none ∧ e = e' := by
  cases o with
  | none => simp [okOr, throw, throwThe, MonadExceptOf.throw]
  | some y => simp [okOr, pure, Except.pure]

@[simp] theorem toOption_eq_some_iff {m : Except ε α} {x : α} :
    m.toOption = some x ↔ m = .ok x := by
  cases m with
  | error e => simp [Except.toOption]
  | ok y => simp [Except.toOption]

theorem map_ok_iff {m : Except ε α} {f : α → β} {y : β} :
    f <$> m = .ok y ↔ ∃ x, m = .ok x ∧ y = f x := by
  cases m with
  | error e => simp [Functor.map, Except.map]
  | ok x => simp [Functor.map, Except.map, eq_comm]

/-- Renaming the error does not change which results there are. -/
@[simp] theorem mapError_ok_iff {ε' : Type} {m : Except ε α} {f : ε → ε'} {x : α} :
    m.mapError f = .ok x ↔ m = .ok x := by
  cases m with
  | error e => simp [Except.mapError]
  | ok y => simp [Except.mapError]

/-- A loop without an accumulator succeeds exactly when every iteration does. -/
theorem forM_ok_iff {step : α → Except ε Unit} {items : List α} :
    forM items step = .ok () ↔ ∀ item ∈ items, step item = .ok () := by
  induction items with
  | nil => simp
  | cons item items ih =>
      simp only [List.forM_cons, bind_ok_iff, ih, List.mem_cons, forall_eq_or_imp]
      constructor
      · rintro ⟨_, hfirst, hrest⟩
        exact ⟨hfirst, hrest⟩
      · rintro ⟨hfirst, hrest⟩
        exact ⟨(), hfirst, hrest⟩

/-- A loop without an accumulator fails with the error of one of its iterations. -/
theorem forM_error_mem {step : α → Except ε Unit} {items : List α} {e : ε}
    (h : forM items step = .error e) : ∃ item ∈ items, step item = .error e := by
  induction items with
  | nil => cases h
  | cons item items ih =>
      rw [List.forM_cons, bind_error_iff] at h
      rcases h with hfirst | ⟨_, -, hrest⟩
      · exact ⟨item, List.mem_cons_self, hfirst⟩
      · obtain ⟨other, hmem, hother⟩ := ih hrest
        exact ⟨other, List.mem_cons_of_mem _ hmem, hother⟩

/-- A loop that appends one block per item succeeds exactly when every item has
a block, and then returns the blocks in order. -/
theorem foldlM_append_ok_iff {block : α → Except ε (List β)} {items : List α}
    {start finish : List β} :
    items.foldlM (fun acc item => do return acc ++ (← block item)) start = .ok finish ↔
      ∃ blocks, items.mapM block = .ok blocks ∧ finish = start ++ blocks.flatten := by
  induction items generalizing start with
  | nil =>
      simp only [List.foldlM_nil, List.mapM_nil, pure_ok_iff]
      constructor
      · rintro rfl
        exact ⟨[], rfl, by simp⟩
      · rintro ⟨_, rfl, rfl⟩
        simp
  | cons item items ih =>
      simp only [List.foldlM_cons, List.mapM_cons, bind_ok_iff, pure_ok_iff]
      constructor
      · rintro ⟨_, ⟨first, hfirst, rfl⟩, hrest⟩
        obtain ⟨blocks, hblocks, rfl⟩ := ih.mp hrest
        exact ⟨first :: blocks, ⟨first, hfirst, blocks, hblocks, rfl⟩, by simp⟩
      · rintro ⟨_, ⟨first, hfirst, blocks, hblocks, rfl⟩, rfl⟩
        exact ⟨start ++ first, ⟨first, hfirst, rfl⟩,
          ih.mpr ⟨blocks, hblocks, by simp⟩⟩

/-- A loop fails with an error of one of its steps. -/
theorem foldlM_error {step : β → α → Except ε β} {items : List α} {start : β} {e : ε}
    (h : items.foldlM step start = .error e) : ∃ acc item, step acc item = .error e := by
  induction items generalizing start with
  | nil => cases h
  | cons item items ih =>
      rw [List.foldlM_cons, bind_error_iff] at h
      obtain hfirst | ⟨acc, -, hrest⟩ := h
      · exact ⟨start, item, hfirst⟩
      · exact ih hrest

/-- A loop over the indices of a part of a list goes through its elements in order. -/
theorem foldlM_indices {get : List α → Nat → Except ε α}
    (hget : ∀ before x after, get (before ++ x :: after) before.length = .ok x)
    (f : β → α → β) (before items after : List α) (acc : β) :
    (List.range' before.length items.length).foldlM
        (fun acc i => do return f acc (← get (before ++ (items ++ after)) i)) acc =
      .ok (items.foldl f acc) := by
  induction items generalizing before acc with
  | nil => rfl
  | cons x items ih =>
      have hstep := ih (before ++ [x]) (f acc x)
      rw [List.length_append, List.length_singleton, List.append_assoc, List.singleton_append]
        at hstep
      rw [List.length_cons, List.range'_succ, List.foldlM_cons, List.cons_append, hget, ok_bind]
      exact hstep

/-- A search through items that all succeed is the search through their results. -/
theorem findSomeM?_of_ok {f : α → Except ε (Option β)} {g : α → Option β} {items : List α}
    (h : ∀ item ∈ items, f item = .ok (g item)) :
    items.findSomeM? f = .ok (items.findSome? g) := by
  induction items with
  | nil => rfl
  | cons item items ih =>
      have hrest := ih fun other hother => h other (List.mem_cons_of_mem _ hother)
      rw [List.findSomeM?, h item List.mem_cons_self, ok_bind, List.findSome?_cons]
      cases g item with
      | none => exact hrest
      | some y => rfl

/-- A fallible map succeeds with `f` exactly when every item succeeds with `f`. -/
theorem mapM_ok_map_iff {g : α → Except ε β} {f : α → β} {items : List α} :
    items.mapM g = .ok (items.map f) ↔ ∀ item ∈ items, g item = .ok (f item) := by
  induction items with
  | nil => simp
  | cons item items ih =>
      simp only [List.mapM_cons, bind_ok_iff, pure_ok_iff, List.map_cons, List.cons.injEq,
        List.mem_cons, forall_eq_or_imp, ← ih]
      constructor
      · rintro ⟨x, hx, xs, hxs, rfl, rfl⟩
        exact ⟨hx, hxs⟩
      · rintro ⟨hx, hxs⟩
        exact ⟨_, hx, _, hxs, rfl, rfl⟩

/-- The results of a successful map, item by item. -/
theorem mapM_ok_mem {g : α → Except ε β} {items : List α} {results : List β}
    (h : items.mapM g = .ok results) : ∀ item ∈ items, ∃ result, g item = .ok result := by
  induction items generalizing results with
  | nil => simp
  | cons item items ih =>
      simp only [List.mapM_cons, bind_ok_iff, pure_ok_iff] at h
      obtain ⟨x, hx, xs, hxs, rfl⟩ := h
      intro other hmem
      rcases List.mem_cons.mp hmem with rfl | hmem
      · exact ⟨x, hx⟩
      · exact ih hxs other hmem

end Fallible
