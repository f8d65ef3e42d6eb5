import Mathlib.Data.List.Basic

/-!
# Contracts for stateful programs that can fail

A program keeps the state it had reached when it fails, so a failure has a
postcondition of its own. `Contract P m Q E` says what holds after `m` from a state
with `P`: `Q` of the result when it returns, `E` of the error when it fails.

Besides the sequencing rules there are rules for the ways a caller can handle a failure
without propagating it at once: discarding the result altogether, turning a failure into
an absent result, and running a cleanup before the result is returned.
-/

/-- Programs over a state `σ` that return an `α` or fail with an `ε`. -/
abbrev Effect (ε σ α : Type) : Type := EStateM ε σ α

namespace Effect

variable {ε σ τ α β : Type}

/-- Every run from `P` returns with `Q` or fails with `E`. -/
def Contract (P : σ → Prop) (m : Effect ε σ α) (Q : α → σ → Prop) (E : ε → σ → Prop) : Prop :=
  ∀ s, P s →
    match m s with
    | .ok a s' => Q a s'
    | .error e s' => E e s'

/-- Run a program and drop its result, failed or not. -/
def ignore (m : Effect ε σ α) : Effect ε σ Unit := fun s =>
  match m s with
  | .ok _ s' => .ok () s'
  | .error _ s' => .ok () s'

/-- The result of a program, if it returns one; a failure is not propagated. -/
def optional (m : Effect ε σ α) : Effect ε σ (Option α) := fun s =>
  match m s with
  | .ok a s' => .ok (some a) s'
  | .error _ s' => .ok none s'

/-- Run `cleanup` after `m`, whatever `m` returned, and return that. -/
def andThenCleanup (m : Effect ε σ α) (cleanup : Effect ε σ Unit) : Effect ε σ α := fun s =>
  match m s with
  | .ok a s' =>
      match cleanup s' with
      | .ok _ s'' => .ok a s''
      | .error e s'' => .error e s''
  | .error e s' =>
      match cleanup s' with
      | .ok _ s'' => .error e s''
      | .error e' s'' => .error e' s''

/-- Run a program on the first component of a larger state. -/
def onFst (m : Effect ε σ α) : Effect ε (σ × τ) α := fun s =>
  match m s.1 with
  | .ok a s' => .ok a (s', s.2)
  | .error e s' => .error e (s', s.2)

/-- A sequence returns when both parts do. -/
theorem bind_ok_iff {m : Effect ε σ α} {f : α → Effect ε σ β} {s s'' : σ} {b : β} :
    (m >>= f) s = .ok b s'' ↔ ∃ a s', m s = .ok a s' ∧ f a s' = .ok b s'' := by
  show EStateM.bind m f s = .ok b s'' ↔ _
  rw [EStateM.bind]
  cases m s with
  | ok a s' => simp
  | error e s' => simp

theorem pure_ok_iff {a b : α} {s s' : σ} :
    (pure a : Effect ε σ α) s = .ok b s' ↔ a = b ∧ s = s' := by
  show EStateM.Result.ok a s = .ok b s' ↔ _
  rw [EStateM.Result.ok.injEq]

theorem bind_of_ok {m : Effect ε σ α} {f : α → Effect ε σ β} {s s' : σ} {a : α}
    (h : m s = .ok a s') : (m >>= f) s = f a s' := by
  show EStateM.bind m f s = f a s'
  rw [EStateM.bind, h]

theorem bind_of_error {m : Effect ε σ α} {f : α → Effect ε σ β} {s s' : σ} {e : ε}
    (h : m s = .error e s') : (m >>= f) s = .error e s' := by
  show EStateM.bind m f s = .error e s'
  rw [EStateM.bind, h]

/-- A discarded program always returns. -/
theorem ignore_returns (m : Effect ε σ α) (s : σ) : ∃ s', ignore m s = .ok () s' := by
  rw [ignore]
  cases m s with
  | ok a s' => exact ⟨s', rfl⟩
  | error e s' => exact ⟨s', rfl⟩

theorem andThenCleanup_of_ok {m : Effect ε σ α} {cleanup : Effect ε σ Unit} {s s' s'' : σ}
    {a : α} {u : Unit} (hm : m s = .ok a s') (hclean : cleanup s' = .ok u s'') :
    andThenCleanup m cleanup s = .ok a s'' := by
  rw [andThenCleanup, hm]
  simp only [hclean]

theorem onFst_of_ok {m : Effect ε σ α} {s : σ × τ} {s' : σ} {a : α} (h : m s.1 = .ok a s') :
    onFst m s = .ok a (s', s.2) := by
  rw [onFst, h]

theorem andThenCleanup_ok {m : Effect ε σ α} {cleanup : Effect ε σ Unit} {s s'' : σ} {a : α}
    (h : andThenCleanup m cleanup s = .ok a s'') : ∃ s', m s = .ok a s' := by
  rw [andThenCleanup] at h
  split at h
  · rename_i b s' hm
    split at h
    · obtain ⟨rfl, -⟩ := EStateM.Result.ok.inj h
      exact ⟨s', hm⟩
    · cases h
  · split at h <;> cases h

theorem onFst_ok {m : Effect ε σ α} {s s' : σ × τ} {a : α} (h : onFst m s = .ok a s') :
    m s.1 = .ok a s'.1 := by
  rw [onFst] at h
  split at h
  · rename_i b t hm
    obtain ⟨rfl, rfl⟩ := EStateM.Result.ok.inj h
    exact hm
  · cases h

/-- The program returns only where `p` holds. -/
def OnlyIf (p : Prop) (m : Effect ε σ α) : Prop := ∀ s a s', m s = .ok a s' → p

namespace OnlyIf

variable {p : Prop} {m : Effect ε σ α} {f : α → Effect ε σ β}

theorem first (h : OnlyIf p m) : OnlyIf p (m >>= f) := by
  intro s b s'' hrun
  obtain ⟨a, s', hm, -⟩ := bind_ok_iff.mp hrun
  exact h s a s' hm

end OnlyIf

namespace Contract

variable {P P' : σ → Prop} {Q Q' : α → σ → Prop} {E E' : ε → σ → Prop} {m : Effect ε σ α}

theorem consequence (h : Contract P m Q E) (pre : ∀ s, P' s → P s)
    (post : ∀ a s, Q a s → Q' a s) (fail : ∀ e s, E e s → E' e s) : Contract P' m Q' E' := by
  intro s hs
  have hm := h s (pre s hs)
  cases hrun : m s with
  | ok a s' =>
      rw [hrun] at hm
      exact post a s' hm
  | error e s' =>
      rw [hrun] at hm
      exact fail e s' hm

theorem mono_fail (h : Contract P m Q E) (fail : ∀ e s, E e s → E' e s) : Contract P m Q E' :=
  h.consequence (fun _ hp => hp) (fun _ _ hq => hq) fail

theorem pure {a : α} (h : ∀ s, P s → Q a s) : Contract P (Pure.pure a : Effect ε σ α) Q E :=
  fun s hs => h s hs

theorem bind {f : α → Effect ε σ β} {R : β → σ → Prop} (hm : Contract P m Q E)
    (hf : ∀ a, Contract (Q a) (f a) R E) : Contract P (m >>= f) R E := by
  intro s hs
  have hmid := hm s hs
  show match EStateM.bind m f s with
    | .ok a s' => R a s'
    | .error e s' => E e s'
  rw [EStateM.bind]
  cases hrun : m s with
  | ok a s' =>
      rw [hrun] at hmid
      exact hf a s' hmid
  | error e s' =>
      rw [hrun] at hmid
      exact hmid

/-- A fact that does not depend on the state moves out of the precondition. -/
theorem assume {p : Prop} (h : p → Contract P m Q E) : Contract (fun s => p ∧ P s) m Q E :=
  fun s hs => h hs.1 s hs.2

/-- What follows from the precondition may be used as a fact. -/
theorem derive {p : Prop} (hp : ∀ s, P s → p) (h : p → Contract P m Q E) : Contract P m Q E :=
  fun s hs => h (hp s hs) s hs

/-- An unknown of the precondition may be fixed before the run. -/
theorem unknown {ι : Sort*} {A : ι → σ → Prop} (h : ∀ i, Contract (A i) m Q E) :
    Contract (fun s => ∃ i, A i s) m Q E :=
  fun s ⟨i, hs⟩ => h i s hs

/-- A discarded program never fails; both its outcomes continue. -/
theorem ignore {R : Unit → σ → Prop} {F : ε → σ → Prop}
    (h : Contract P m (fun _ => R ()) (fun _ => R ())) : Contract P (Effect.ignore m) R F := by
  intro s hs
  have hm := h s hs
  rw [Effect.ignore]
  cases hrun : m s with
  | ok a s' =>
      rw [hrun] at hm
      exact hm
  | error e s' =>
      rw [hrun] at hm
      exact hm

theorem optional {R : Option α → σ → Prop} {F : ε → σ → Prop}
    (h : Contract P m (fun a => R (some a)) (fun _ => R none)) :
    Contract P (Effect.optional m) R F := by
  intro s hs
  have hm := h s hs
  rw [Effect.optional]
  cases hrun : m s with
  | ok a s' =>
      rw [hrun] at hm
      exact hm
  | error e s' =>
      rw [hrun] at hm
      exact hm

/-- A cleanup that does not fail runs after either outcome. -/
theorem andThenCleanup {cleanup : Effect ε σ Unit} {R : α → σ → Prop} {F : ε → σ → Prop}
    (hm : Contract P m Q E)
    (hok : ∀ a, Contract (Q a) cleanup (fun _ => R a) (fun _ _ => False))
    (hfail : ∀ e, Contract (E e) cleanup (fun _ => F e) (fun _ _ => False)) :
    Contract P (Effect.andThenCleanup m cleanup) R F := by
  intro s hs
  have hmid := hm s hs
  rw [Effect.andThenCleanup]
  cases hrun : m s with
  | ok a s' =>
      rw [hrun] at hmid
      have hend := hok a s' hmid
      cases hclean : cleanup s' with
      | ok _ s'' =>
          rw [hclean] at hend
          simp only [hclean]
          exact hend
      | error _ s'' =>
          rw [hclean] at hend
          exact hend.elim
  | error e s' =>
      rw [hrun] at hmid
      have hend := hfail e s' hmid
      cases hclean : cleanup s' with
      | ok _ s'' =>
          rw [hclean] at hend
          simp only [hclean]
          exact hend
      | error _ s'' =>
          rw [hclean] at hend
          exact hend.elim

/-- The other component is left alone. -/
theorem onFst {K : τ → Prop} (h : Contract P m Q E) :
    Contract (fun s : σ × τ => P s.1 ∧ K s.2) (Effect.onFst m) (fun a s => Q a s.1 ∧ K s.2)
      (fun e s => E e s.1 ∧ K s.2) := by
  rintro ⟨s, t⟩ ⟨hs, ht⟩
  have hm := h s hs
  rw [Effect.onFst]
  cases hrun : m s with
  | ok a s' =>
      rw [hrun] at hm
      exact ⟨hm, ht⟩
  | error e s' =>
      rw [hrun] at hm
      exact ⟨hm, ht⟩

/-- Nothing is asked of either outcome. -/
theorem trivial : Contract P m (fun _ _ => True) fun _ _ => True := by
  intro s _
  cases m s with
  | ok a s' => exact True.intro
  | error e s' => exact True.intro

theorem of_ok (h : Contract P m Q E) {s s' : σ} {a : α} (hs : P s) (hrun : m s = .ok a s') :
    Q a s' := by
  have hm := h s hs
  rwa [hrun] at hm

end Contract

end Effect
