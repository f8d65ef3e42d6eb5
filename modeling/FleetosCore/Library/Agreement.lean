import FleetosCore.Library.Effect

/-!
# Programs that answer alike

A caller sees of a program its answer, which is the result it returned or the error it
failed with, and not the state it leaves behind. `Agree P m n Q` relates two programs on
states of their own: from states related by `P` both return, with results and states
related by `Q`, or both fail with the same error.

The two programs are followed side by side. A step that only one of them takes is
skipped by its contract, provided it cannot fail.
-/

namespace Effect

variable {ε σ τ α β γ δ : Type}

/-- What the caller sees. -/
def answer : EStateM.Result ε σ α → Except ε α
  | .ok a _ => .ok a
  | .error e _ => .error e

/-- The state that is left behind. -/
def stateAfter : EStateM.Result ε σ α → σ
  | .ok _ s => s
  | .error _ s => s

/-- From related states both programs return, or both fail with one error. -/
def Agree (P : σ → τ → Prop) (m : Effect ε σ α) (n : Effect ε τ β)
    (Q : α → β → σ → τ → Prop) : Prop :=
  ∀ s t, P s t →
    (∃ a b s' t', m s = .ok a s' ∧ n t = .ok b t' ∧ Q a b s' t') ∨
    ∃ e s' t', m s = .error e s' ∧ n t = .error e t'

namespace Contract

variable {P : σ → Prop} {Q : α → σ → Prop} {E : ε → σ → Prop} {m : Effect ε σ α}

/-- What both outcomes guarantee holds of the state after the run. -/
theorem stateAfter {R : σ → Prop} (h : Contract P m (fun _ => R) fun _ => R) {s : σ}
    (hs : P s) : R (stateAfter (m s)) := by
  have hm := h s hs
  cases hrun : m s with
  | ok a s' =>
      rw [hrun] at hm
      exact hm
  | error e s' =>
      rw [hrun] at hm
      exact hm

end Contract

namespace Agree

variable {P P' : σ → τ → Prop} {m : Effect ε σ α} {n : Effect ε τ β}
  {Q Q' : α → β → σ → τ → Prop}

theorem consequence (h : Agree P m n Q) (pre : ∀ s t, P' s t → P s t)
    (post : ∀ a b s t, Q a b s t → Q' a b s t) : Agree P' m n Q' := by
  intro s t hst
  obtain ⟨a, b, s', t', hm, hn, hq⟩ | herror := h s t (pre s t hst)
  · exact .inl ⟨a, b, s', t', hm, hn, post a b s' t' hq⟩
  · exact .inr herror

theorem mono_post (h : Agree P m n Q) (post : ∀ a b s t, Q a b s t → Q' a b s t) :
    Agree P m n Q' :=
  h.consequence (fun _ _ hp => hp) post

theorem pure {a : α} {b : β} (h : ∀ s t, P s t → Q a b s t) :
    Agree P (Pure.pure a : Effect ε σ α) (Pure.pure b : Effect ε τ β) Q :=
  fun s t hst => .inl ⟨a, b, s, t, rfl, rfl, h s t hst⟩

theorem bind {f : α → Effect ε σ γ} {g : β → Effect ε τ δ} {R : γ → δ → σ → τ → Prop}
    (hm : Agree P m n Q) (hf : ∀ a b, Agree (Q a b) (f a) (g b) R) :
    Agree P (m >>= f) (n >>= g) R := by
  intro s t hst
  obtain ⟨a, b, s', t', hm, hn, hq⟩ | ⟨e, s', t', hm, hn⟩ := hm s t hst
  · rw [bind_of_ok hm, bind_of_ok hn]
    exact hf a b s' t' hq
  · exact .inr ⟨e, s', t', bind_of_error hm, bind_of_error hn⟩

/-- A fact that does not depend on the states moves out of the precondition. -/
theorem assume {p : Prop} (h : p → Agree P m n Q) : Agree (fun s t => p ∧ P s t) m n Q :=
  fun s t hst => h hst.1 s t hst.2

/-- A step of the left program alone that cannot fail. -/
theorem skip {l : Effect ε σ γ} {f : γ → Effect ε σ α} {R : γ → σ → τ → Prop}
    (hl : ∀ t, Contract (P · t) l (fun c s => R c s t) fun _ _ => False)
    (hf : ∀ c, Agree (R c) (f c) n Q) : Agree P (l >>= f) n Q := by
  intro s t hst
  have hrun := hl t s hst
  cases hl' : l s with
  | ok c s' =>
      rw [hl'] at hrun
      rw [bind_of_ok hl']
      exact hf c s' t hrun
  | error e s' =>
      rw [hl'] at hrun
      exact hrun.elim

/-- Two discarded programs always return. -/
theorem ignore {R : Unit → Unit → σ → τ → Prop} (h : ∀ s t, R () () s t) :
    Agree P (Effect.ignore m) (Effect.ignore n) R := by
  intro s t _
  obtain ⟨s', hm⟩ := ignore_returns m s
  obtain ⟨t', hn⟩ := ignore_returns n t
  exact .inl ⟨(), (), s', t', hm, hn, h s' t'⟩

theorem optional {R : Option α → Option β → σ → τ → Prop} (h : Agree P m n Q)
    (some : ∀ a b s t, Q a b s t → R (some a) (some b) s t) (none : ∀ s t, R none none s t) :
    Agree P (Effect.optional m) (Effect.optional n) R := by
  intro s t hst
  left
  obtain ⟨a, b, s', t', hm, hn, hq⟩ | ⟨e, s', t', hm, hn⟩ := h s t hst
  · exact ⟨_, _, s', t', by rw [Effect.optional, hm], by rw [Effect.optional, hn],
      some a b s' t' hq⟩
  · exact ⟨_, _, s', t', by rw [Effect.optional, hm], by rw [Effect.optional, hn], none s' t'⟩

end Agree

end Effect
