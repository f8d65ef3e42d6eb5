import FleetosCore.Library.Agreement

/-!
# Programs that fail for known reasons

`Decides P p m Q`: from a state with `P` the program returns exactly when `p` holds, with a
result and a state related by `Q`. The condition is about what is known before the run, so
it does not depend on the state, and conditions of successive steps are joined.
-/

namespace Effect

variable {ε σ α β : Type}

def Decides (P : σ → Prop) (p : Prop) (m : Effect ε σ α) (Q : α → σ → Prop) : Prop :=
  Contract P m (fun a s => p ∧ Q a s) fun _ _ => ¬ p

namespace Decides

variable {P P' : σ → Prop} {p q : Prop} {m : Effect ε σ α} {Q Q' : α → σ → Prop}

/-- A program that does not fail. -/
theorem always (h : ∀ s, P s → ∃ a s', m s = .ok a s' ∧ Q a s') : Decides P True m Q := by
  intro s hs
  obtain ⟨a, s', hrun, hq⟩ := h s hs
  rw [hrun]
  exact ⟨trivial, hq⟩

theorem pure {a : α} (h : ∀ s, P s → Q a s) : Decides P True (Pure.pure a : Effect ε σ α) Q :=
  fun s hs => ⟨trivial, h s hs⟩

theorem bind {f : α → Effect ε σ β} {R : β → σ → Prop} (hm : Decides P p m Q)
    (hf : ∀ a, Decides (Q a) q (f a) R) : Decides P (p ∧ q) (m >>= f) R := by
  refine Contract.bind (hm.mono_fail fun _ _ hp h => hp h.1) fun a => Contract.assume fun hp => ?_
  exact (hf a).consequence (fun _ h => h) (fun _ _ h => ⟨⟨hp, h.1⟩, h.2⟩) fun _ _ hq h => hq h.2

theorem consequence (h : Decides P p m Q) (pre : ∀ s, P' s → P s)
    (post : ∀ a s, Q a s → Q' a s) : Decides P' p m Q' :=
  Contract.consequence h pre (fun a s hq => ⟨hq.1, post a s hq.2⟩) fun _ _ hp => hp

theorem mono_post (h : Decides P p m Q) (post : ∀ a s, Q a s → Q' a s) : Decides P p m Q' :=
  h.consequence (fun _ hs => hs) post

theorem congr (h : Decides P p m Q) (hpq : p ↔ q) : Decides P q m Q := by
  rw [← propext hpq]
  exact h

/-- The first part does not fail. -/
theorem after {f : α → Effect ε σ β} {R : β → σ → Prop} (hm : Decides P True m Q)
    (hf : ∀ a, Decides (Q a) q (f a) R) : Decides P q (m >>= f) R :=
  (hm.bind hf).congr (by rw [true_and])

/-- The second part does not fail. -/
theorem before {f : α → Effect ε σ β} {R : β → σ → Prop} (hm : Decides P p m Q)
    (hf : ∀ a, Decides (Q a) True (f a) R) : Decides P p (m >>= f) R :=
  (hm.bind hf).congr (by rw [and_true])

/-- What is known of the state may be used. -/
theorem assume {c : Prop} (h : c → Decides P p m Q) : Decides (fun s => c ∧ P s) p m Q :=
  Contract.assume h

/-- A fact that is not about the state outlasts a program that does not fail. -/
theorem keep {c : Prop} (h : ∀ s, ∃ a s', m s = .ok a s') :
    Decides (fun _ => c) True m fun _ _ => c := by
  refine always fun s hc => ?_
  obtain ⟨a, s', hrun⟩ := h s
  exact ⟨a, s', hrun, hc⟩

/-- The program does not look at the other component. -/
theorem onFst {τ : Type} {R : σ × τ → Prop} (h : Decides P p m Q) (pre : ∀ s, R s → P s.1) :
    Decides R p (Effect.onFst m : Effect ε (σ × τ) α) fun a s => Q a s.1 :=
  (Contract.onFst h (K := fun _ => True)).consequence (fun s hs => ⟨pre s hs, trivial⟩)
    (fun _ _ hq => hq.1) fun _ _ hp => hp.1

/-- A cleanup that does not fail leaves the result. -/
theorem andThenCleanup {c : α → Prop} {cleanup : Effect ε σ Unit}
    (h : Decides P p m fun a _ => c a) (hclean : ∀ s, ∃ s', cleanup s = .ok () s') :
    Decides P p (Effect.andThenCleanup m cleanup) fun a _ => c a := by
  have hkeep : ∀ q : Prop, Contract (fun _ => q) cleanup (fun _ _ => q) fun _ _ => False := by
    intro q s hq
    obtain ⟨s', hrun⟩ := hclean s
    rw [hrun]
    exact hq
  exact Contract.andThenCleanup h (fun _ => hkeep _) fun _ => hkeep _

/-- A program with one possible result. -/
theorem answer_ok_iff {v : α} (h : Decides P p m fun a _ => a = v) {s : σ} (hs : P s) {a : α} :
    answer (m s) = .ok a ↔ p ∧ a = v := by
  have hm := h s hs
  cases hrun : m s with
  | ok b s' =>
      rw [hrun] at hm
      obtain ⟨hp, rfl⟩ := hm
      exact ⟨fun heq => ⟨hp, (Except.ok.inj heq).symm⟩, fun heq => by rw [heq.2]; rfl⟩
  | error e s' =>
      rw [hrun] at hm
      exact iff_of_false (by simp [answer]) fun heq => hm heq.1

end Decides

end Effect
