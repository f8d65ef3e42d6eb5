import FleetosCore.Attestation.Tpm.SessionKeys

/-!
# Operations on a session

The contracts of `activate`, `quote` and `finish_attestation`. A session operation loads
the keys it needs, works, and saves them back whatever happened. `Reaches` says that the
context and the session got where they are by key steps from where the operation began;
`SavedBack` adds which of the saves failed.
-/

namespace Fleetos.Tpm

open Effect (Contract)

/-- Reached from `H` and `session` by key steps, with these sessions and slots. -/
def Reaches (fr : Frame) (roles : KeyRole → Bool) (F : List Step) (H : Holding)
    (session : ManagedAttestationSession) (S : List (SessionHandle × SessionType))
    (slots : Slots) (s : Context × ManagedAttestationSession) : Prop :=
  ∃ k, KeySteps roles (H.objects, session) k ∧ Held fr F ⟨k.1, S, slots⟩ s.1 ∧ s.2 = k.2

/-- Stopped at a place of the work itself; unless it is leaky, the sessions and the slots
are those of `H`. -/
def Interrupted (why : Step → Prop) (leaky : Step → Bool) (ahead : Step → Prop) (H : Holding)
    (after : List Step → List (SessionHandle × SessionType) → Slots → Prop) : Prop :=
  ∃ step S slots, why step ∧ ahead step ∧
    (leaky step = false ↔ S = H.sessions ∧ slots = H.slots) ∧ after [step] S slots

/-- The role's key was saved back, or saving it failed at `F'`; the other key is as before. -/
structure SavedBack (fr : Frame) (why : Step → Prop) (roles : KeyRole → Bool)
    (hasResourceManager : Bool) (role : KeyRole) (F : List Step) (H : Holding)
    (session : ManagedAttestationSession) (F' : List Step) (O : List (ObjectHandle × Object))
    (s : Context × ManagedAttestationSession) : Prop where
  failures : F' = [] ∨ F' = [.contextSave role] ∧ why (.contextSave role)
  steps : KeySteps roles (H.objects, session) (O, s.2)
  saved : hasResourceManager = false → F' = [] → (s.2.key role).IsSaved
  rest : ∀ role' ≠ role, s.2.key role' = session.key role'
  held : Held fr (F ++ F') { H with objects := O } s.1

/-- The end of an operation: the keys of its roles are saved back where that did not fail. -/
def Ended (fr : Frame) (why : Step → Prop) (roles : KeyRole → Bool)
    (hasResourceManager : Bool) (H : Holding) (session : ManagedAttestationSession)
    (s : Context × ManagedAttestationSession) (F : List Step)
    (S : List (SessionHandle × SessionType)) (slots : Slots) : Prop :=
  ∃ F', (∀ step ∈ F', ∃ role, step = .contextSave role ∧ why step) ∧
    (hasResourceManager = false → F' = [] → ∀ role, roles role → (s.2.key role).IsSaved) ∧
    Reaches fr roles (F ++ F') H session S slots s

/-- The keys can be used: they are truthful, or any use of them may fail. -/
def Manageable (fr : Frame) (why : Step → Prop) (dev : Device) (k : Keys) : Prop :=
  (fr.exact ∧ ¬ fr.strict ∧ ∀ step, why step) ∨ Truthful dev k

section

variable {fr : Frame} {why : Step → Prop} {dev : Device} {env : Env} {roles : KeyRole → Bool}
  {F : List Step} {H : Holding} {session : ManagedAttestationSession} {role : KeyRole}
  {k k' : Keys} {handle : ObjectHandle} {step : Step}

theorem Manageable.steps (h : Manageable fr why dev k) (hsteps : KeySteps roles k k') :
    Manageable fr why dev k' := by
  obtain hlax | htruthful := h
  · exact .inl hlax
  · exact .inr (hsteps.truthful htruthful)

/-- Whether a reason is asked for makes no difference to the keys. -/
theorem Manageable.any (h : Manageable fr why dev k) : Manageable fr (fun _ => True) dev k := by
  obtain ⟨hexact, hlax, -⟩ | htruthful := h
  · exact .inl ⟨hexact, hlax, fun _ => trivial⟩
  · exact .inr htruthful

theorem Manageable.usable (h : Manageable fr why dev (H.objects, session))
    (hkey : session.key role = .live handle) : Usable fr why step H handle := by
  obtain ⟨hexact, hlax, hwhy⟩ | htruthful := h
  · exact .inr ⟨hexact, hlax, hwhy step⟩
  · have hheld := htruthful.holds role
    rw [hkey] at hheld
    exact .inl ⟨_, hheld⟩

theorem held_keyState {E : TssError → Context × ManagedAttestationSession → Prop} :
    Contract (fun s => Held fr F H s.1 ∧ s.2 = session) (keyState role)
      (fun state s => state = session.key role ∧ Held fr F H s.1 ∧ s.2 = session) E :=
  fun _ ⟨hs, hsession⟩ => ⟨congrArg (·.key role) hsession, hs, hsession⟩

theorem held_setKeyState {state : KeyState}
    {E : TssError → Context × ManagedAttestationSession → Prop} :
    Contract (fun s => Held fr F H s.1 ∧ s.2 = session) (setKeyState role state)
      (fun _ s => Held fr F H s.1 ∧ s.2 = session.setKey role state) E :=
  fun _ ⟨hs, hsession⟩ => ⟨hs, congrArg (·.setKey role state) hsession⟩

/-- The key is live afterwards; the other key is as before. -/
theorem held_ensureLoaded (why : Step → Prop) (hrole : roles role)
    (hfault : env.faults (.contextLoad role) ≠ none → why (.contextLoad role))
    (hroom : fr.exact → H.objects.length + 1 ≤ fr.bound) :
    Contract (fun s => Held fr [] H s.1 ∧ s.2 = session)
      (TpmContextManager.ensureLoaded env role)
      (fun handle s => ∃ k : Keys, (KeySteps roles (H.objects, session) k ∧
        k.2.key role = .live handle ∧ (∀ role' ≠ role, k.2.key role' = session.key role') ∧
        k.1.length ≤ H.objects.length + 1) ∧
        Held fr [] { H with objects := k.1 } s.1 ∧ s.2 = k.2)
      fun _ s => Halts fr [] why (.contextLoad role) H s.1 ∧ s.2 = session := by
  apply Contract.bind held_keyState
  intro state
  apply Contract.assume
  rintro rfl
  cases hkey : session.key role with
  | live handle =>
      refine Contract.pure fun _ hs => ⟨(H.objects, session), ⟨.refl, hkey, ?_, ?_⟩, hs⟩
      · exact fun _ _ => rfl
      · exact Nat.le_succ _
  | saved saved =>
      dsimp only
      apply Contract.bind (Contract.onFst (K := (· = session)) (held_contextLoad hfault hroom))
      intro handle
      apply Contract.bind held_setKeyState
      intro _
      refine Contract.pure fun s hs => ⟨(H.objects ++ [(handle, saved.object)],
        session.setKey role (.live handle)), ⟨?_, ?_, ?_, ?_⟩, hs⟩
      · exact .single (.load hrole hkey hs.1.objects.fresh_of_append)
      · exact ManagedAttestationSession.key_setKey_self
      · exact fun _ hne => ManagedAttestationSession.key_setKey_of_ne hne
      · rw [List.length_append, List.length_singleton]

/-- A save that fails changes nothing; otherwise the key is saved, unless a resource
manager makes the call do nothing. -/
theorem held_saveIfNeeded (hasResourceManager : Bool)
    {E : TssError → Context × ManagedAttestationSession → Prop} (hrole : roles role)
    (hkeys : Manageable fr why dev (H.objects, session))
    (hfault : env.faults (.contextSave role) ≠ none → why (.contextSave role))
    (hflush : fr.exact → env.faults (.flushKey role) = none) :
    Contract (fun s => Held fr F H s.1 ∧ s.2 = session)
      (Effect.ignore (TpmContextManager.saveIfNeeded env hasResourceManager role))
      (fun _ s => ∃ F' O, SavedBack fr why roles hasResourceManager role F H session F' O s)
      E := by
  apply Contract.ignore
  cases hasResourceManager with
  | true =>
      rintro s ⟨hs, rfl⟩
      exact ⟨[], H.objects, .inl rfl, .refl, Bool.noConfusion, fun _ _ => rfl,
        by rwa [List.append_nil]⟩
  | false =>
      apply Contract.bind held_keyState
      intro state
      apply Contract.assume
      rintro rfl
      cases hkey : session.key role with
      | live handle =>
          have husable : Usable fr why (.contextSave role) H handle := hkeys.usable hkey
          dsimp only
          refine Contract.bind ((Contract.onFst (K := (· = session))
            (held_contextSave husable hfault)).consequence (fun _ hs => hs)
            (fun _ _ hs => and_assoc.mp hs) ?_) fun saved => ?_
          · rintro _ s ⟨⟨hwhy, hs⟩, rfl⟩
            exact ⟨[.contextSave role], H.objects, .inr ⟨rfl, hwhy⟩, .refl,
              fun _ h => absurd h (List.cons_ne_nil _ _), fun _ _ => rfl, hs⟩
          · apply Contract.assume
            intro hmem
            apply Contract.derive fun _ hs => hs.1.objects.nodup
            intro hnodup
            have hfree := Contract.onFst (K := (· = session))
              (held_flushObject (F := F) (E := fun _ _ => False) hflush hmem)
            apply Contract.bind (hfree.mono_fail fun _ _ hs => hs.1.elim)
            intro _
            refine held_setKeyState.consequence (fun _ hs => hs) ?_ fun _ _ hs => hs
            rintro _ s ⟨hs, hsession⟩
            refine ⟨[], (H.drop handle).objects, .inl rfl, ?_, ?_, ?_, ?_⟩
            · rw [hsession]
              exact .single (.save hrole hkey hnodup hmem)
            · rw [hsession, ManagedAttestationSession.key_setKey_self]
              exact fun _ _ => trivial
            · rw [hsession]
              exact fun _ hne => ManagedAttestationSession.key_setKey_of_ne hne
            · rw [List.append_nil]
              exact hs
      | saved saved =>
          rintro s ⟨hs, rfl⟩
          exact ⟨[], H.objects, .inl rfl, .refl, fun _ _ => hkey ▸ trivial, fun _ _ => rfl,
            by rwa [List.append_nil]⟩

theorem saveIfNeeded_runs (hasResourceManager : Bool) {s : Context × ManagedAttestationSession}
    (hs : Held fr F H s.1) (hrole : roles role)
    (hkeys : Manageable fr why dev (H.objects, s.2))
    (hfaults : ∀ step, env.faults step ≠ none → why step)
    (hflush : fr.exact → ∀ step, step.IsFlush → env.faults step = none) :
    ∃ s' F' O, Effect.ignore (TpmContextManager.saveIfNeeded env hasResourceManager role) s =
      .ok () s' ∧ SavedBack fr why roles hasResourceManager role F H s.2 F' O s' := by
  obtain ⟨s', hrun⟩ :=
    Effect.ignore_returns (TpmContextManager.saveIfNeeded env hasResourceManager role) s
  have hsave := held_saveIfNeeded hasResourceManager (E := fun _ _ => False) (F := F) hrole hkeys
    (hfaults _) fun h => hflush h (.flushKey role) trivial
  obtain ⟨F', O, hback⟩ := hsave.of_ok ⟨hs, rfl⟩ hrun
  exact ⟨s', F', O, hrun, hback⟩

theorem SavedBack.failures_mem {hasResourceManager : Bool} {F' : List Step}
    {O : List (ObjectHandle × Object)} {s : Context × ManagedAttestationSession}
    (h : SavedBack fr why roles hasResourceManager role F H session F' O s) (hmem : step ∈ F') :
    ∃ role, step = .contextSave role ∧ why step := by
  obtain rfl | ⟨rfl, hwhy⟩ := h.failures
  · exact absurd hmem List.not_mem_nil
  · rw [List.mem_singleton.mp hmem]
    exact ⟨role, rfl, hwhy⟩

def akOnly : KeyRole → Bool
  | .ek => false
  | .ak => true

def bothKeys : KeyRole → Bool := fun _ => true

section Cleanup

variable {hasResourceManager : Bool} {S : List (SessionHandle × SessionType)} {slots : Slots}
  (hkeys : Manageable fr why dev (H.objects, session))
  (hfaults : ∀ step, env.faults step ≠ none → why step)
  (hflush : fr.exact → ∀ step, step.IsFlush → env.faults step = none)

include hkeys hfaults hflush

theorem held_saveAk :
    Contract (Reaches fr akOnly F H session S slots)
      (Effect.ignore (TpmContextManager.saveIfNeeded env hasResourceManager .ak))
      (fun _ s => Ended fr why akOnly hasResourceManager H session s F S slots)
      fun _ _ => False := by
  rintro ⟨ctx, session'⟩ ⟨⟨O, _⟩, hsteps, hs, rfl⟩
  have hrole : akOnly .ak := rfl
  obtain ⟨s', F', O', hrun, hback⟩ :=
    saveIfNeeded_runs hasResourceManager hs hrole (hkeys.steps hsteps) hfaults hflush
  rw [hrun]
  refine ⟨F', fun step => hback.failures_mem, ?_, (O', s'.2), ?_, hback.held, rfl⟩
  · intro hrm hnone role hrole
    cases role with
    | ek => cases hrole
    | ak => exact hback.saved hrm hnone
  · exact hsteps.trans hback.steps

theorem held_saveBoth :
    Contract (Reaches fr bothKeys F H session S slots)
      (do
        Effect.ignore (TpmContextManager.saveIfNeeded env hasResourceManager .ak)
        Effect.ignore (TpmContextManager.saveIfNeeded env hasResourceManager .ek))
      (fun _ s => Ended fr why bothKeys hasResourceManager H session s F S slots)
      fun _ _ => False := by
  rintro ⟨ctx, session'⟩ ⟨⟨O, _⟩, hsteps, hs, rfl⟩
  have hrole : ∀ role, bothKeys role := fun _ => rfl
  obtain ⟨s₁, F₁, O₁, hrun₁, hback₁⟩ := saveIfNeeded_runs hasResourceManager hs
    (hrole .ak) (hkeys.steps hsteps) hfaults hflush
  have hsteps₁ := hsteps.trans hback₁.steps
  obtain ⟨s₂, F₂, O₂, hrun₂, hback₂⟩ := saveIfNeeded_runs hasResourceManager hback₁.held
    (hrole .ek) (hkeys.steps hsteps₁) hfaults hflush
  rw [Effect.bind_of_ok hrun₁, hrun₂]
  refine ⟨F₁ ++ F₂, ?_, ?_, (O₂, s₂.2), ?_, ?_, rfl⟩
  · intro step hmem
    obtain hmem | hmem := List.mem_append.mp hmem
    · exact hback₁.failures_mem hmem
    · exact hback₂.failures_mem hmem
  · intro hrm hnone role _
    obtain ⟨hnone₁, hnone₂⟩ := List.append_eq_nil_iff.mp hnone
    cases role with
    | ek => exact hback₂.saved hrm hnone₂
    | ak =>
        rw [hback₂.rest .ak KeyRole.noConfusion]
        exact hback₁.saved hrm hnone₁
  · exact hsteps₁.trans hback₂.steps
  · rw [← List.append_assoc]
    exact hback₂.held

end Cleanup

/-! ## Whole operations -/

/-- The policy session is held from its start on; the keys are saved back by the caller. -/
def activateLeaky : Step → Bool
  | .convertSession | .policySecret | .activateCredential => true
  | _ => false

/-- What is passed ahead of the policy session. -/
def activateAhead (env : Env) (step : Step) : Prop :=
  activateLeaky step → env.faults .idObject = none ∧ env.faults .encryptedSecret = none ∧
    env.faults .allocateSession = none

section Whole

variable {hasResourceManager : Bool} (hkeys : Manageable fr why dev (H.objects, session))
  (hfaults : ∀ step, env.faults step ≠ none → why step)
  (hflush : fr.exact → ∀ step, step.IsFlush → env.faults step = none)

include hkeys

theorem held_quoteInner {serverNonce : Bytes} {pcrIndices : List UInt8}
    (hroom : fr.exact → H.objects.length + 1 ≤ fr.bound) :
    Contract (fun s => Held fr [] H s.1 ∧ s.2 = session)
      (TpmContextManager.quoteInner dev env serverNonce pcrIndices)
      (fun _ => Reaches fr akOnly [] H session H.sessions H.slots)
      fun _ s => ∃ step, Reaches fr akOnly [step] H session H.sessions H.slots s := by
  have hrole : akOnly .ak := rfl
  refine Contract.bind ((held_ensureLoaded (fun _ => True) hrole (fun _ => trivial)
    hroom).mono_fail ?_) fun akHandle => ?_
  · rintro _ s ⟨⟨-, hs⟩, rfl⟩
    exact ⟨_, (H.objects, s.2), .refl, hs, rfl⟩
  · apply Contract.unknown
    intro k
    apply Contract.assume
    rintro ⟨hsteps, hkey, -, -⟩
    have husable : Usable fr (fun _ => True) .quote { H with objects := k.1 } akHandle :=
      (hkeys.any.steps hsteps).usable hkey
    refine (Contract.onFst (K := (· = k.2)) (held_quoteWithKey (fun _ => trivial)
      (fun _ => rfl) husable)).consequence (fun _ hs => hs) ?_ ?_
    · exact fun _ s hs => ⟨k, hsteps, hs⟩
    · rintro _ s ⟨⟨step, H', rfl, -, hs⟩, hk⟩
      exact ⟨step, k, hsteps, hs, hk⟩

include hfaults hflush

theorem held_activateInner {credentialBlob secret : Bytes}
    (hroom : fr.exact → H.objects.length + 2 ≤ fr.bound) :
    Contract (fun s => Held fr [] H s.1 ∧ s.2 = session)
      (TpmContextManager.activateInner dev env credentialBlob secret)
      (fun _ => Reaches fr bothKeys [] H session H.sessions .none)
      fun _ s => Interrupted why activateLeaky (activateAhead env) H fun F S slots =>
        Reaches fr bothKeys F H session S slots s := by
  have hrole : ∀ role, bothKeys role := fun _ => rfl
  have hsame : ∀ step, activateLeaky step = false →
      (activateLeaky step = false ↔ H.sessions = H.sessions ∧ H.slots = H.slots) :=
    fun _ h => iff_of_true h ⟨rfl, rfl⟩
  refine Contract.bind ((held_ensureLoaded why (hrole .ak) (hfaults _)
    fun h => by have := hroom h; omega).mono_fail ?_) fun akHandle => ?_
  · rintro _ s ⟨⟨hwhy, hs⟩, rfl⟩
    exact ⟨_, _, _, hwhy, Bool.noConfusion, hsame _ rfl, (H.objects, s.2), .refl, hs, rfl⟩
  apply Contract.unknown
  intro k₁
  apply Contract.assume
  rintro ⟨hsteps₁, hak, -, hlength⟩
  refine Contract.bind ((held_ensureLoaded why (H := { H with objects := k₁.1 }) (hrole .ek)
    (hfaults _) fun h => by have := hroom h; dsimp only; omega).mono_fail ?_) fun ekHandle => ?_
  · rintro _ s ⟨⟨hwhy, hs⟩, hk⟩
    exact ⟨_, _, _, hwhy, Bool.noConfusion, hsame _ rfl, k₁, hsteps₁, hs, hk⟩
  apply Contract.unknown
  intro k₂
  apply Contract.assume
  rintro ⟨hsteps₂, hek, hrest, -⟩
  have hsteps := hsteps₁.trans hsteps₂
  have hkeys₂ : Manageable fr why dev (k₂.1, k₂.2) := hkeys.steps hsteps
  rw [← hrest .ak KeyRole.noConfusion] at hak
  have hopen : ∀ step handle slots, activateLeaky step →
      (activateLeaky step = false ↔ H.sessions ++ [(handle, SessionType.policy)] = H.sessions ∧
        slots = H.slots) := by
    intro step handle slots hleaky
    rw [hleaky]
    exact iff_of_false Bool.noConfusion fun h => by simpa using congrArg List.length h.1
  refine (Contract.onFst (K := (· = k₂.2)) (held_activateLoaded hfaults
    (H := { H with objects := k₂.1 }) (fun step H' => H'.objects = k₂.1 ∧ activateAhead env step ∧
      (activateLeaky step = false ↔ H'.sessions = H.sessions ∧ H'.slots = H.slots))
    (fun h => hflush h _ trivial) (hkeys₂.usable hak) (hkeys₂.usable hek)
    ⟨rfl, Bool.noConfusion, hsame _ rfl⟩ ⟨rfl, Bool.noConfusion, hsame _ rfl⟩
    ⟨rfl, Bool.noConfusion, hsame _ rfl⟩ ⟨rfl, Bool.noConfusion, hsame _ rfl⟩
    ?_)).consequence (fun _ hs => hs) ?_ ?_
  · intro hid hsecret hallocated handle
    have hahead : ∀ step, activateAhead env step := fun _ _ => ⟨hid, hsecret, hallocated⟩
    exact ⟨⟨rfl, hahead _, hopen _ _ _ rfl⟩, ⟨rfl, hahead _, hopen _ _ _ rfl⟩,
      ⟨rfl, hahead _, hopen _ _ _ rfl⟩⟩
  · exact fun _ s hs => ⟨k₂, hsteps, hs⟩
  · rintro _ s ⟨⟨step, H', ⟨hobjects, hahead, hleaky⟩, hwhy, hs⟩, hk⟩
    exact ⟨step, H'.sessions, H'.slots, hwhy, hahead, hleaky, k₂, hsteps, hobjects ▸ hs, hk⟩

/-- On success the slots are cleared; a failure leaves something behind only
once the policy session is open. -/
theorem held_activate {credentialBlob secret : Bytes}
    (hroom : fr.exact → H.objects.length + 2 ≤ fr.bound) :
    Contract (fun s => Held fr [] H s.1 ∧ s.2 = session)
      (TpmContextManager.activate dev env hasResourceManager credentialBlob secret)
      (fun _ s => Ended fr why bothKeys hasResourceManager H session s [] H.sessions .none)
      fun _ s => Interrupted why activateLeaky (activateAhead env) H
        (Ended fr why bothKeys hasResourceManager H session s) := by
  refine Contract.andThenCleanup (held_activateInner hkeys hfaults hflush hroom)
    (fun _ => held_saveBoth hkeys hfaults hflush) fun _ => ?_
  simp only [Interrupted]
  refine Contract.unknown fun step => Contract.unknown fun S => Contract.unknown fun slots => ?_
  refine Contract.assume fun hwhy => Contract.assume fun hahead => ?_
  refine Contract.assume fun hleaky => ?_
  refine (held_saveBoth hkeys hfaults hflush).consequence (fun _ hs => hs) ?_ fun _ _ hs => hs
  exact fun _ _ hs => ⟨step, S, slots, hwhy, hahead, hleaky, hs⟩

/-- A quote leaves sessions and slots alone, whatever happens. -/
theorem held_quote {serverNonce : Bytes} {pcrIndices : List UInt8}
    (hroom : fr.exact → H.objects.length + 1 ≤ fr.bound) :
    Contract (fun s => Held fr [] H s.1 ∧ s.2 = session)
      (TpmContextManager.quote dev env hasResourceManager serverNonce pcrIndices)
      (fun _ s => Ended fr why akOnly hasResourceManager H session s [] H.sessions H.slots)
      fun _ s => ∃ step, Ended fr why akOnly hasResourceManager H session s [step] H.sessions
        H.slots := by
  refine Contract.andThenCleanup (held_quoteInner hkeys hroom)
    (fun _ => held_saveAk hkeys hfaults hflush) fun _ => ?_
  refine Contract.unknown fun step => ?_
  refine (held_saveAk hkeys hfaults hflush).consequence (fun _ hs => hs) ?_ fun _ _ hs => hs
  exact fun _ _ hs => ⟨step, hs⟩

end Whole

/-! ## Finishing -/

/-- The objects other than the key's. -/
def KeyState.release (state : KeyState) (O : List (ObjectHandle × Object)) :
    List (ObjectHandle × Object) :=
  O.filter fun e => state ≠ .live e.1

theorem KeyState.release_live {O : List (ObjectHandle × Object)} :
    (KeyState.live handle).release O = HandleTable.without handle O := by
  apply List.filter_congr
  intro e _
  rw [decide_eq_decide, ne_eq, KeyState.live.injEq, eq_comm]

theorem KeyState.release_saved {context : TpmsContext} {O : List (ObjectHandle × Object)} :
    (KeyState.saved context).release O = O := by
  rw [KeyState.release, List.filter_eq_self]
  intro e _
  exact decide_eq_true KeyState.noConfusion

theorem others_bothKeys {O : List (ObjectHandle × Object)} :
    others bothKeys (O, session) = session.akState.release (session.ekState.release O) := by
  rw [KeyState.release, KeyState.release, List.filter_filter, others]
  apply List.filter_congr
  intro e _
  have hspare : Spare bothKeys session e.1 ↔
      session.akState ≠ .live e.1 ∧ session.ekState ≠ .live e.1 := by
    refine ⟨fun h => ⟨h .ak rfl, h .ek rfl⟩, fun h role _ => ?_⟩
    cases role with
    | ek => exact h.2
    | ak => exact h.1
  rw [Bool.eq_iff_iff, Bool.and_eq_true, decide_eq_true_eq, decide_eq_true_eq,
    decide_eq_true_eq, hspare]

theorem held_flushIfLive {state : KeyState} {E : TssError → Context → Prop}
    (hflush : fr.exact → env.faults (.flushKey role) = none) {object : Object}
    (hstate : state.Holds H.objects object) :
    Contract (Held fr F H) (TpmContextManager.flushIfLive env role state)
      (fun _ => Held fr F { H with objects := state.release H.objects }) E := by
  cases state with
  | live handle =>
      rw [KeyState.release_live]
      exact held_flushObject hflush hstate
  | saved context =>
      rw [KeyState.release_saved]
      exact Contract.pure fun _ hs => hs

/-- Finishing frees the session's own objects and no other. -/
theorem held_finishAttestation {E : TssError → Context → Prop}
    (hflush : fr.exact → ∀ step, step.IsFlush → env.faults step = none)
    (hkeys : Truthful dev (H.objects, session)) :
    Contract (Held fr F H) (TpmContextManager.finishAttestation env session)
      (fun _ => Held fr F { H with objects := others bothKeys (H.objects, session) }) E := by
  apply Contract.bind (held_flushIfLive (fun h => hflush h _ trivial) (hkeys.holds .ek))
  intro _
  rw [others_bothKeys]
  have hak : session.akState.Holds (session.ekState.release H.objects) (keyObject dev .ak) := by
    have hheld : session.akState.Holds H.objects (keyObject dev .ak) := hkeys.holds .ak
    cases hstate : session.akState with
    | live handle =>
        rw [hstate] at hheld
        refine List.mem_filter.mpr ⟨hheld, decide_eq_true fun hek => ?_⟩
        exact hkeys.distinct handle hek hstate
    | saved context =>
        rw [hstate] at hheld
        exact hheld
  exact held_flushIfLive (H := { H with objects := session.ekState.release H.objects })
    (fun h => hflush h _ trivial) hak

end

end Fleetos.Tpm
