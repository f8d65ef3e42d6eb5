import FleetosCore.Attestation.Tpm.Runs
import FleetosCore.Attestation.Tpm.HonestQuote

/-!
# What a failed call leaves behind

On a TPM without resource manager a call that returns an error should leave the loaded
objects, the loaded sessions and the session slots as it found them. The early returns of
the source free nothing on their way out; only the keys of a session are saved back by the
callers of `activate_inner` and `quote_inner`. So the state is as before exactly when the
place that failed is one at which nothing else was held, and the session's keys were in
memory to begin with.
-/

namespace Fleetos.Tpm

/-- The tables and the slots are as before. -/
structure Unchanged (ctx ctx' : Context) : Prop where
  objects : ctx'.objects.entries = ctx.objects.entries
  sessions : ctx'.sessions.entries = ctx.sessions.entries
  slots : ctx'.slots = ctx.slots

theorem unchanged_iff {ctx ctx' : Context} :
    Unchanged ctx ctx' ↔ Holding.of ctx' = Holding.of ctx := by
  rw [Holding.ext_iff]
  exact ⟨fun h => ⟨h.objects, h.sessions, h.slots⟩, fun h => ⟨h.1, h.2.1, h.2.2⟩⟩

/-- The tables are followed exactly, and a handle that is not loaded may be used. -/
def exactFrame (ctx : Context) : Frame :=
  ⟨True, False, ctx.failed, ctx.staleUses, max ctx.peak (ctx.objects.entries.length + 2)⟩

/-- The keys that the call works with are in memory. -/
def Managed.KeysSaved (m : Managed) : Call → Prop
  | .activate place _ _ => ∀ session, m.sessions[place]? = some session →
      session.ekState.IsSaved ∧ session.akState.IsSaved
  | .quote place _ _ => ∀ session, m.sessions[place]? = some session → session.akState.IsSaved
  | _ => True

section

variable {ctx : Context} {why ahead : Step → Prop} {step : Step} {leaky : Step → Bool}

theorem held_exactFrame (ctx : Context) : Held (exactFrame ctx) [] (.of ctx) ctx :=
  held_of True False (le_max_left _ _)

theorem Stopped.unchanged_iff {ctx' : Context}
    (h : Stopped (exactFrame ctx) why (Leaves (.of ctx) leaky ahead) ctx')
    (hsingle : ctx'.failed = ctx.failed ++ [step]) : Unchanged ctx ctx' ↔ leaky step = false := by
  obtain ⟨step', H, hleaves, -, hheld⟩ := h
  have hfailed : ctx'.failed = ctx.failed ++ [step'] := hheld.failed trivial
  rw [hsingle, List.append_cancel_left_eq, List.cons.injEq] at hfailed
  rw [Fleetos.Tpm.unchanged_iff, hheld.of_eq trivial, hfailed.1, hleaves.unchanged_iff]

/-- A session operation gives back the objects exactly when its keys were in memory. -/
theorem Ended.unchanged_iff {roles : KeyRole → Bool} {session : ManagedAttestationSession}
    {s : Context × ManagedAttestationSession} {step' : Step}
    {S : List (SessionHandle × SessionType)} {slots : Slots}
    (h : Ended (exactFrame ctx) why roles false (.of ctx) session s [step'] S slots)
    (hsingle : s.1.failed = ctx.failed ++ [step]) :
    step' = step ∧ (Unchanged ctx s.1 ↔ (∀ role, roles role → (session.key role).IsSaved) ∧
      S = ctx.sessions.entries ∧ slots = ctx.slots) := by
  obtain ⟨F', -, hsaved, k, hsteps, hheld, hk⟩ := h
  have hfailed : s.1.failed = ctx.failed ++ ([step'] ++ F') := hheld.failed trivial
  rw [hsingle, List.append_cancel_left_eq, List.singleton_append, List.cons.injEq] at hfailed
  obtain ⟨rfl, hnone⟩ := hfailed
  have hback := hsaved rfl hnone.symm
  rw [hk] at hback
  refine ⟨rfl, ?_⟩
  rw [Fleetos.Tpm.unchanged_iff, hheld.of_eq trivial, Holding.ext_iff]
  refine and_congr_left fun _ => ⟨fun hobjects => ?_, fun hkeys => ?_⟩
  · have hbalance := hsteps.balance
    have hobjects : k.1 = ctx.objects.entries := hobjects
    rw [liveKeys_eq_zero_iff.mpr hback, hobjects] at hbalance
    exact liveKeys_eq_zero_iff.mp (Nat.add_left_cancel hbalance)
  · have hothers := hsteps.others_eq
    rwa [others_eq_self hback, others_eq_self (k := (_, session)) hkeys] at hothers

end

/-- What one answer of the manager says about the call. -/
def RollsBack (m : Managed) (call : Call) (step : Step) (answer : Managed × Option TssError) :
    Prop :=
  ∀ e, answer.2 = some e → answer.1.context.failed = m.context.failed ++ [step] →
    (Unchanged m.context answer.1.context ↔ m.KeysSaved call ∧ call.leaky step = false)

section

variable {m : Managed} {step : Step} {call : Call} {ctx : Context}
  {sessions : List ManagedAttestationSession}

theorem RollsBack.of_ok : RollsBack m call step (⟨ctx, sessions⟩, none) := by
  intro e h
  cases h

/-- A call without a session. -/
theorem RollsBack.of_stopped {why ahead : Step → Prop} {e : TssError} (hcall : m.KeysSaved call)
    (h : Stopped (exactFrame m.context) why (Leaves (.of m.context) call.leaky ahead) ctx) :
    RollsBack m call step (⟨ctx, sessions⟩, some e) := by
  intro _ _ hsingle
  rw [h.unchanged_iff hsingle]
  exact ⟨fun hleaky => ⟨hcall, hleaky⟩, fun h => h.2⟩

end

theorem keysSaved_activate {m : Managed} {place : Nat} {session : ManagedAttestationSession}
    {credentialBlob secret : Bytes} (hplace : m.sessions[place]? = some session) :
    m.KeysSaved (.activate place credentialBlob secret) ↔
      ∀ role, bothKeys role → (session.key role).IsSaved := by
  constructor
  · intro h role _
    cases role with
    | ek => exact (h session hplace).1
    | ak => exact (h session hplace).2
  · intro h session' hplace'
    rw [hplace, Option.some.injEq] at hplace'
    exact hplace' ▸ ⟨h .ek rfl, h .ak rfl⟩

theorem keysSaved_quote {m : Managed} {place : Nat} {session : ManagedAttestationSession}
    {serverNonce : Bytes} {pcrIndices : List UInt8}
    (hplace : m.sessions[place]? = some session) :
    m.KeysSaved (.quote place serverNonce pcrIndices) ↔
      ∀ role, akOnly role → (session.key role).IsSaved := by
  constructor
  · intro h role hrole
    cases role with
    | ek => cases hrole
    | ak => exact h session hplace
  · intro h session' hplace'
    rw [hplace, Option.some.injEq] at hplace'
    exact hplace' ▸ h .ak rfl

theorem finishAttestation_returns (env : Env) (session : ManagedAttestationSession)
    (ctx : Context) :
    ∃ ctx', TpmContextManager.finishAttestation env session ctx = .ok () ctx' := by
  have hflush : ∀ role state ctx, ∃ ctx',
      TpmContextManager.flushIfLive env role state ctx = .ok () ctx' := by
    intro role state ctx
    cases state with
    | live handle => exact Effect.ignore_returns _ ctx
    | saved context => exact ⟨ctx, rfl⟩
  obtain ⟨ctx₁, hek⟩ := hflush .ek session.ekState ctx
  obtain ⟨ctx₂, hak⟩ := hflush .ak session.akState ctx₁
  exact ⟨ctx₂, (Effect.bind_of_ok hek).trans hak⟩

theorem respond_rollsBack (dev : Device) {env : Env} (m : Managed) (call : Call) (step : Step)
    (hflush : ∀ step, step.IsFlush → env.faults step = none) :
    RollsBack m call step (m.respond dev false env call) := by
  have hfaults : ∀ step, env.faults step ≠ none → (fun _ => True) step := fun _ _ => trivial
  have hflush : (exactFrame m.context).exact → ∀ step, step.IsFlush → env.faults step = none :=
    fun _ => hflush
  have hroom : (exactFrame m.context).exact →
      (Holding.of m.context).objects.length + 2 ≤ (exactFrame m.context).bound :=
    fun _ => le_max_right _ _
  have hroom' : (exactFrame m.context).exact →
      (Holding.of m.context).objects.length + 1 ≤ (exactFrame m.context).bound :=
    fun h => Nat.le_of_succ_le (hroom h)
  have hkeys : ∀ session, Manageable (exactFrame m.context) (fun _ => True) dev
      ((Holding.of m.context).objects, session) :=
    fun _ => .inl ⟨trivial, id, fun _ => trivial⟩
  have hheld := held_exactFrame m.context
  cases call with
  | beginAttestation =>
      refine Managed.after_of_contract (held_beginAttestation hfaults hflush hroom fun _ => trivial)
        hheld (fun _ _ _ => .of_ok) ?_
      exact fun _ _ h => .of_stopped trivial h
  | activate place credentialBlob secret =>
      rw [Managed.respond]
      split
      · rename_i session hplace
        refine Managed.afterSession_of_contract (held_activate (hkeys session) hfaults hflush hroom)
          ⟨hheld, rfl⟩ (fun _ _ _ => .of_ok) ?_
        rintro _ s ⟨step', S, slots, -, -, hleaky, hended⟩ _ _ hsingle
        obtain ⟨rfl, hiff⟩ := hended.unchanged_iff hsingle
        rw [hiff, keysSaved_activate hplace]
        exact and_congr_right fun _ => hleaky.symm
      · exact .of_ok
  | quote place serverNonce pcrIndices =>
      rw [Managed.respond]
      split
      · rename_i session hplace
        refine Managed.afterSession_of_contract (held_quote (hkeys session) hfaults hflush hroom')
          ⟨hheld, rfl⟩ (fun _ _ _ => .of_ok) ?_
        rintro _ s ⟨step', hended⟩ _ _ hsingle
        obtain ⟨rfl, hiff⟩ := hended.unchanged_iff hsingle
        rw [hiff, keysSaved_quote hplace]
        exact and_congr_right fun _ => iff_of_true ⟨rfl, rfl⟩ rfl
      · exact .of_ok
  | sealToPcr plaintext pcrIndices =>
      refine Managed.after_of_contract (held_sealToPcr hfaults hflush hroom' (fun _ => trivial)
        fun _ => trivial) hheld (fun _ _ _ => .of_ok) ?_
      exact fun _ _ h => .of_stopped trivial h
  | unsealBlob blob =>
      refine Managed.after_of_contract (held_unsealBlob hfaults hflush hroom fun _ => trivial)
        hheld (fun _ _ _ => .of_ok) ?_
      exact fun _ _ h => .of_stopped trivial h
  | finishAttestation place =>
      rw [Managed.respond]
      split
      · rename_i session hplace
        obtain ⟨ctx, hrun⟩ := finishAttestation_returns env session m.context
        rw [hrun]
        exact .of_ok
      · exact .of_ok
  | readEkCert =>
      have hleaves : ∀ step, Leaves (.of m.context) Call.readEkCert.leaky (fun _ => True) step
          (.of m.context) := fun _ => .nothing rfl trivial
      refine Managed.after_of_contract (held_readEkCert (fun _ => trivial) hleaves) hheld
        (fun _ _ _ => .of_ok) ?_
      exact fun _ _ h => .of_stopped trivial h

/-- A call that returns an error because of one failing place leaves the objects, the
sessions and the slots as they were exactly when the session keys it works with were in
memory and the place is not one at which the call holds something it does not give back. -/
theorem failed_call_unchanged_iff (dev : Device) {env : Env} (m : Managed) (call : Call)
    {e : TssError} {step : Step} (hflush : ∀ step, step.IsFlush → env.faults step = none)
    (herror : (m.respond dev false env call).2 = some e)
    (hsingle : (m.respond dev false env call).1.context.failed = m.context.failed ++ [step]) :
    Unchanged m.context (m.respond dev false env call).1.context ↔
      m.KeysSaved call ∧ call.leaky step = false :=
  respond_rollsBack dev m call step hflush e herror hsingle

namespace Sample

/-- One place fails. -/
def failing (step : Step) : Env :=
  { env with faults := fun s => if s = step then some "TPM error" else none }

def blob : SealedBlob := ⟨[0x01], [0x02], [0, 7]⟩

theorem failing_flush {step : Step} (hstep : ¬ step.IsFlush) :
    ∀ s, s.IsFlush → (failing step).faults s = none := by
  intro s hs
  have hne : s ≠ step := fun heq => hstep (heq ▸ hs)
  exact if_neg hne

end Sample

/-- The manager after a session has begun. -/
def Sample.begun : Managed := Managed.new.step device false ⟨.beginAttestation, env⟩

/-- A quote that fails after its AK was loaded saves the key back and leaves nothing else. -/
theorem failed_quote_unchanged :
    (Sample.begun.respond Sample.device false (Sample.failing .pcrRead)
      (.quote 0 [0xAA] [0, 7])).2.isSome ∧
    Unchanged Sample.begun.context (Sample.begun.respond Sample.device false
      (Sample.failing .pcrRead) (.quote 0 [0xAA] [0, 7])).1.context := by
  have hsome : (Sample.begun.respond Sample.device false (Sample.failing .pcrRead)
      (.quote 0 [0xAA] [0, 7])).2.isSome := by decide +kernel
  have hsingle : (Sample.begun.respond Sample.device false (Sample.failing .pcrRead)
      (.quote 0 [0xAA] [0, 7])).1.context.failed = Sample.begun.context.failed ++ [.pcrRead] := by
    decide +kernel
  have hsaved : Sample.begun.KeysSaved (.quote 0 [0xAA] [0, 7]) := by
    rintro session hopen
    cases hopen
    trivial
  obtain ⟨e, herror⟩ := Option.isSome_iff_exists.mp hsome
  have hiff := failed_call_unchanged_iff Sample.device Sample.begun (.quote 0 [0xAA] [0, 7])
    (Sample.failing_flush id) herror hsingle
  exact ⟨hsome, hiff.mpr ⟨hsaved, rfl⟩⟩

/-- Data that cannot be unsealed, because a register changed, leaves the storage root key,
the sealed object, the policy session and a session slot behind. -/
theorem failed_unseal_not_unchanged :
    ¬ ∀ (dev : Device) (env : Env) (m : Managed) (call : Call) (e : TssError) (step : Step),
      (∀ step, step.IsFlush → env.faults step = none) →
        (m.respond dev false env call).2 = some e →
          (m.respond dev false env call).1.context.failed = m.context.failed ++ [step] →
            (∀ role, step ≠ .contextSave role) →
              Unchanged m.context (m.respond dev false env call).1.context := by
  intro h
  have hunchanged := h Sample.device (Sample.failing .unsealObject) Managed.new
    (.unsealBlob Sample.blob) _ .unsealObject (Sample.failing_flush id) rfl rfl
    fun _ => Step.noConfusion
  exact absurd (congrArg List.length hunchanged.objects) (by decide)

end Fleetos.Tpm
