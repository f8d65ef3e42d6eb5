import FleetosCore.Attestation.Tpm.Runs
import FleetosCore.Attestation.Tpm.HonestQuote

/-!
# Slots between operations

On a TPM without resource manager the transient slots are few, so between operations
nothing should stay loaded, and within one no more than two objects. When every command
succeeds this is what the operations do, for any number of open sessions in any order of
calls, unless an argument conversion fails at a place where the call already holds
something: the early return taken there frees nothing.
-/

namespace Fleetos.Tpm

/-- The places that send a command to the TPM; the others convert arguments and results. -/
def Step.IsCommand : Step → Bool
  | .createEk | .createAk | .createSrk | .beginSave _ | .contextSave _ | .contextLoad _
  | .startSession | .policySecret | .activateCredential | .quote | .pcrRead | .policyPcr
  | .policyGetDigest | .create | .load | .unsealObject | .getCapability | .nvPublic | .nvRead
  | .flushKey _ | .flushSession | .flushSrk | .flushSealed => true
  | _ => false

/-- The inputs of a call that a conversion refuses in any environment. -/
def Call.Refuses (dev : Device) : Call → Step → Prop
  | .beginAttestation, .extractEk =>
      ∀ unique exponent, dev.primary .endorsement .ek ≠ .rsa unique exponent
  | .sealToPcr _ pcrIndices, .pcrSlots => ∃ i ∈ pcrIndices, 23 < i.toNat
  | .sealToPcr plaintext _, .sealUnique => 64 < plaintext.length
  | .unsealBlob blob, .pcrSlots => ∃ i ∈ blob.pcrIndices, 23 < i.toNat
  | _, _ => False

theorem Call.Refuses.not_command {dev : Device} {call : Call} {step : Step}
    (h : call.Refuses dev step) : ¬ step.IsCommand := by
  unfold Call.Refuses at h
  split at h
  · exact Bool.noConfusion
  · exact Bool.noConfusion
  · exact Bool.noConfusion
  · exact Bool.noConfusion
  · exact h.elim

namespace Turn

variable (dev : Device) (turn : Turn)

/-- The place fails when the call comes to it. -/
def Fails (step : Step) : Prop := turn.env.faults step ≠ none ∨ turn.call.Refuses dev step

def CommandsSucceed : Prop := ∀ step, step.IsCommand → turn.env.faults step = none

/-- No conversion fails that the call comes to while it holds something. -/
def ConversionsPass : Prop :=
  ∀ step, ¬ step.IsCommand → turn.call.leaky step → turn.call.Ahead turn.env step →
    ¬ turn.Fails dev step

variable {dev turn} {step : Step}

theorem CommandsSucceed.not_fails (h : turn.CommandsSucceed) (hstep : step.IsCommand) :
    ¬ turn.Fails dev step := by
  rintro (hfault | hrefuses)
  · exact hfault (h step hstep)
  · exact hrefuses.not_command hstep

theorem ConversionsPass.not_leaky (hpass : turn.ConversionsPass dev)
    (hcommands : turn.CommandsSucceed) (hahead : turn.call.Ahead turn.env step)
    (hfails : turn.Fails dev step) : turn.call.leaky step = false := by
  by_contra hleaky
  rw [Bool.not_eq_false] at hleaky
  by_cases hcommand : step.IsCommand
  · exact hcommands.not_fails hcommand hfails
  · exact hpass step hcommand hleaky hahead hfails

end Turn

/-- Nothing is loaded, never more than two objects were, and all keys are in memory. -/
structure Idle (dev : Device) (m : Managed) : Prop where
  objects : m.context.objects.entries = []
  sessions : m.context.sessions.entries = []
  slots : m.context.slots = .none
  peak : m.context.peak ≤ 2
  saved : ∀ session ∈ m.sessions, ∀ role, session.key role = .saved ⟨keyObject dev role⟩

/-- The tables are followed exactly, and only loaded handles are used. -/
def idleFrame (ctx : Context) : Frame := ⟨True, True, ctx.failed, ctx.staleUses, 2⟩

def emptyHolding : Holding := ⟨[], [], .none⟩

section

variable {dev : Device} {m : Managed} {ctx : Context} {F : List Step}
  {session : ManagedAttestationSession}

theorem Idle.of_eq (h : Idle dev m) : Holding.of m.context = emptyHolding :=
  Holding.ext h.objects h.sessions h.slots

theorem Idle.held (h : Idle dev m) : Held (idleFrame m.context) [] emptyHolding m.context := by
  rw [← h.of_eq]
  exact held_of True True h.peak

theorem Idle.of_held {sessions : List ManagedAttestationSession}
    (hheld : Held (idleFrame m.context) F emptyHolding ctx)
    (hsaved : ∀ session ∈ sessions, ∀ role, session.key role = .saved ⟨keyObject dev role⟩) :
    Idle dev ⟨ctx, sessions⟩ :=
  ⟨hheld.objects.entries_eq trivial, hheld.sessions.entries_eq trivial, hheld.slots,
    hheld.peak trivial, hsaved⟩

theorem Idle.truthful (h : Idle dev m) (hsession : session ∈ m.sessions) :
    Truthful dev ([], session) := by
  refine ⟨fun role => ?_, fun handle hkey => ?_⟩
  · rw [h.saved session hsession role]
    rfl
  · rw [h.saved session hsession .ek] at hkey
    cases hkey

theorem KeyState.eq_saved {O : List (ObjectHandle × Object)} {object : Object} {state : KeyState}
    (hholds : state.Holds O object) (hsaved : state.IsSaved) : state = .saved ⟨object⟩ := by
  cases state with
  | live handle => exact hsaved.elim
  | saved context => exact congrArg (KeyState.saved ⟨·⟩) hholds

/-- A session operation that could save its keys back leaves nothing loaded. -/
theorem Idle.replace {place : Nat} {roles : KeyRole → Bool} {why : Step → Prop}
    {s : Context × ManagedAttestationSession} (h : Idle dev m)
    (hplace : m.sessions[place]? = some session) (hwhy : ∀ role, ¬ why (.contextSave role))
    (hended : Ended (idleFrame m.context) why roles false emptyHolding session s F [] .none) :
    Idle dev ⟨s.1, m.sessions.set place s.2⟩ := by
  obtain ⟨F', hfailures, hsaved, k, hsteps, hheld, hk⟩ := hended
  have hsession := List.mem_of_getElem? hplace
  have hnone : F' = [] := by
    refine List.eq_nil_iff_forall_not_mem.mpr fun step hmem => ?_
    obtain ⟨role, rfl, hstep⟩ := hfailures step hmem
    exact hwhy role hstep
  have hback := hsaved rfl hnone
  rw [hk] at hback
  have hbefore : ∀ role, roles role → (session.key role).IsSaved := by
    intro role _
    rw [h.saved session hsession role]
    trivial
  have hobjects : k.1 = [] := by
    have hothers := hsteps.others_eq
    rwa [others_eq_self hback, others_eq_self (k := (_, session)) hbefore] at hothers
  rw [hobjects] at hheld
  have htruthful := hsteps.truthful (h.truthful hsession)
  refine Idle.of_held hheld fun other hmem role => ?_
  obtain hmem | rfl := List.mem_or_eq_of_mem_set hmem
  · exact h.saved other hmem role
  · rw [hk]
    by_cases hrole : roles role
    · exact KeyState.eq_saved (htruthful.holds role) (hback role hrole)
    · exact (hsteps.key_eq hrole).trans (h.saved session hsession role)

theorem Idle.stopped {turn : Turn} (h : Idle dev m) (hcommands : turn.CommandsSucceed)
    (hpass : turn.ConversionsPass dev)
    (hstopped : Stopped (idleFrame m.context) (turn.Fails dev)
      (Leaves emptyHolding turn.call.leaky (turn.call.Ahead turn.env)) ctx) :
    Idle dev ⟨ctx, m.sessions⟩ := by
  obtain ⟨step, H, hleaves, hfails, hheld⟩ := hstopped
  have hleaky := hpass.not_leaky hcommands hleaves.ahead hfails
  rw [hleaves.unchanged_iff.mp hleaky] at hheld
  exact Idle.of_held hheld h.saved

end

/-- A call whose conversions pass while it holds something, with every command succeeding,
leaves nothing loaded; that it may still fail elsewhere makes no difference. -/
theorem Idle.step {dev : Device} {m : Managed} (h : Idle dev m) {turn : Turn}
    (hcommands : turn.CommandsSucceed) (hpass : turn.ConversionsPass dev) :
    Idle dev (m.step dev false turn) := by
  have hfaults : ∀ step, turn.env.faults step ≠ none → turn.Fails dev step := fun _ => .inl
  have hflush : (idleFrame m.context).exact →
      ∀ step, step.IsFlush → turn.env.faults step = none := by
    intro _ step hstep
    apply hcommands
    cases step <;> first | rfl | exact hstep.elim
  have hroom : (idleFrame m.context).exact →
      emptyHolding.objects.length + 2 ≤ (idleFrame m.context).bound := fun _ => Nat.le_refl 2
  have hroom' : (idleFrame m.context).exact →
      emptyHolding.objects.length + 1 ≤ (idleFrame m.context).bound := fun _ => Nat.le_succ 1
  have hkeys : ∀ session ∈ m.sessions, Manageable (idleFrame m.context) (turn.Fails dev) dev
      (emptyHolding.objects, session) :=
    fun session hsession => .inr (h.truthful hsession)
  have hsave : ∀ role, ¬ turn.Fails dev (.contextSave role) := fun _ => hcommands.not_fails rfl
  have hstopped : ∀ ctx, Stopped (idleFrame m.context) (turn.Fails dev)
      (Leaves emptyHolding turn.call.leaky (turn.call.Ahead turn.env)) ctx →
        Idle dev ⟨ctx, m.sessions⟩ := fun _ => h.stopped hcommands hpass
  obtain ⟨call, env⟩ := turn
  show Idle dev (m.respond dev false env call).1
  cases call with
  | beginAttestation =>
      refine Managed.after_of_contract (R := fun r => Idle dev r.1)
        (held_beginAttestation hfaults hflush hroom .inr) h.held ?_ fun _ => hstopped
      rintro session ctx ⟨H', -, ⟨hsaved, rfl⟩, hheld⟩
      refine Idle.of_held hheld fun other hmem => ?_
      obtain hmem | hmem := List.mem_append.mp hmem
      · exact h.saved other hmem
      · rw [List.mem_singleton.mp hmem]
        exact hsaved
  | activate place credentialBlob secret =>
      rw [Managed.respond]
      split
      · rename_i session hplace
        refine Managed.afterSession_of_contract (R := fun r => Idle dev r.1) (held_activate
          (hkeys session (List.mem_of_getElem? hplace)) hfaults hflush hroom) ⟨h.held, rfl⟩ ?_ ?_
        · exact fun _ s hended => h.replace hplace hsave hended
        · rintro _ s ⟨step, S, slots, hfails, hahead, hiff, hended⟩
          obtain ⟨rfl, rfl⟩ := hiff.mp (hpass.not_leaky hcommands hahead hfails)
          exact h.replace hplace hsave hended
      · exact h
  | quote place serverNonce pcrIndices =>
      rw [Managed.respond]
      split
      · rename_i session hplace
        refine Managed.afterSession_of_contract (R := fun r => Idle dev r.1) (held_quote
          (hkeys session (List.mem_of_getElem? hplace)) hfaults hflush hroom') ⟨h.held, rfl⟩ ?_ ?_
        · exact fun _ s hended => h.replace hplace hsave hended
        · rintro _ s ⟨step, hended⟩
          exact h.replace hplace hsave hended
      · exact h
  | sealToPcr plaintext pcrIndices =>
      exact Managed.after_of_contract (R := fun r => Idle dev r.1)
        (held_sealToPcr hfaults hflush hroom' .inr .inr) h.held
        (fun _ ctx hheld => Idle.of_held hheld h.saved) fun _ => hstopped
  | unsealBlob blob =>
      exact Managed.after_of_contract (R := fun r => Idle dev r.1)
        (held_unsealBlob hfaults hflush hroom .inr) h.held
        (fun _ ctx hheld => Idle.of_held hheld h.saved) fun _ => hstopped
  | finishAttestation place =>
      rw [Managed.respond]
      split
      · rename_i session hplace
        refine Managed.after_of_contract (R := fun r => Idle dev r.1) (held_finishAttestation
          (E := fun _ _ => False) hflush (h.truthful (List.mem_of_getElem? hplace)))
          h.held ?_ fun _ _ => False.elim
        exact fun _ ctx hheld => Idle.of_held hheld fun other hmem =>
          h.saved other (List.mem_of_mem_eraseIdx hmem)
      · exact h
  | readEkCert =>
      refine Managed.after_of_contract (R := fun r => Idle dev r.1)
        (held_readEkCert (fun _ => trivial) fun _ => Eq.refl emptyHolding) h.held ?_ ?_
      · rintro _ ctx ⟨F, -, hheld⟩
        exact Idle.of_held hheld h.saved
      · rintro _ ctx ⟨step, H, rfl, -, hheld⟩
        exact Idle.of_held hheld h.saved

/-- The discipline between operations: no object and no session is loaded, the slots are
empty, every open session has both keys in memory, and no more than two objects were
loaded at once. -/
structure SlotsFree (m : Managed) : Prop where
  objects : m.context.objects.entries = []
  sessions : m.context.sessions.entries = []
  slots : m.context.slots = .none
  saved : ∀ session ∈ m.sessions, session.ekState.IsSaved ∧ session.akState.IsSaved
  peak : m.context.peak ≤ 2

theorem Idle.new (dev : Device) : Idle dev .new :=
  ⟨rfl, rfl, rfl, Nat.zero_le 2, by simp [Managed.new]⟩

theorem Idle.slotsFree {dev : Device} {m : Managed} (h : Idle dev m) : SlotsFree m := by
  refine ⟨h.objects, h.sessions, h.slots, fun session hsession => ⟨?_, ?_⟩, h.peak⟩
  · have hek : session.ekState = _ := h.saved session hsession .ek
    exact hek ▸ trivial
  · have hak : session.akState = _ := h.saved session hsession .ak
    exact hak ▸ trivial

/-- After every run in which all commands succeed and no conversion fails while something
is held, the slots are free. -/
theorem slotsFree_of_run (dev : Device) (turns : List Turn)
    (hcommands : ∀ turn ∈ turns, turn.CommandsSucceed)
    (hpass : ∀ turn ∈ turns, turn.ConversionsPass dev) :
    SlotsFree (Managed.new.run dev false turns) := by
  have hidle : Idle dev (Managed.new.run dev false turns) := Managed.run_induction
    (fun _ turn (hturn : turn.CommandsSucceed ∧ turn.ConversionsPass dev) hm =>
      hm.step hturn.1 hturn.2) (Idle.new dev)
    fun turn hmem => ⟨hcommands turn hmem, hpass turn hmem⟩
  exact hidle.slotsFree

/-- Two sessions, interleaved with sealing and unsealing. -/
def Sample.calls : List Call :=
  [.beginAttestation, .beginAttestation, .sealToPcr (List.replicate 64 0x5A) [0, 7],
    .activate 1 [0x01] [0x02], .quote 0 [0xAA] [0, 7], .unsealBlob ⟨[0x01], [0x02], [0, 7]⟩,
    .finishAttestation 0]

theorem Sample.calls_accepted :
    ∀ call ∈ Sample.calls, ∀ step, ¬ call.Refuses Sample.device step := by
  have hseal : ∀ plaintext pcrIndices, Call.sealToPcr plaintext pcrIndices ∈ Sample.calls →
      plaintext = List.replicate 64 0x5A ∧ pcrIndices = [0, 7] := by simp [Sample.calls]
  have hunseal : ∀ blob, Call.unsealBlob blob ∈ Sample.calls → blob.pcrIndices = [0, 7] := by
    simp [Sample.calls]
  have hrange : ¬ ∃ i ∈ ([0, 7] : List UInt8), 23 < i.toNat := by simp
  intro call hcall step h
  unfold Call.Refuses at h
  split at h
  · exact h _ _ rfl
  · rw [(hseal _ _ hcall).2] at h
    exact hrange h
  · rw [(hseal _ _ hcall).1, List.length_replicate] at h
    exact Nat.lt_irrefl 64 h
  · rw [hunseal _ hcall] at h
    exact hrange h
  · exact h

theorem slotsFree_of_two_sessions :
    SlotsFree (Managed.new.run Sample.device false
      (Sample.calls.map fun call => ⟨call, Sample.env⟩)) := by
  apply slotsFree_of_run
  · intro turn hmem step _
    obtain ⟨call, -, rfl⟩ := List.mem_map.mp hmem
    rfl
  · intro turn hmem step _ _ _
    obtain ⟨call, hcall, rfl⟩ := List.mem_map.mp hmem
    rintro (hfault | hrefuses)
    · exact hfault rfl
    · exact Sample.calls_accepted call hcall step hrefuses

/-- Sealing 65 bytes leaves the storage root key loaded, with every command succeeding. -/
theorem slots_taken_by_long_plaintext :
    ¬ ∀ (dev : Device) (turns : List Turn), (∀ turn ∈ turns, turn.CommandsSucceed) →
      SlotsFree (Managed.new.run dev false turns) := by
  intro h
  have hfree := h Sample.device [⟨.sealToPcr (List.replicate 65 0x5A) [0], Sample.env⟩] (by
    intro turn hmem step _
    rw [List.mem_singleton.mp hmem]
    rfl)
  exact absurd (congrArg List.length hfree.objects) (by decide)

end Fleetos.Tpm
