import FleetosCore.Attestation.Tpm.SessionOperations

/-!
# Runs of a manager

The manager together with the attestation sessions it has open. A call names a session
by its place among the open ones; beginning adds one at the end and finishing takes one
out. Every call meets an environment of its own, so any place may fail in one call and
pass in the next. A call that returns an error keeps the state it had reached.
-/

namespace Fleetos.Tpm

open Effect (Contract)

structure Managed where
  context : Context
  sessions : List ManagedAttestationSession

/-- `TpmContextManager::new`: nothing is loaded yet. -/
def Managed.new : Managed := ⟨.empty, []⟩

inductive Call where
  | beginAttestation
  | activate (session : Nat) (credentialBlob secret : Bytes)
  | quote (session : Nat) (serverNonce : Bytes) (pcrIndices : List UInt8)
  | sealToPcr (plaintext : Bytes) (pcrIndices : List UInt8)
  | unsealBlob (blob : SealedBlob)
  | finishAttestation (session : Nat)
  | readEkCert
  deriving DecidableEq, Repr

structure Turn where
  call : Call
  env : Env

section

variable (dev : Device) (hasResourceManager : Bool) (m : Managed)

/-- The state after an operation on the context, and the error it returned. -/
def Managed.after {α : Type} (result : EStateM.Result TssError Context α)
    (sessions : α → List ManagedAttestationSession) : Managed × Option TssError :=
  match result with
  | .ok a ctx => (⟨ctx, sessions a⟩, none)
  | .error e ctx => (⟨ctx, m.sessions⟩, some e)

/-- The state after an operation on the session at a place. -/
def Managed.afterSession {α : Type} (place : Nat)
    (result : EStateM.Result TssError (Context × ManagedAttestationSession) α) :
    Managed × Option TssError :=
  match result with
  | .ok _ (ctx, session) => (⟨ctx, m.sessions.set place session⟩, none)
  | .error e (ctx, session) => (⟨ctx, m.sessions.set place session⟩, some e)

def Managed.respond (env : Env) : Call → Managed × Option TssError
  | .beginAttestation =>
      m.after (TpmContextManager.beginAttestation dev env hasResourceManager m.context)
        fun session => m.sessions ++ [session]
  | .activate place credentialBlob secret =>
      match m.sessions[place]? with
      | some session =>
          m.afterSession place (TpmContextManager.activate dev env hasResourceManager
            credentialBlob secret (m.context, session))
      | none => (m, none)
  | .quote place serverNonce pcrIndices =>
      match m.sessions[place]? with
      | some session =>
          m.afterSession place (TpmContextManager.quote dev env hasResourceManager serverNonce
            pcrIndices (m.context, session))
      | none => (m, none)
  | .sealToPcr plaintext pcrIndices =>
      m.after (TpmContextManager.sealToPcr dev env plaintext pcrIndices m.context)
        fun _ => m.sessions
  | .unsealBlob blob =>
      m.after (TpmContextManager.unsealBlob dev env blob m.context) fun _ => m.sessions
  | .finishAttestation place =>
      match m.sessions[place]? with
      | some session =>
          m.after (TpmContextManager.finishAttestation env session m.context)
            fun _ => m.sessions.eraseIdx place
      | none => (m, none)
  | .readEkCert =>
      m.after (TpmContextManager.readEkCert env m.context) fun _ => m.sessions

/-- The state after one call. -/
def Managed.step (turn : Turn) : Managed := (m.respond dev hasResourceManager turn.env turn.call).1

/-- The state after a run of calls. -/
def Managed.run (turns : List Turn) : Managed :=
  turns.foldl (fun m turn => m.step dev hasResourceManager turn) m

end

/-- What holds at the start and is kept by every admitted call holds after every run. -/
theorem Managed.run_induction {dev : Device} {hasResourceManager : Bool}
    {admitted : Turn → Prop} {Inv : Managed → Prop}
    (hstep : ∀ m turn, admitted turn → Inv m → Inv (m.step dev hasResourceManager turn))
    {m : Managed} {turns : List Turn} (hm : Inv m) (hturns : ∀ turn ∈ turns, admitted turn) :
    Inv (m.run dev hasResourceManager turns) := by
  induction turns generalizing m with
  | nil => exact hm
  | cons turn turns ih =>
      have hfirst := hstep m turn (hturns turn List.mem_cons_self) hm
      exact ih hfirst fun t ht => hturns t (List.mem_cons_of_mem _ ht)

section

variable {m : Managed} {α : Type} {R : Managed × Option TssError → Prop}

/-- An operation's contract says what the state after it satisfies. -/
theorem Managed.after_of_contract {prog : TpmM α} {P : Context → Prop} {Q : α → Context → Prop}
    {E : TssError → Context → Prop} {sessions : α → List ManagedAttestationSession}
    (hprog : Contract P prog Q E) (hm : P m.context)
    (hok : ∀ a ctx, Q a ctx → R (⟨ctx, sessions a⟩, none))
    (herror : ∀ e ctx, E e ctx → R (⟨ctx, m.sessions⟩, some e)) :
    R (m.after (prog m.context) sessions) := by
  have hrun := hprog m.context hm
  cases hresult : prog m.context with
  | ok a ctx =>
      rw [hresult] at hrun
      exact hok a ctx hrun
  | error e ctx =>
      rw [hresult] at hrun
      exact herror e ctx hrun

theorem Managed.afterSession_of_contract {prog : SessionM α} {place : Nat}
    {session : ManagedAttestationSession} {P : Context × ManagedAttestationSession → Prop}
    {Q : α → Context × ManagedAttestationSession → Prop}
    {E : TssError → Context × ManagedAttestationSession → Prop}
    (hprog : Contract P prog Q E) (hm : P (m.context, session))
    (hok : ∀ a s, Q a s → R (⟨s.1, m.sessions.set place s.2⟩, none))
    (herror : ∀ e s, E e s → R (⟨s.1, m.sessions.set place s.2⟩, some e)) :
    R (m.afterSession place (prog (m.context, session))) := by
  have hrun := hprog _ hm
  cases hresult : prog (m.context, session) with
  | ok a s =>
      rw [hresult] at hrun
      exact hok a s hrun
  | error e s =>
      rw [hresult] at hrun
      exact herror e s hrun

end

/-- The session at a place, among the others. -/
theorem Managed.split_sessions {m : Managed} {place : Nat} {session : ManagedAttestationSession}
    (h : m.sessions[place]? = some session) :
    ∃ before after, m.sessions = before ++ session :: after ∧
      (∀ session', m.sessions.set place session' = before ++ session' :: after) ∧
      m.sessions.eraseIdx place = before ++ after := by
  obtain ⟨hlt, rfl⟩ := List.getElem?_eq_some_iff.mp h
  refine ⟨m.sessions.take place, m.sessions.drop (place + 1), ?_, fun session' => ?_, ?_⟩
  · rw [List.getElem_cons_drop, List.take_append_drop]
  · exact List.set_eq_take_append_cons_drop.trans (if_pos hlt)
  · exact List.eraseIdx_eq_take_drop_succ _ _

/-- The places at which a failing call leaves something behind. -/
def Call.leaky : Call → Step → Bool
  | .beginAttestation => beginLeaky
  | .activate _ _ _ => activateLeaky
  | .sealToPcr _ _ => sealLeaky
  | .unsealBlob _ => unsealLeaky
  | .quote _ _ _ | .finishAttestation _ | .readEkCert => fun _ => false

/-- What a call passes, without holding anything, ahead of a place. -/
def Call.Ahead (env : Env) : Call → Step → Prop
  | .beginAttestation => beginAhead env
  | .activate _ _ _ => activateAhead env
  | .sealToPcr _ pcrIndices => sealAhead env pcrIndices
  | .unsealBlob _ => unsealAhead env
  | .quote _ _ _ | .finishAttestation _ | .readEkCert => fun _ => True

end Fleetos.Tpm
