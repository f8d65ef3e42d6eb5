import FleetosCore.Attestation.Tpm.KeyStates
import FleetosCore.Attestation.Tpm.PlainSession

/-!
# Two clients of a TPM

The manager shares one context between all sessions and moves their keys in and out of the
TPM. A plain client opens a context for every session, and one for every seal and unseal;
these contexts share one TPM, and the keys of its sessions stay loaded in it.

A TPM has few slots for objects and for sessions. What a request needs of them is counted
from what is loaded when the request comes, and a place that finds no slot fails like any
other. With a resource manager in the kernel there is no such limit.
-/

namespace Fleetos.Tpm

open Effect (answer stateAfter)

/-! ## Requests -/

inductive Request where
  | begin
  | ask (place : Nat) (call : SessionCall)
  | finish (place : Nat)
  | sealToPcr (plaintext : Bytes) (pcrIndices : List UInt8)
  | unsealBlob (blob : SealedBlob)
  deriving DecidableEq, Repr

/-- An answer or an error; a request to a session that is not open has no reply. -/
abbrev Reply : Type := Option (Except TssError Answer)

/-- The manager's call. -/
def Request.call : Request → Call
  | .begin => .beginAttestation
  | .ask place (.activate credentialBlob secret) => .activate place credentialBlob secret
  | .ask place (.quote serverNonce pcrIndices) => .quote place serverNonce pcrIndices
  | .ask _ .readEkCert => .readEkCert
  | .finish place => .finishAttestation place
  | .sealToPcr plaintext pcrIndices => .sealToPcr plaintext pcrIndices
  | .unsealBlob blob => .unsealBlob blob

namespace Managed

variable (dev : Device) (hasResourceManager : Bool) (m : Managed) (env : Env)

def ask (session : ManagedAttestationSession) : SessionCall → Except TssError Answer
  | .activate credentialBlob secret =>
      (answer (TpmContextManager.activate dev env hasResourceManager credentialBlob secret
        (m.context, session))).map .activated
  | .quote serverNonce pcrIndices =>
      (answer (TpmContextManager.quote dev env hasResourceManager serverNonce pcrIndices
        (m.context, session))).map .quoted
  | .readEkCert => (answer (TpmContextManager.readEkCert env m.context)).map .ekCert

/-- What the manager replies; the state after the request is that of its call. -/
def reply : Request → Reply
  | .begin =>
      some ((answer (TpmContextManager.beginAttestation dev env hasResourceManager
        m.context)).map fun session => .begun session.akPub session.ekSpki)
  | .ask place call =>
      m.sessions[place]?.map fun session => m.ask dev hasResourceManager env session call
  | .finish place =>
      m.sessions[place]?.map fun session =>
        (answer (TpmContextManager.finishAttestation env session m.context)).map
          fun _ => .finished
  | .sealToPcr plaintext pcrIndices =>
      some ((answer (TpmContextManager.sealToPcr dev env plaintext pcrIndices m.context)).map
        .sealedTo)
  | .unsealBlob blob =>
      some ((answer (TpmContextManager.unsealBlob dev env blob m.context)).map .unsealed)

end Managed

/-! ## Slots -/

/-- What a place needs, together with what the same call has loaded before it. -/
inductive Need where
  | objects (n : Nat)
  | session
  deriving DecidableEq, Repr

/-- The slots of a TPM, and the text of its error where none is free. -/
structure Capacity where
  objects : Nat
  sessions : Nat
  outOfMemory : String

def Capacity.fits (capacity : Capacity) (used : Usage) : Need → Bool
  | .objects n => used.objects + n ≤ capacity.objects
  | .session => used.sessions + 1 ≤ capacity.sessions

/-- Every place finds the slots it needs. -/
def hasRoom (capacity : Option Capacity) (used : Usage) (needs : List (Step × Need)) : Bool :=
  capacity.all fun c => needs.all fun n => c.fits used n.2

/-- Places that find no slot fail as well. -/
def Env.within (env : Env) (capacity : Option Capacity) (used : Usage)
    (needs : List (Step × Need)) : Env :=
  { env with faults := fun step => (env.faults step).or (capacity.bind fun c =>
      if needs.any (fun n => n.1 == step && !c.fits used n.2) then some c.outOfMemory else none) }

/-- What a request needs of any client; `TPM2_Create` works in a slot besides its parent's. -/
def Request.needs : Request → List (Step × Need)
  | .begin => [(.createEk, .objects 1), (.createAk, .objects 2)]
  | .ask _ (.activate _ _) => [(.startSession, .session)]
  | .sealToPcr _ _ => [(.startSession, .session), (.createSrk, .objects 1), (.create, .objects 2)]
  | .unsealBlob _ => [(.createSrk, .objects 1), (.load, .objects 2), (.startSession, .session)]
  | _ => []

/-- A saved key is loaded, after `before` others. -/
def KeyState.needs (role : KeyRole) (before : Nat) : KeyState → List (Step × Need)
  | .live _ => []
  | .saved _ => [(.contextLoad role, .objects (before + 1))]

/-- The manager loads the keys that the call works with. -/
def ManagedAttestationSession.needs (session : ManagedAttestationSession) :
    SessionCall → List (Step × Need)
  | .activate _ _ =>
      let akNeeds := session.akState.needs .ak 0
      akNeeds ++ session.ekState.needs .ek akNeeds.length
  | .quote _ _ => session.akState.needs .ak 0
  | .readEkCert => []

def Managed.needs (m : Managed) : Request → List (Step × Need)
  | .ask place call =>
      (Request.ask place call).needs ++ (m.sessions[place]?.map (·.needs call)).getD []
  | request => request.needs

namespace Managed

variable (dev : Device) (hasResourceManager : Bool) (capacity : Option Capacity) (m : Managed)

/-- One request to a manager that has the TPM to itself. -/
def serve (turn : Request × Env) : Managed × Reply :=
  let env := turn.2.within capacity m.context.usage (m.needs turn.1)
  (m.step dev hasResourceManager ⟨turn.1.call, env⟩, m.reply dev hasResourceManager env turn.1)

/-- The replies to a run of requests, each in its own environment. -/
def replies (m : Managed) : List (Request × Env) → List Reply
  | [] => []
  | turn :: turns =>
      let (m', reply) := m.serve dev hasResourceManager capacity turn
      reply :: m'.replies turns

/-- No request of the run finds a slot missing. -/
def keepsRoom (m : Managed) : List (Request × Env) → Bool
  | [] => true
  | turn :: turns =>
      hasRoom capacity m.context.usage (m.needs turn.1) &&
        (m.serve dev hasResourceManager capacity turn).1.keepsRoom turns

end Managed

/-! ## Sessions with contexts of their own -/

/-- A client that holds every session with a context of its own, and what contexts that it
has closed have left in the TPM. -/
structure Plain where
  sessions : List (AttestationSession × Context)
  left : Usage

def Plain.new : Plain := ⟨[], ⟨0, 0⟩⟩

namespace Plain

variable (dev : Device) (tcti : Tcti) (endpoint : TpmEndpoint) (capacity : Option Capacity)
  (p : Plain) (env : Env)

/-- All that is loaded in the TPM. -/
def usage : Usage := p.sessions.foldr (fun s used => s.2.usage + used) p.left

/-- A session whose `begin` fails is not there. -/
def afterBegin : EStateM.Result TssError Context AttestationSession → Plain × Reply
  | .ok session ctx =>
      ({ p with sessions := p.sessions ++ [(session, ctx)] },
        some (.ok (.begun session.akPub session.ekSpki)))
  | .error e ctx => ({ p with left := tcti.close ctx + p.left }, some (.error e))

def respond : Request → Plain × Reply
  | .begin =>
      match createContext tcti endpoint with
      | .ok ctx => p.afterBegin tcti (AttestationSession.begin dev env ctx)
      | .error e => (p, some (.error e))
  | .ask place call =>
      match p.sessions[place]? with
      | some (session, ctx) =>
          let (ctx', reply) := session.respond dev env ctx call
          ({ p with sessions := p.sessions.set place (session, ctx') }, some reply)
      | none => (p, none)
  | .finish place =>
      match p.sessions[place]? with
      | some (session, ctx) =>
          let result := session.drop env ctx
          (⟨p.sessions.eraseIdx place, tcti.close (stateAfter result) + p.left⟩,
            some ((answer result).map fun _ => .finished))
      | none => (p, none)
  | .sealToPcr plaintext pcrIndices =>
      let (result, left) := sealToPcr dev tcti endpoint env plaintext pcrIndices
      ({ p with left := left + p.left }, some (result.map .sealedTo))
  | .unsealBlob blob =>
      let (result, left) := unsealBlob dev tcti endpoint env blob
      ({ p with left := left + p.left }, some (result.map .unsealed))

/-- One request to a client whose contexts share the TPM. -/
def serve (turn : Request × Env) : Plain × Reply :=
  p.respond dev tcti endpoint (turn.2.within capacity p.usage turn.1.needs) turn.1

def replies (p : Plain) : List (Request × Env) → List Reply
  | [] => []
  | turn :: turns =>
      let (p', reply) := p.serve dev tcti endpoint capacity turn
      reply :: p'.replies turns

/-- No request of the run finds a slot missing. -/
def keepsRoom (p : Plain) : List (Request × Env) → Bool
  | [] => true
  | turn :: turns =>
      hasRoom capacity p.usage turn.1.needs &&
        (p.serve dev tcti endpoint capacity turn).1.keepsRoom turns

end Plain

/-! ## Requests that find their slots -/

section

variable {capacity : Option Capacity} {used : Usage} {needs : List (Step × Need)} {env : Env}
  {step : Step} {need : Need}

/-- Where nothing is missing, the environment is as it was. -/
theorem Env.within_eq (h : hasRoom capacity used needs) : env.within capacity used needs = env := by
  have hnone : ∀ step, (capacity.bind fun c => if needs.any
      (fun n => n.1 == step && !c.fits used n.2) then some c.outOfMemory else none) = none := by
    intro step
    cases capacity with
    | none => rfl
    | some c =>
        refine if_neg fun hany => ?_
        obtain ⟨n, hn, hmiss⟩ := List.any_eq_true.mp hany
        rw [List.all_eq_true.mp h n hn, Bool.not_true, Bool.and_false] at hmiss
        cases hmiss
  simp only [Env.within, hnone, Option.or_none]

theorem Managed.serve_of_hasRoom {dev : Device} {hasResourceManager : Bool} {m : Managed}
    {turn : Request × Env} (h : hasRoom capacity m.context.usage (m.needs turn.1)) :
    m.serve dev hasResourceManager capacity turn =
      (m.step dev hasResourceManager ⟨turn.1.call, turn.2⟩,
        m.reply dev hasResourceManager turn.2 turn.1) := by
  rw [Managed.serve, Env.within_eq h]

theorem Plain.serve_of_hasRoom {dev : Device} {tcti : Tcti} {endpoint : TpmEndpoint} {p : Plain}
    {turn : Request × Env} (h : hasRoom capacity p.usage turn.1.needs) :
    p.serve dev tcti endpoint capacity turn = p.respond dev tcti endpoint turn.2 turn.1 := by
  rw [Plain.serve, Env.within_eq h]

end

end Fleetos.Tpm
