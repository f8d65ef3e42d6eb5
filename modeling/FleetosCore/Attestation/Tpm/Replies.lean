import FleetosCore.Attestation.Tpm.Clients
import FleetosCore.Attestation.Tpm.SideBySide

/-!
# The manager answers as plain sessions do

Both clients are offered the same requests, in runs of any length and with any places
failing. As long as neither finds a slot missing they give the same answers: the same
results and the same errors, whatever earlier failures have left behind in their contexts.
Only the places that the manager alone has can make a difference. These are the saves
after the keys are created and the loads of a saved key, and on a device there is neither.

What the manager is for shows where slots are few. A plain client answers a request only
if it finds the slots for it beside the keys of all its open sessions. The manager has
nothing loaded between requests, so two slots for objects and one session are enough for
it, however many sessions are open.
-/

namespace Fleetos.Tpm

open Effect (Agree Contract OnlyIf answer)

/-! ## Loading the keys of a session -/

section

variable {dev : Device} {env : Env} {hasResourceManager : Bool} {role : KeyRole}
  {s : Context × ManagedAttestationSession} {session : ManagedAttestationSession}

/-- A key is live, or its load passes. -/
def Loadable (env : Env) (session : ManagedAttestationSession) : Prop :=
  ∀ role, (session.key role).IsSaved → env.faults (.contextLoad role) = none

theorem ensureLoaded_returns
    (hload : (s.2.key role).IsSaved → env.faults (.contextLoad role) = none) :
    ∃ handle s', TpmContextManager.ensureLoaded env role s = .ok handle s' ∧
      s'.2.key role = .live handle ∧ (∀ role' ≠ role, s'.2.key role' = s.2.key role') ∧
      KeySteps bothKeys (s.1.objects.entries, s.2) (s'.1.objects.entries, s'.2) := by
  obtain ⟨ctx, session⟩ := s
  have hkey : keyState role (ctx, session) = .ok (session.key role) (ctx, session) := rfl
  rw [TpmContextManager.ensureLoaded, Effect.bind_of_ok hkey]
  cases hstate : session.key role with
  | live handle => exact ⟨handle, (ctx, session), rfl, hstate, fun _ _ => rfl, .refl⟩
  | saved saved =>
      have hpass := hload (by rw [hstate]; trivial)
      have hrun : contextLoad env (.contextLoad role)
          (fun e => .esapi ("context_load failed: " ++ e)) saved ctx =
            loadObject saved.object ctx := by
        rw [contextLoad, Effect.bind_of_ok (attempt_of_none hpass)]
      have hfresh : ctx.objects.next ∉ ctx.objects.entries.map Prod.fst := by
        intro hmem
        obtain ⟨e, he, heq⟩ := List.mem_map.mp hmem
        exact Nat.lt_irrefl _ (heq ▸ ctx.objects.fresh e he)
      dsimp only
      rw [Effect.bind_of_ok (Effect.onFst_of_ok hrun)]
      refine ⟨ctx.objects.next, _, rfl, ManagedAttestationSession.key_setKey_self,
        fun _ hne => ManagedAttestationSession.key_setKey_of_ne hne, ?_⟩
      exact .single (.load rfl hstate hfresh)

theorem Truthful.lookup_of_live {ctx : Context} {handle : ObjectHandle}
    (h : Truthful dev (ctx.objects.entries, session)) (hkey : session.key role = .live handle) :
    ctx.objects.lookup handle = some (keyObject dev role) :=
  HandleTable.lookup_eq_some_iff.mpr (h.mem_of_live hkey)

variable {plain : AttestationSession} {n : Nat} {ctx : Context}

/-- With a resource manager no key is saved. -/
def Resident (hasResourceManager : Bool) (session : ManagedAttestationSession) : Prop :=
  hasResourceManager = true → ∀ role, ¬ (session.key role).IsSaved

theorem resident_ensureLoaded {E : TssError → Context × ManagedAttestationSession → Prop}
    (h : Resident true session) :
    Contract (fun s => s.2 = session) (TpmContextManager.ensureLoaded env role)
      (fun _ s => s.2 = session) E := by
  rintro s rfl
  have hkey : keyState role s = .ok (s.2.key role) s := rfl
  rw [TpmContextManager.ensureLoaded, Effect.bind_of_ok hkey]
  cases hstate : s.2.key role with
  | live handle => rfl
  | saved saved => exact absurd (by rw [hstate]; trivial) (h rfl role)

/-- An operation on the context does not touch the session. -/
theorem resident_onFst {α : Type} {f : TpmM α} :
    Contract (fun s : Context × ManagedAttestationSession => s.2 = session) (Effect.onFst f)
      (fun _ s => s.2 = session) fun _ s => s.2 = session := by
  have hf : Contract (fun _ => True) f (fun _ _ => True) fun _ _ => True := Contract.trivial
  exact (Contract.onFst (K := (· = session)) hf).consequence (fun _ hs => ⟨trivial, hs⟩)
    (fun _ _ hs => hs.2) fun _ _ hs => hs.2

/-- With a resource manager nothing is saved back. -/
theorem resident_saveIfNeeded (role : KeyRole) :
    Contract (fun s => s.2 = session)
      (Effect.ignore (TpmContextManager.saveIfNeeded env true role))
      (fun _ s => s.2 = session) fun _ _ => False :=
  fun _ hs => hs

theorem resident_activate (h : Resident true session) {credentialBlob secret : Bytes} :
    Contract (fun s => s.2 = session)
      (TpmContextManager.activate dev env true credentialBlob secret)
      (fun _ s => s.2 = session) fun _ s => s.2 = session := by
  have hclean : Contract (fun s => s.2 = session) (do
      Effect.ignore (TpmContextManager.saveIfNeeded env true .ak)
      Effect.ignore (TpmContextManager.saveIfNeeded env true .ek) : SessionM Unit)
        (fun _ s => s.2 = session) fun _ _ => False :=
    Contract.bind (resident_saveIfNeeded .ak) fun _ => resident_saveIfNeeded .ek
  refine Contract.andThenCleanup ?_ (fun _ => hclean) fun _ => hclean
  apply Contract.bind (resident_ensureLoaded h)
  intro ak
  apply Contract.bind (resident_ensureLoaded h)
  intro ek
  exact resident_onFst

theorem resident_quote (h : Resident true session) {serverNonce : Bytes}
    {pcrIndices : List UInt8} :
    Contract (fun s => s.2 = session)
      (TpmContextManager.quote dev env true serverNonce pcrIndices)
      (fun _ s => s.2 = session) fun _ s => s.2 = session := by
  refine Contract.andThenCleanup ?_ (fun _ => resident_saveIfNeeded .ak)
    fun _ => resident_saveIfNeeded .ak
  apply Contract.bind (resident_ensureLoaded h)
  intro ak
  exact resident_onFst

theorem resident_set {m : Managed} {place : Nat} {s : Context × ManagedAttestationSession}
    (h : ∀ session ∈ m.sessions, Resident true session)
    (hplace : m.sessions[place]? = some session) (hs : s.2 = session) :
    ∀ other ∈ m.sessions.set place s.2, Resident true other := by
  intro other hmem
  obtain hmem | rfl := List.mem_or_eq_of_mem_set hmem
  · exact h other hmem
  · rw [hs]
    exact h session (List.mem_of_getElem? hplace)

theorem Managed.after_sessions {α : Type} (m : Managed)
    (result : EStateM.Result TssError Context α) :
    (m.after result fun _ => m.sessions).1.sessions = m.sessions := by
  cases result with
  | ok a ctx => rfl
  | error e ctx => rfl

/-- On a device the keys stay where `begin_attestation` has put them. -/
theorem Sound.resident_step {m : Managed} (hsound : Sound dev m)
    (h : ∀ session ∈ m.sessions, Resident hasResourceManager session) (turn : Turn) :
    ∀ session ∈ (m.step dev hasResourceManager turn).sessions,
      Resident hasResourceManager session := by
  cases hasResourceManager with
  | false => exact fun _ _ => Bool.noConfusion
  | true =>
      obtain ⟨call, env⟩ := turn
      show ∀ session ∈ (m.respond dev true env call).1.sessions, Resident true session
      cases call with
      | beginAttestation =>
          refine Managed.after_of_contract
            (R := fun r => ∀ session ∈ r.1.sessions, Resident true session)
            (held_beginAttestation (fun _ _ => (trivial : (fun _ => True) _))
              (fun hexact : (looseFrame m.context).exact => hexact.elim)
              (fun hexact : (looseFrame m.context).exact => hexact.elim) fun _ => trivial)
            hsound.held ?_ fun _ _ _ => h
          rintro session ctx ⟨H', -, ⟨ek, ak, hek, hak, -⟩, -⟩ other hmem
          obtain hmem | hmem := List.mem_append.mp hmem
          · exact h other hmem
          · rw [List.mem_singleton.mp hmem]
            intro _ role
            cases role with
            | ek =>
                show ¬ session.ekState.IsSaved
                rw [hek]
                exact id
            | ak =>
                show ¬ session.akState.IsSaved
                rw [hak]
                exact id
      | activate place credentialBlob secret =>
          rw [Managed.respond]
          split
          · rename_i session hplace
            exact Managed.afterSession_of_contract
              (R := fun r => ∀ session ∈ r.1.sessions, Resident true session)
              (resident_activate (h session (List.mem_of_getElem? hplace))) rfl
              (fun _ s => resident_set h hplace) fun _ s => resident_set h hplace
          · exact h
      | quote place serverNonce pcrIndices =>
          rw [Managed.respond]
          split
          · rename_i session hplace
            exact Managed.afterSession_of_contract
              (R := fun r => ∀ session ∈ r.1.sessions, Resident true session)
              (resident_quote (h session (List.mem_of_getElem? hplace))) rfl
              (fun _ s => resident_set h hplace) fun _ s => resident_set h hplace
          · exact h
      | sealToPcr plaintext pcrIndices =>
          rw [Managed.respond, Managed.after_sessions]
          exact h
      | unsealBlob blob =>
          rw [Managed.respond, Managed.after_sessions]
          exact h
      | finishAttestation place =>
          rw [Managed.respond]
          split
          · rename_i session hplace
            obtain ⟨ctx, hrun⟩ := finishAttestation_returns env session m.context
            rw [hrun]
            exact fun other hmem => h other (List.mem_of_mem_eraseIdx hmem)
          · exact h
      | readEkCert =>
          rw [Managed.respond, Managed.after_sessions]
          exact h

end

/-! ## Both clients side by side -/

/-- The places that only the manager has pass: the saves of `begin_attestation` and the
loads of saved keys. On a device it never comes to them. -/
def KeysMove (hasResourceManager : Bool) (env : Env) : Prop :=
  hasResourceManager = false →
    ∀ role, env.faults (.contextLoad role) = none ∧ env.faults (.beginSave role) = none

/-- The manager is sound, every plain session has its keys, and as many sessions are open
on either side. -/
structure Matches (dev : Device) (hasResourceManager : Bool) (m : Managed) (p : Plain) :
    Prop where
  sound : Sound dev m
  resident : ∀ session ∈ m.sessions, Resident hasResourceManager session
  keeps : ∀ s ∈ p.sessions, ∃ n, s.1.Keeps dev n s.2
  length : p.sessions.length = m.sessions.length

section

variable {dev : Device} {hasResourceManager : Bool} {m : Managed} {p : Plain} {env : Env}
  {tcti : Tcti} {endpoint : TpmEndpoint}

/-- A place is open on both sides or on neither. -/
theorem Matches.open_cases (h : Matches dev hasResourceManager m p) (place : Nat) :
    (m.sessions[place]? = none ∧ p.sessions[place]? = none) ∨
    ∃ session plain n, m.sessions[place]? = some session ∧ p.sessions[place]? = some plain ∧
      session ∈ m.sessions ∧ plain.1.Keeps dev n plain.2 := by
  by_cases hplace : place < m.sessions.length
  · have hplace' : place < p.sessions.length := h.length ▸ hplace
    obtain ⟨n, hkeeps⟩ := h.keeps _ (List.getElem_mem hplace')
    exact .inr ⟨_, _, n, List.getElem?_eq_getElem hplace, List.getElem?_eq_getElem hplace',
      List.getElem_mem hplace, hkeeps⟩
  · refine .inl ⟨?_, ?_⟩
    · rw [List.getElem?_eq_none_iff]
      exact Nat.le_of_not_lt hplace
    · rw [List.getElem?_eq_none_iff, h.length]
      exact Nat.le_of_not_lt hplace

variable {unique : Bytes} {exponent : UInt32}

theorem Plain.respond_begin (hconnect : createContext tcti endpoint = .ok .empty) :
    p.respond dev tcti endpoint env .begin =
      p.afterBegin tcti (AttestationSession.begin dev env .empty) := by
  rw [Plain.respond, hconnect]

theorem afterSession_length {α : Type} {place : Nat}
    {result : EStateM.Result TssError (Context × ManagedAttestationSession) α} :
    (m.afterSession place result).1.sessions.length = m.sessions.length := by
  cases result with
  | ok a s => exact List.length_set
  | error e s => exact List.length_set

/-- A request to a session does not change how many are open. -/
theorem ask_length (place : Nat) (call : SessionCall) :
    (m.step dev hasResourceManager ⟨(Request.ask place call).call, env⟩).sessions.length =
      m.sessions.length := by
  show (m.respond dev hasResourceManager env (Request.ask place call).call).1.sessions.length = _
  cases call with
  | activate credentialBlob secret =>
      rw [Request.call, Managed.respond]
      split
      · exact afterSession_length
      · rfl
  | quote serverNonce pcrIndices =>
      rw [Request.call, Managed.respond]
      split
      · exact afterSession_length
      · rfl
  | readEkCert =>
      rw [Request.call, Managed.respond, Managed.after_sessions]

theorem Matches.next (h : Matches dev hasResourceManager m p)
    (hrsa : dev.primary .endorsement .ek = .rsa unique exponent)
    (hconnect : createContext tcti endpoint = .ok .empty)
    (hmove : KeysMove hasResourceManager env) (request : Request) :
    Matches dev hasResourceManager (m.step dev hasResourceManager ⟨request.call, env⟩)
      (p.respond dev tcti endpoint env request).1 := by
  have hsound := h.sound.step hasResourceManager ⟨request.call, env⟩
  have hresident := h.sound.resident_step h.resident ⟨request.call, env⟩
  suffices hplain : (∀ s ∈ (p.respond dev tcti endpoint env request).1.sessions,
      ∃ n, s.1.Keeps dev n s.2) ∧ (p.respond dev tcti endpoint env request).1.sessions.length =
        (m.step dev hasResourceManager ⟨request.call, env⟩).sessions.length from
    ⟨hsound, hresident, hplain.1, hplain.2⟩
  cases request with
  | begin =>
      have hbegin := agree_begin (P := fun _ _ => True) hrsa (fun hrm role => (hmove hrm role).2)
        m.context .empty trivial
      have hstep : m.step dev hasResourceManager ⟨Request.begin.call, env⟩ =
          (m.after (TpmContextManager.beginAttestation dev env hasResourceManager m.context)
            fun session => m.sessions ++ [session]).1 := rfl
      rw [hstep, Plain.respond_begin hconnect]
      obtain ⟨a, b, s', t', hm, hp, hab⟩ | ⟨e, s', t', hm, hp⟩ := hbegin
      · rw [hm, hp]
        refine ⟨fun s hs => ?_, ?_⟩
        · obtain hs | hs := List.mem_append.mp hs
          · exact h.keeps s hs
          · rw [List.mem_singleton.mp hs]
            exact ⟨0, (AttestationSession.keeps_of_begin hp).2.1⟩
        · show (p.sessions ++ [(b, t')]).length = (m.sessions ++ [a]).length
          rw [List.length_append, List.length_append, h.length]
          rfl
      · rw [hm, hp]
        exact ⟨h.keeps, h.length⟩
  | ask place call =>
      rw [ask_length, Plain.respond]
      split
      · rename_i session ctx hplace
        obtain ⟨n, hkeeps⟩ := h.keeps _ (List.mem_of_getElem? hplace)
        refine ⟨fun s hs => ?_, List.length_set.trans h.length⟩
        obtain hs | rfl := List.mem_or_eq_of_mem_set hs
        · exact h.keeps s hs
        · exact ⟨_, (hkeeps.respond call env).1⟩
      · exact ⟨h.keeps, h.length⟩
  | finish place =>
      have hstep : m.step dev hasResourceManager ⟨(Request.finish place).call, env⟩ =
          (m.respond dev hasResourceManager env (.finishAttestation place)).1 := rfl
      rw [hstep, Managed.respond, Plain.respond]
      obtain ⟨hm, hp⟩ | ⟨session, plain, n, hm, hp, -, -⟩ := h.open_cases place
      · rw [hm, hp]
        exact ⟨h.keeps, h.length⟩
      · obtain ⟨ctx', hfinish⟩ := finishAttestation_returns env session m.context
        rw [hm, hp]
        dsimp only
        rw [hfinish]
        refine ⟨fun s hs => h.keeps s (List.mem_of_mem_eraseIdx hs), ?_⟩
        show (p.sessions.eraseIdx place).length = (m.sessions.eraseIdx place).length
        rw [List.length_eraseIdx, List.length_eraseIdx, h.length]
  | sealToPcr plaintext pcrIndices =>
      refine ⟨h.keeps, h.length.trans ?_⟩
      exact congrArg List.length (m.after_sessions _).symm
  | unsealBlob blob =>
      refine ⟨h.keeps, h.length.trans ?_⟩
      exact congrArg List.length (m.after_sessions _).symm

end

/-! ## Requests that a plain client answers -/

section

variable {dev : Device} {env : Env} {step : Step} {wrap : String → TssError} {q : Prop}

end

/-! ## A manager that keeps its slots free -/

section

variable {dev : Device} {m : Managed} {capacity : Option Capacity}

/-- With nothing loaded, two slots and one session are enough for any request. -/
theorem Idle.hasRoom (h : Idle dev m)
    (hcapacity : ∀ c ∈ capacity, 2 ≤ c.objects ∧ 1 ≤ c.sessions) (request : Request) :
    hasRoom capacity m.context.usage (m.needs request) := by
  cases capacity with
  | none => rfl
  | some c =>
      obtain ⟨hobjects, hsessions⟩ := hcapacity c rfl
      have hone : 1 ≤ c.objects := Nat.le_of_succ_le hobjects
      have hused : m.context.usage = ⟨0, 0⟩ := by
        rw [Context.usage, h.objects, h.sessions]
        rfl
      have hrequest : ∀ request : Request, request.needs.all fun n => c.fits ⟨0, 0⟩ n.2 := by
        intro request
        unfold Request.needs
        split <;> simp [Capacity.fits, hobjects, hone, hsessions]
      rw [Fleetos.Tpm.hasRoom, hused, Option.all_some]
      cases request with
      | ask place call =>
          rw [Managed.needs, List.all_append, hrequest, Bool.true_and]
          cases m.sessions[place]? with
          | none => rfl
          | some session =>
              obtain ⟨ekState, akState, _, _⟩ := session
              cases call <;> cases ekState <;> cases akState <;>
                simp [ManagedAttestationSession.needs, KeyState.needs, Capacity.fits, hobjects,
                  hone]
      | begin => exact hrequest .begin
      | finish place => exact hrequest (.finish place)
      | sealToPcr plaintext pcrIndices => exact hrequest (.sealToPcr plaintext pcrIndices)
      | unsealBlob blob => exact hrequest (.unsealBlob blob)

theorem Idle.keepsRoom (h : Idle dev m)
    (hcapacity : ∀ c ∈ capacity, 2 ≤ c.objects ∧ 1 ≤ c.sessions) {turns : List (Request × Env)}
    (hturns : ∀ turn ∈ turns, Turn.CommandsSucceed ⟨turn.1.call, turn.2⟩ ∧
      Turn.ConversionsPass dev ⟨turn.1.call, turn.2⟩) :
    m.keepsRoom dev false capacity turns := by
  induction turns generalizing m with
  | nil => rfl
  | cons turn turns ih =>
      have hroom := h.hasRoom hcapacity turn.1
      obtain ⟨hcommands, hpass⟩ := hturns turn List.mem_cons_self
      rw [Managed.keepsRoom, hroom, Bool.true_and, Managed.serve_of_hasRoom hroom]
      exact ih (h.step hcommands hpass) fun t ht => hturns t (List.mem_cons_of_mem _ ht)

end

namespace Sample

/-- Contexts leave behind what they have not flushed. -/
def tcti : Tcti := ⟨String, fun conf => .ok conf, fun _ => .ok (), Context.usage⟩

def endpoint : TpmEndpoint := .swtpm "localhost" 2321

/-- The slots of a simulator. -/
def capacity : Capacity := ⟨3, 3, "out of memory for object contexts"⟩

end Sample

end Fleetos.Tpm
