import FleetosCore.Attestation.Tpm.Rollback
import FleetosCore.Attestation.Tpm.SlotDiscipline
import FleetosCore.Library.Agreement

/-!
# Sessions with a context of their own

`AttestationSession` of `src/attestation/tpm.rs`, and the functions beside it that open a
context for one operation. A session keeps both keys loaded from `begin` to its drop, so
nothing is saved or loaded in between: whatever fails, the loaded objects are its two
keys. Policy sessions are another matter. An activation that stops after its policy
session is started leaves it open, and so does one whose flush fails; which activations
do is decided by their environments alone.
-/

namespace Fleetos.Tpm

open Effect (Contract)

/-! ## Contexts -/

inductive TpmEndpoint where
  | device (path : String)
  | swtpm (host : String) (port : UInt16)
  | mssim (host : String) (port : UInt16)
  deriving DecidableEq, Repr

namespace TpmEndpoint

/-- The text of the TCTI configuration. -/
def tctiStr : TpmEndpoint → String
  | .device path => "device:" ++ path
  | .swtpm host port => "swtpm:host=" ++ host ++ ",port=" ++ toString port
  | .mssim host port => "mssim:host=" ++ host ++ ",port=" ++ toString port

/-- The kernel manages the slots of a device. -/
def hasResourceManager : TpmEndpoint → Bool
  | .device _ => true
  | _ => false

end TpmEndpoint

/-- How many objects and sessions are loaded. -/
structure Usage where
  objects : Nat
  sessions : Nat
  deriving DecidableEq, Repr

instance : Add Usage := ⟨fun a b => ⟨a.objects + b.objects, a.sessions + b.sessions⟩⟩

def Context.usage (ctx : Context) : Usage :=
  ⟨ctx.objects.entries.length, ctx.sessions.entries.length⟩

/-- The library's part in opening and closing a context. -/
structure Tcti where
  NameConf : Type
  fromStr : String → Except String NameConf
  /-- `Context::new`, up to the new context itself. -/
  connect : NameConf → Except String Unit
  /-- What stays loaded in the TPM when a context is dropped. -/
  close : Context → Usage

section

variable (tcti : Tcti) (endpoint : TpmEndpoint)

def buildTctiNameConf : Except TssError tcti.NameConf :=
  (tcti.fromStr endpoint.tctiStr).mapError fun e => .esapi ("TCTI parse failed: " ++ e)

/-- A new context has nothing loaded. -/
def createContext : Except TssError Context := do
  let nameConf ← buildTctiNameConf tcti endpoint
  (tcti.connect nameConf).mapError .esapi
  return .empty

end

/-! ## Operations -/

inductive SessionCall where
  | activate (credentialBlob secret : Bytes)
  | quote (serverNonce : Bytes) (pcrIndices : List UInt8)
  | readEkCert
  deriving DecidableEq, Repr

/-- What a call returns. -/
inductive Answer where
  | begun (akPub ekPub : Bytes)
  | activated (recovered : Bytes)
  | quoted (out : QuoteOutput)
  | ekCert (cert : Option Bytes)
  | sealedTo (blob : SealedBlob)
  | unsealed (data : Bytes)
  | finished
  deriving DecidableEq, Repr

namespace AttestationSession

variable (dev : Device) (env : Env)

/-- `AttestationSession::begin` in the context it has opened. -/
def begin : TpmM AttestationSession := do
  let ekPublic ← ekTemplate env
  let (ekHandle, ekOut) ← executeWithNullauthSession <|
    createPrimary dev env .createEk (fun e => .esapi ("create EK primary failed: " ++ e))
      .endorsement ekPublic
  let (ekModulus, ekExponent) ← extractRsaPublic ekOut
  let ekSpki := rsaPublicToSpki ekModulus ekExponent
  let akPublic ← akTemplate env
  let (akHandle, akOut) ← executeWithNullauthSession <|
    createPrimary dev env .createAk (fun e => .esapi ("create AK primary failed: " ++ e))
      .endorsement akPublic
  attempt env .marshalAk fun e => .invalidAk ("marshal AK public failed: " ++ e)
  let akPub := dev.marshall akOut
  return ⟨akHandle, ekHandle, akPub, ekSpki⟩

variable (session : AttestationSession)

/-- The manager's `activate_inner` has the same body once it has loaded the keys. -/
def activate (credentialBlob secret : Bytes) : TpmM Bytes :=
  TpmContextManager.activateLoaded dev env session.akHandle session.ekHandle credentialBlob secret

/-- The same body as the manager's `read_ek_cert`. -/
def readEkCert : TpmM (Option Bytes) := TpmContextManager.readEkCert env

/-- `Drop::drop`. -/
def drop : TpmM Unit := do
  flushObject env (.flushKey .ak) session.akHandle
  flushObject env (.flushKey .ek) session.ekHandle

/-- The state after a call, and its answer. -/
def respond (ctx : Context) : SessionCall → Context × Except TssError Answer
  | .activate credentialBlob secret =>
      let result := session.activate dev env credentialBlob secret ctx
      (Effect.stateAfter result, (Effect.answer result).map .activated)
  | .quote serverNonce pcrIndices =>
      let result := session.quote dev env serverNonce pcrIndices ctx
      (Effect.stateAfter result, (Effect.answer result).map .quoted)
  | .readEkCert =>
      let result := readEkCert env ctx
      (Effect.stateAfter result, (Effect.answer result).map .ekCert)

/-- The context after a run of calls, each in its own environment. -/
def run (ctx : Context) (turns : List (SessionCall × Env)) : Context :=
  turns.foldl (fun ctx turn => (session.respond dev turn.2 ctx turn.1).1) ctx

end AttestationSession

section

variable (dev : Device) (tcti : Tcti) (endpoint : TpmEndpoint) (env : Env)

/-- The answer of an operation in a context of its own, and what this context leaves loaded
when it is dropped. -/
def inOwnContext {α : Type} (operation : TpmM α) : Except TssError α × Usage :=
  match createContext tcti endpoint with
  | .ok context =>
      let result := operation context
      (Effect.answer result, tcti.close (Effect.stateAfter result))
  | .error e => (.error e, ⟨0, 0⟩)

/-- `seal_to_pcr` in a context of its own; the body is the manager's. -/
def sealToPcr (plaintext : Bytes) (pcrIndices : List UInt8) : Except TssError SealedBlob × Usage :=
  inOwnContext tcti endpoint (TpmContextManager.sealToPcr dev env plaintext pcrIndices)

/-- `unseal` in a context of its own; the body is the manager's. -/
def unsealBlob (blob : SealedBlob) : Except TssError Bytes × Usage :=
  inOwnContext tcti endpoint (TpmContextManager.unsealBlob dev env blob)

end

/-! ## What a session has loaded -/

namespace AttestationSession

/-- The two keys, in the order they were created. -/
def keyEntries (dev : Device) (session : AttestationSession) : List (ObjectHandle × Object) :=
  [(session.ekHandle, keyObject dev .ek), (session.akHandle, keyObject dev .ak)]

/-- An activation comes as far as starting its policy session. -/
def PolicySessionStarts (env : Env) : Prop :=
  env.faults .idObject = none ∧ env.faults .encryptedSecret = none ∧
    env.faults .startSession = none ∧ env.faults .allocateSession = none

/-- From there it comes to the flush, and the flush succeeds. -/
def PolicySessionFlushed (env : Env) : Prop :=
  env.faults .convertSession = none ∧ env.faults .policySecret = none ∧
    env.faults .activateCredential = none ∧ env.faults .flushSession = none

instance (env : Env) : Decidable (PolicySessionStarts env) := inferInstanceAs (Decidable (_ ∧ _))

instance (env : Env) : Decidable (PolicySessionFlushed env) := inferInstanceAs (Decidable (_ ∧ _))

/-- An activation comes to the command itself, with its sessions in the slots. -/
def Authorised (env : Env) : Prop :=
  PolicySessionStarts env ∧ env.faults .convertSession = none ∧ env.faults .policySecret = none

/-- The call leaves a policy session open. -/
def leavesOpen : SessionCall × Env → Bool
  | (.activate _ _, env) => decide (PolicySessionStarts env ∧ ¬ PolicySessionFlushed env)
  | _ => false

/-- What a call leaves in the session slots. An activation that the TPM refuses leaves the
password and its policy session there, which is still open. -/
def LeavesSlots (before : Slots) (ctx : Context) : SessionCall × Env → Prop
  | (.activate _ _, env) =>
      (¬ Authorised env ∧ ctx.slots = before) ∨
      (Authorised env ∧ env.faults .activateCredential = none ∧ ctx.slots = .none) ∨
      (Authorised env ∧ env.faults .activateCredential ≠ none ∧ ∃ handle kind,
        ctx.sessions.lookup handle = some kind ∧
          ctx.slots = ⟨some .password, some (.session handle), none⟩)
  | _ => ctx.slots = before

/-- The keys are loaded and nothing else is, no handle was used that is not loaded, and
`n` policy sessions are open. -/
structure Keeps (dev : Device) (session : AttestationSession) (n : Nat) (ctx : Context) :
    Prop where
  objects : ctx.objects.entries = session.keyEntries dev
  sessions : ctx.sessions.entries.length = n
  stale : ctx.staleUses = []
  peak : ctx.peak ≤ 2

/-- One more policy session is open, at a known handle. -/
def Opens (dev : Device) (session : AttestationSession) (n : Nat) (handle : SessionHandle)
    (ctx : Context) : Prop :=
  Keeps dev session (n + 1) ctx ∧ ∃ kind, (handle, kind) ∈ ctx.sessions.entries

section

variable {dev : Device} {env : Env} {session : AttestationSession} {n : Nat} {ctx : Context}
  {step : Step} {wrap : String → TssError} {handle : SessionHandle}

theorem Keeps.lookup (h : Keeps dev session n ctx) :
    ctx.objects.lookup session.ekHandle = some (keyObject dev .ek) ∧
      ctx.objects.lookup session.akHandle = some (keyObject dev .ak) := by
  refine ⟨HandleTable.lookup_eq_some_iff.mpr ?_, HandleTable.lookup_eq_some_iff.mpr ?_⟩
  · rw [h.objects, keyEntries]
    exact List.mem_cons_self
  · rw [h.objects, keyEntries]
    exact List.mem_cons_of_mem _ List.mem_cons_self

/-- A place passes or fails as its environment says; neither changes a predicate that
does not look at the failures. -/
theorem contract_attempt {P : Context → Prop}
    (hP : ∀ ctx, P ctx → P { ctx with failed := ctx.failed ++ [step] }) :
    Contract P (attempt env step wrap) (fun _ ctx => env.faults step = none ∧ P ctx)
      fun _ ctx => env.faults step ≠ none ∧ P ctx := by
  intro ctx hctx
  cases hfault : env.faults step with
  | none =>
      rw [attempt_of_none hfault]
      exact ⟨rfl, hctx⟩
  | some e =>
      rw [attempt_of_some hfault]
      exact ⟨Option.some_ne_none e, hP ctx hctx⟩

/-- A contract that does not look at the slots holds under a null-auth session. -/
theorem contract_nullauth {α : Type} {P : Context → Prop} {Q : α → Context → Prop}
    {E : TssError → Context → Prop} {f : TpmM α}
    (hP : ∀ ctx slots, P ctx → P { ctx with slots := slots })
    (hQ : ∀ a ctx slots, Q a ctx → Q a { ctx with slots := slots })
    (hE : ∀ e ctx slots, E e ctx → E e { ctx with slots := slots }) (hf : Contract P f Q E) :
    Contract P (executeWithNullauthSession f) Q E := by
  intro ctx hctx
  have hrun := hf _ (hP ctx ⟨some .nullauth, none, none⟩ hctx)
  rw [executeWithNullauthSession]
  cases hf' : f { ctx with slots := ⟨some .nullauth, none, none⟩ } with
  | ok a ctx' =>
      rw [hf'] at hrun
      exact hQ a ctx' ctx.slots hrun
  | error e ctx' =>
      rw [hf'] at hrun
      exact hE e ctx' ctx.slots hrun

theorem Keeps.failed (h : Keeps dev session n ctx) (failed : List Step) :
    Keeps dev session n { ctx with failed := failed } :=
  ⟨h.objects, h.sessions, h.stale, h.peak⟩

theorem Keeps.slots (h : Keeps dev session n ctx) (slots : Slots) :
    Keeps dev session n { ctx with slots := slots } :=
  ⟨h.objects, h.sessions, h.stale, h.peak⟩

theorem Opens.failed (h : Opens dev session n handle ctx) (failed : List Step) :
    Opens dev session n handle { ctx with failed := failed } :=
  ⟨h.1.failed failed, h.2⟩

theorem Opens.slots (h : Opens dev session n handle ctx) (slots : Slots) :
    Opens dev session n handle { ctx with slots := slots } :=
  ⟨h.1.slots slots, h.2⟩

/-- A predicate that does not look at the slots, and the slots. -/
def At (P : Context → Prop) (slots : Slots) (ctx : Context) : Prop := P ctx ∧ ctx.slots = slots

theorem keeps_attempt {slots : Slots} :
    Contract (At (Keeps dev session n) slots) (attempt env step wrap)
      (fun _ ctx => env.faults step = none ∧ At (Keeps dev session n) slots ctx)
      fun _ ctx => env.faults step ≠ none ∧ At (Keeps dev session n) slots ctx :=
  contract_attempt fun _ h => ⟨h.1.failed _, h.2⟩

theorem opens_attempt {slots : Slots} :
    Contract (At (Opens dev session n handle) slots) (attempt env step wrap)
      (fun _ ctx => env.faults step = none ∧ At (Opens dev session n handle) slots ctx)
      fun _ ctx => env.faults step ≠ none ∧ At (Opens dev session n handle) slots ctx :=
  contract_attempt fun _ h => ⟨h.1.failed _, h.2⟩

theorem keeps_loadSession {kind : SessionType} {slots : Slots} {E : TssError → Context → Prop} :
    Contract (At (Keeps dev session n) slots) (loadSession kind)
      (fun handle => At (Opens dev session n handle) slots) E := by
  rintro ctx ⟨h, hslots⟩
  refine ⟨⟨⟨h.objects, ?_, h.stale, h.peak⟩, kind, ?_⟩, hslots⟩
  · show (ctx.sessions.alloc kind).entries.length = n + 1
    rw [HandleTable.alloc_entries, List.length_append, h.sessions, List.length_singleton]
  · exact HandleTable.lookup_eq_some_iff.mp HandleTable.lookup_alloc_self

theorem opens_useSession {E : TssError → Context → Prop} :
    Contract (Opens dev session n handle) (useSession step wrap handle)
      (fun _ => Opens dev session n handle) E := by
  rintro ctx ⟨h, kind, hmem⟩
  rw [useSession, HandleTable.lookup_eq_some_iff.mpr hmem]
  exact ⟨h, kind, hmem⟩

theorem at_setSessions {P : Context → Prop} {slots slots' : Slots}
    {E : TssError → Context → Prop} (hP : ∀ ctx, P ctx → P { ctx with slots := slots' }) :
    Contract (At P slots) (setSessions slots') (fun _ => At P slots') E :=
  fun ctx h => ⟨hP ctx h.1, rfl⟩

/-- The session is closed unless the flush fails. -/
theorem opens_flushSession {slots : Slots} {E : TssError → Context → Prop} :
    Contract (At (Opens dev session n handle) slots) (flushSession env handle)
      (fun _ => At (Keeps dev session (n + if env.faults .flushSession = none then 0 else 1))
        slots) E := by
  apply Contract.ignore
  rintro ctx ⟨⟨h, kind, hmem⟩, hslots⟩
  have huse : useSession .flushSession .esapi handle ctx = .ok kind ctx := by
    rw [useSession, HandleTable.lookup_eq_some_iff.mpr hmem]
  rw [Effect.bind_of_ok huse]
  cases hfault : env.faults .flushSession with
  | none =>
      rw [Effect.bind_of_ok (attempt_of_none hfault)]
      refine ⟨⟨h.objects, ?_, h.stale, h.peak⟩, hslots⟩
      have hlength := HandleTable.length_without ctx.sessions.nodup hmem
      rw [h.sessions] at hlength
      exact Nat.succ.inj hlength
  | some e =>
      rw [Effect.bind_of_error (attempt_of_some hfault)]
      exact ⟨h.failed _, hslots⟩

/-- A null-auth session gives the slots back. -/
theorem at_nullauth {α : Type} {slots : Slots} {P : Context → Prop} {Q : α → Context → Prop}
    {E : TssError → Context → Prop} {f : TpmM α}
    (hP : ∀ ctx slots, P ctx → P { ctx with slots := slots })
    (hQ : ∀ a ctx slots, Q a ctx → Q a { ctx with slots := slots })
    (hE : ∀ e ctx slots, E e ctx → E e { ctx with slots := slots }) (hf : Contract P f Q E) :
    Contract (At P slots) (executeWithNullauthSession f) (fun a => At (Q a) slots)
      fun e => At (E e) slots := by
  rintro ctx ⟨hctx, rfl⟩
  have hrun := contract_nullauth hP hQ hE hf ctx hctx
  rw [executeWithNullauthSession] at hrun ⊢
  cases hf' : f { ctx with slots := ⟨some .nullauth, none, none⟩ } with
  | ok a ctx' =>
      rw [hf'] at hrun
      exact ⟨hrun, rfl⟩
  | error e ctx' =>
      rw [hf'] at hrun
      exact ⟨hrun, rfl⟩

theorem opens_policySecret {slots : Slots} :
    Contract (At (Opens dev session n handle) slots)
      (executeWithNullauthSession (policySecret env handle))
      (fun _ ctx => env.faults .policySecret = none ∧ At (Opens dev session n handle) slots ctx)
      fun _ ctx => env.faults .policySecret ≠ none ∧ At (Opens dev session n handle) slots ctx := by
  have hsecret : Contract (Opens dev session n handle) (policySecret env handle)
      (fun _ ctx => env.faults .policySecret = none ∧ Opens dev session n handle ctx)
      fun _ ctx => env.faults .policySecret ≠ none ∧ Opens dev session n handle ctx :=
    Contract.bind opens_useSession fun _ => contract_attempt fun _ h => h.failed _
  refine (at_nullauth (fun _ slots h => h.slots slots) (fun _ _ slots h => ⟨h.1, h.2.slots slots⟩)
    (fun _ _ slots h => ⟨h.1, h.2.slots slots⟩) hsecret).consequence (fun _ h => h) ?_ ?_
  · exact fun _ ctx h => ⟨h.1.1, h.1.2, h.2⟩
  · exact fun _ ctx h => ⟨h.1.1, h.1.2, h.2⟩

theorem opens_activateCredential {slots : Slots} {credentialBlob secret : Bytes} :
    Contract (At (Opens dev session n handle) slots)
      (activateCredential dev env session.akHandle session.ekHandle credentialBlob secret)
      (fun _ ctx => env.faults .activateCredential = none ∧
        At (Opens dev session n handle) slots ctx)
      fun _ ctx => env.faults .activateCredential ≠ none ∧
        At (Opens dev session n handle) slots ctx := by
  intro ctx h
  obtain ⟨hek, hak⟩ := h.1.1.lookup
  rw [activateCredential, Effect.bind_of_ok (useObject_of_lookup hak),
    Effect.bind_of_ok (useObject_of_lookup hek)]
  refine Contract.bind opens_attempt (fun _ => ?_) ctx h
  exact Contract.pure fun _ hctx => hctx

/-- Whether the policy session stays open and what is left in the slots is decided by the
first place that fails. -/
theorem keeps_activate {credentialBlob secret : Bytes} {before : Slots} :
    let call := (SessionCall.activate credentialBlob secret, env)
    let after := fun ctx => Keeps dev session (n + if leavesOpen call then 1 else 0) ctx ∧
      LeavesSlots before ctx call
    Contract (At (Keeps dev session n) before) (session.activate dev env credentialBlob secret)
      (fun _ => after) fun _ => after := by
  intro call after
  have hclosed : ∀ {ctx}, ¬ PolicySessionStarts env → At (Keeps dev session n) before ctx →
      after ctx := by
    rintro ctx hstarts ⟨h, hslots⟩
    have hcount : (n + if leavesOpen call then 1 else 0) = n := by simp [call, leavesOpen, hstarts]
    refine ⟨by rwa [hcount], .inl ⟨fun hauth => hstarts hauth.1, hslots⟩⟩
  have hcount : PolicySessionStarts env → ¬ PolicySessionFlushed env →
      (n + if leavesOpen call then 1 else 0) = n + 1 := by
    intro hstarts hflushed
    simp [call, leavesOpen, hstarts, hflushed]
  have hopen : ∀ {ctx handle}, PolicySessionStarts env → ¬ PolicySessionFlushed env →
      ¬ Authorised env → At (Opens dev session n handle) before ctx → after ctx := by
    rintro ctx handle hstarts hflushed hauth ⟨h, hslots⟩
    exact ⟨by rw [hcount hstarts hflushed]; exact h.1, .inl ⟨hauth, hslots⟩⟩
  refine Contract.bind (keeps_attempt.mono_fail fun _ ctx h => hclosed (fun hs => h.1 hs.1) h.2) ?_
  refine fun _ => Contract.assume fun hid => ?_
  refine Contract.bind (keeps_attempt.mono_fail fun _ ctx h =>
    hclosed (fun hs => h.1 hs.2.1) h.2) ?_
  refine fun _ => Contract.assume fun hsecret => ?_
  have hstart : Contract (At (Keeps dev session n) before) (startPolicySession env .policy
      "start ek policy session: " "failed to allocate ek policy session"
      "policy session convert: ")
      (fun handle ctx => (PolicySessionStarts env ∧ env.faults .convertSession = none) ∧
        At (Opens dev session n handle) before ctx) fun _ => after := by
    refine Contract.bind (keeps_attempt.mono_fail fun _ ctx h =>
      hclosed (fun hs => h.1 hs.2.2.1) h.2) ?_
    refine fun _ => Contract.assume fun hstarted => ?_
    refine Contract.bind (keeps_attempt.mono_fail fun _ ctx h =>
      hclosed (fun hs => h.1 hs.2.2.2) h.2) ?_
    refine fun _ => Contract.assume fun hallocated => ?_
    have hstarts : PolicySessionStarts env := ⟨hid, hsecret, hstarted, hallocated⟩
    refine Contract.bind keeps_loadSession fun handle => ?_
    refine Contract.bind (opens_attempt.mono_fail fun _ ctx h =>
      hopen hstarts (fun hs => h.1 hs.1) (fun hauth => h.1 hauth.2.1) h.2) ?_
    exact fun _ => Contract.pure fun _ h => ⟨⟨hstarts, h.1⟩, h.2⟩
  refine Contract.bind hstart fun handle => Contract.assume ?_
  rintro ⟨hstarts, hconvert⟩
  refine Contract.bind (opens_policySecret.mono_fail fun _ ctx h =>
    hopen hstarts (fun hs => h.1 hs.2.1) (fun hauth => h.1 hauth.2.2) h.2) ?_
  refine fun _ => Contract.assume fun hpolicy => ?_
  have hauth : Authorised env := ⟨hstarts, hconvert, hpolicy⟩
  refine Contract.bind (at_setSessions fun _ h => h.slots _) fun _ => ?_
  refine Contract.bind (opens_activateCredential.mono_fail ?_) ?_
  · rintro _ ctx ⟨hrefused, ⟨h, kind, hmem⟩, hslots⟩
    refine ⟨?_, .inr (.inr ⟨hauth, hrefused, handle, kind,
      HandleTable.lookup_eq_some_iff.mpr hmem, hslots⟩)⟩
    rw [hcount hstarts fun hs => hrefused hs.2.2.1]
    exact h
  refine fun _ => Contract.assume fun hactivate => ?_
  refine Contract.bind opens_flushSession fun _ => ?_
  have hleft : (n + if env.faults .flushSession = none then 0 else 1) =
      n + if leavesOpen call then 1 else 0 := by
    by_cases hflush : env.faults .flushSession = none
    · simp [call, leavesOpen, PolicySessionFlushed, hconvert, hpolicy, hactivate, hflush]
    · simp [call, leavesOpen, PolicySessionFlushed, hstarts, hflush]
  rw [hleft]
  refine Contract.bind (at_setSessions fun _ h => h.slots _) fun _ => Contract.pure fun _ h => ?_
  exact ⟨h.1, .inr (.inl ⟨hauth, hactivate, h.2⟩)⟩

theorem Keeps.of_held {ctx' : Context} {F : List Step} (h : Keeps dev session n ctx)
    (hheld : Held (idleFrame ctx) F (.of ctx) ctx') : Keeps dev session n ctx' :=
  ⟨(hheld.objects.entries_eq trivial).trans h.objects,
    (congrArg List.length (hheld.sessions.entries_eq trivial)).trans h.sessions,
    (hheld.stale trivial).trans h.stale, hheld.peak trivial⟩

/-- Quoting and reading the certificate load nothing and free nothing. -/
theorem Keeps.after_quote {serverNonce : Bytes} {pcrIndices : List UInt8}
    (h : Keeps dev session n ctx) :
    ∃ F, Held (idleFrame ctx) F (.of ctx)
      (Effect.stateAfter (session.quote dev env serverNonce pcrIndices ctx)) := by
  have hak : (session.akHandle, keyObject dev .ak) ∈ (Holding.of ctx).objects :=
    HandleTable.lookup_eq_some_iff.mp h.lookup.2
  have hquote : Contract (Held (idleFrame ctx) [] (.of ctx))
      (quoteWithKey dev env session.akHandle serverNonce pcrIndices) _ _ :=
    held_quoteWithKey (fun _ => trivial) (fun _ => Eq.refl (Holding.of ctx)) (.inl ⟨_, hak⟩)
  refine Contract.stateAfter (R := fun ctx' => ∃ F, Held (idleFrame ctx) F (.of ctx) ctx')
    (hquote.consequence (fun _ hs => hs) (fun _ _ hheld => ⟨_, hheld⟩) ?_)
    (held_of True True h.peak)
  rintro _ ctx' ⟨step, H, rfl, -, hheld⟩
  exact ⟨_, hheld⟩

theorem Keeps.after_readEkCert (h : Keeps dev session n ctx) :
    ∃ F, Held (idleFrame ctx) F (.of ctx) (Effect.stateAfter (readEkCert env ctx)) := by
  have hread : Contract (Held (idleFrame ctx) [] (.of ctx))
      (TpmContextManager.readEkCert env) _ _ :=
    held_readEkCert (fun _ => trivial) fun _ => Eq.refl (Holding.of ctx)
  refine Contract.stateAfter (R := fun ctx' => ∃ F, Held (idleFrame ctx) F (.of ctx) ctx')
    (hread.consequence (fun _ hs => hs) ?_ ?_) (held_of True True h.peak)
  · rintro _ ctx' ⟨F, -, hheld⟩
    exact ⟨F, hheld⟩
  · rintro _ ctx' ⟨step, H, rfl, -, hheld⟩
    exact ⟨_, hheld⟩

/-- One call. -/
theorem Keeps.respond (h : Keeps dev session n ctx) (call : SessionCall) (env : Env) :
    Keeps dev session (n + if leavesOpen (call, env) then 1 else 0)
        (session.respond dev env ctx call).1 ∧
      LeavesSlots ctx.slots (session.respond dev env ctx call).1 (call, env) := by
  cases call with
  | activate credentialBlob secret => exact Contract.stateAfter keeps_activate ⟨h, rfl⟩
  | quote serverNonce pcrIndices =>
      obtain ⟨F, hheld⟩ := h.after_quote
      exact ⟨h.of_held hheld, hheld.slots⟩
  | readEkCert =>
      obtain ⟨F, hheld⟩ := h.after_readEkCert
      exact ⟨h.of_held hheld, hheld.slots⟩

/-- Over a run the policy sessions left open add up. -/
theorem Keeps.run (h : Keeps dev session n ctx) (turns : List (SessionCall × Env)) :
    Keeps dev session (n + turns.countP leavesOpen) (session.run dev ctx turns) := by
  induction turns generalizing n ctx with
  | nil => exact h
  | cons turn turns ih =>
      have hrest := ih (h.respond turn.1 turn.2).1
      rwa [Nat.add_assoc, Nat.add_comm _ (turns.countP leavesOpen), ← List.countP_cons] at hrest

/-! ## Beginning and dropping a session -/

/-- The session publishes the keys the TPM derives from the two templates. -/
structure Publishes (dev : Device) (session : AttestationSession) : Prop where
  ak : session.akPub = dev.marshall (dev.primary .endorsement .ak)
  ek : ∃ unique exponent, dev.primary .endorsement .ek = .rsa unique exponent ∧
    session.ekSpki = rsaPublicToSpki unique (if exponent = 0 then 65537 else exponent)

/-- The keys that are loaded when `begin` stops at a place. -/
def createdBefore : Step → List KeyRole
  | .extractEk | .akTemplate | .createAk => [.ek]
  | .marshalAk => [.ek, .ak]
  | _ => []

/-- Besides what is in `H`, the keys created so far are loaded. -/
def Created (dev : Device) (H : Holding) (step : Step) (H' : Holding) : Prop :=
  H'.objects.map Prod.snd = H.objects.map Prod.snd ++ (createdBefore step).map (keyObject dev)

theorem held_begin {fr : Frame} {H : Holding} {why : Step → Prop}
    (hfaults : ∀ step, env.faults step ≠ none → why step)
    (hroom : fr.exact → H.objects.length + 2 ≤ fr.bound)
    (hrsa : (∀ unique exponent, dev.primary .endorsement .ek ≠ .rsa unique exponent) →
      why .extractEk) :
    Contract (Held fr [] H) (begin dev env)
      (fun session s => session.Publishes dev ∧ Held fr [] ((H.load session.ekHandle
        (keyObject dev .ek)).load session.akHandle (keyObject dev .ak)) s)
      fun _ => Stopped fr why (Created dev H) := by
  have hnone : ∀ step, createdBefore step = [] → Created dev H step H := by
    intro step hstep
    rw [Created, hstep, List.map_nil, List.append_nil]
  have hek : ∀ step ek, createdBefore step = [.ek] →
      Created dev H step (H.load ek (keyObject dev .ek)) := by
    intro step ek hstep
    rw [Created, hstep, Holding.load, List.map_append]
    rfl
  apply Contract.bind (held_ekTemplate hfaults fun _ => hnone _ rfl)
  intro template
  apply Contract.assume
  rintro ⟨rfl, -⟩
  apply Contract.bind (stops (held_createPrimary (hfaults _)
    fun h => by have := hroom h; omega) (hnone _ rfl))
  rintro ⟨ek, ekOut⟩
  apply Contract.assume
  intro hekOut
  dsimp only at hekOut
  subst hekOut
  apply Contract.bind (held_extractRsaPublic hrsa (hek _ ek rfl))
  rintro ⟨modulus, exponent⟩
  apply Contract.assume
  rintro ⟨unique, exponent', harea, hkey⟩
  obtain ⟨rfl, rfl⟩ := Prod.mk.inj hkey
  apply Contract.bind (held_akTemplate hfaults (hek _ ek rfl))
  intro template
  apply Contract.assume
  rintro rfl
  have hroom' : fr.exact →
      (H.load ek (keyObject dev .ek)).objects.length + 1 ≤ fr.bound := by
    intro hexact
    have := hroom hexact
    rw [Holding.load, List.length_append, List.length_singleton]
    omega
  apply Contract.bind (stops (held_createPrimary (hfaults _) hroom') (hek _ ek rfl))
  rintro ⟨ak, akOut⟩
  apply Contract.assume
  intro hakOut
  dsimp only at hakOut
  subst hakOut
  have hboth : Created dev H .marshalAk
      ((H.load ek (keyObject dev .ek)).load ak (keyObject dev .ak)) := by
    rw [Created, Holding.load, Holding.load, List.map_append, List.map_append, List.append_assoc]
    rfl
  apply Contract.bind (stops (held_attempt (hfaults _)) hboth)
  intro _
  exact Contract.pure fun _ hs => ⟨⟨rfl, _, _, harea, rfl⟩, hs⟩

theorem held_empty : Held (idleFrame .empty) [] emptyHolding .empty :=
  held_of (s := .empty) True True (Nat.zero_le 2)

theorem held_begin_empty (dev : Device) (env : Env) :
    Contract (Held (idleFrame .empty) [] emptyHolding) (begin dev env)
      (fun session s => session.Publishes dev ∧ Held (idleFrame .empty) []
        ((emptyHolding.load session.ekHandle (keyObject dev .ek)).load session.akHandle
          (keyObject dev .ak)) s)
      fun _ => Stopped (idleFrame .empty) (fun _ => True) (Created dev emptyHolding) :=
  held_begin (fun _ _ => trivial) (fun _ => Nat.le_refl 2) fun _ => trivial

theorem keeps_of_begin {session : AttestationSession} {ctx₀ : Context}
    (h : begin dev env .empty = .ok session ctx₀) :
    session.Publishes dev ∧ Keeps dev session 0 ctx₀ ∧ ctx₀.slots = .none := by
  obtain ⟨hpublishes, hheld⟩ := (held_begin_empty dev env).of_ok held_empty h
  have hsessions := congrArg List.length (hheld.sessions.entries_eq trivial)
  exact ⟨hpublishes, ⟨hheld.objects.entries_eq trivial, hsessions, hheld.stale trivial,
    hheld.peak trivial⟩, hheld.slots⟩

theorem flushObject_of_lookup {object : Object} {handle : ObjectHandle}
    (h : ctx.objects.lookup handle = some object) (env : Env) (step : Step) :
    ∃ ctx', flushObject env step handle ctx = .ok () ctx' ∧ ctx'.objects.entries =
      if env.faults step = none then HandleTable.without handle ctx.objects.entries
      else ctx.objects.entries := by
  rw [flushObject, Effect.ignore, Effect.bind_of_ok (useObject_of_lookup h)]
  cases hfault : env.faults step with
  | none =>
      rw [Effect.bind_of_ok (attempt_of_none hfault)]
      exact ⟨_, rfl, rfl⟩
  | some e =>
      rw [Effect.bind_of_error (attempt_of_some hfault)]
      exact ⟨_, rfl, rfl⟩

/-- The role's entry, where its flush fails. -/
def unflushed (env : Env) (role : KeyRole) (entry : ObjectHandle × Object) :
    List (ObjectHandle × Object) :=
  if env.faults (.flushKey role) = none then [] else [entry]

/-- A drop frees the keys whose flush succeeds. -/
theorem Keeps.drop (h : Keeps dev session n ctx) (env : Env) :
    (Effect.stateAfter (session.drop env ctx)).objects.entries =
      unflushed env .ek (session.ekHandle, keyObject dev .ek) ++
        unflushed env .ak (session.akHandle, keyObject dev .ak) := by
  have hne : session.akHandle ≠ session.ekHandle := by
    have hnodup := ctx.objects.nodup
    rw [h.objects] at hnodup
    exact fun heq => (List.nodup_cons.mp hnodup).1 (by simp [heq])
  obtain ⟨ctx₁, hrun₁, hentries₁⟩ := flushObject_of_lookup h.lookup.2 env (.flushKey .ak)
  have hak : ctx₁.objects.entries = (session.ekHandle, keyObject dev .ek) ::
      unflushed env .ak (session.akHandle, keyObject dev .ak) := by
    rw [hentries₁, h.objects, unflushed]
    split
    · simp [HandleTable.without, keyEntries, hne.symm]
    · rfl
  have hek : ctx₁.objects.lookup session.ekHandle = some (keyObject dev .ek) :=
    HandleTable.lookup_eq_some_iff.mpr (hak ▸ List.mem_cons_self)
  obtain ⟨ctx₂, hrun₂, hentries₂⟩ := flushObject_of_lookup hek env (.flushKey .ek)
  rw [AttestationSession.drop, Effect.bind_of_ok hrun₁, hrun₂]
  show ctx₂.objects.entries = (if env.faults (.flushKey .ek) = none then [] else [_]) ++ _
  rw [hentries₂, hak]
  split
  · have hrest : session.ekHandle ∉
        (unflushed env .ak (session.akHandle, keyObject dev .ak)).map Prod.fst := by
      rw [unflushed]
      split
      · simp
      · simp [hne.symm]
    rw [HandleTable.without, List.filter_cons_of_neg (by simp)]
    exact HandleTable.without_eq_self hrest
  · rfl

end

/-- A session from `begin` to its drop, whatever fails on the way. It publishes the TPM's
keys. After any calls these two keys are loaded and nothing else is, no call used a handle
that is not loaded, and the policy sessions still open are those of the activations that
leave theirs open. The session slots are empty at first; a call leaves them as they were,
but an activation clears them when the TPM has answered it, and leaves its policy session in
them when the TPM has refused it. Dropping the session frees the keys whose flush succeeds.
A `begin` that fails drops its context with the keys it had created still loaded. -/
theorem session_keeps_its_keys (dev : Device) (env : Env) :
    (∀ session ctx₀, begin dev env .empty = .ok session ctx₀ → session.Publishes dev ∧
      ctx₀.slots = .none ∧ ∀ turns : List (SessionCall × Env),
        let ctx := session.run dev ctx₀ turns
        ctx.objects.entries = session.keyEntries dev ∧ ctx.staleUses = [] ∧ ctx.peak ≤ 2 ∧
        ctx.sessions.entries.length = turns.countP leavesOpen ∧
        (∀ call env', LeavesSlots ctx.slots (session.respond dev env' ctx call).1 (call, env')) ∧
        ∀ env', (Effect.stateAfter (session.drop env' ctx)).objects.entries =
          unflushed env' .ek (session.ekHandle, keyObject dev .ek) ++
            unflushed env' .ak (session.akHandle, keyObject dev .ak)) ∧
    ∀ e ctx, begin dev env .empty = .error e ctx →
      ∃ step, ctx.failed = [step] ∧
        ctx.objects.entries.map Prod.snd = (createdBefore step).map (keyObject dev) := by
  refine ⟨fun session ctx₀ hrun => ?_, fun e ctx hrun => ?_⟩
  · obtain ⟨hpublishes, hstart, hslots⟩ := keeps_of_begin hrun
    refine ⟨hpublishes, hslots, fun turns => ?_⟩
    have hkeeps := hstart.run turns
    rw [Nat.zero_add] at hkeeps
    exact ⟨hkeeps.objects, hkeeps.stale, hkeeps.peak, hkeeps.sessions,
      fun call env' => (hkeeps.respond call env').2, hkeeps.drop⟩
  · have hstopped := held_begin_empty dev env .empty held_empty
    rw [hrun] at hstopped
    obtain ⟨step, H, hcreated, -, hleft⟩ := hstopped
    refine ⟨step, hleft.failed trivial, ?_⟩
    rw [hleft.objects.entries_eq trivial]
    exact hcreated

end AttestationSession

/-- An activation that is not authorised leaves its policy session open, and the next
quote does not change that; one that the TPM refuses leaves it in the slots as well. A
`begin` that cannot create the AK leaves the EK loaded. -/
theorem session_keeps_its_keys_of_failures :
    (∃ session ctx₀, AttestationSession.begin Sample.device Sample.env .empty = .ok session ctx₀ ∧
      (session.run Sample.device ctx₀ [(.activate [0x01] [0x02], Sample.failing .policySecret),
        (.quote [0xAA] [0, 7], Sample.env)]).sessions.entries.length = 1 ∧
      ∃ handle, (session.respond Sample.device (Sample.failing .activateCredential) ctx₀
        (.activate [0x01] [0x02])).1.slots = ⟨some .password, some (.session handle), none⟩) ∧
    ∃ e ctx, AttestationSession.begin Sample.device (Sample.failing .createAk) .empty =
      .error e ctx ∧ ∃ step, ctx.failed = [step] ∧ ctx.objects.entries.map Prod.snd =
        (AttestationSession.createdBefore step).map (keyObject Sample.device) := by
  have hreturns : ∃ session ctx₀,
      AttestationSession.begin Sample.device Sample.env .empty = .ok session ctx₀ := ⟨_, _, rfl⟩
  have hfails : ∃ e ctx, AttestationSession.begin Sample.device (Sample.failing .createAk)
      .empty = .error e ctx := ⟨_, _, rfl⟩
  obtain ⟨session, ctx₀, hbegin⟩ := hreturns
  obtain ⟨e, ctx, herror⟩ := hfails
  obtain ⟨hruns, -⟩ := AttestationSession.session_keeps_its_keys Sample.device Sample.env
  obtain ⟨-, hleaves⟩ := AttestationSession.session_keeps_its_keys Sample.device
    (Sample.failing .createAk)
  obtain ⟨-, -, hrun⟩ := hruns session ctx₀ hbegin
  refine ⟨⟨session, ctx₀, hbegin, ?_, ?_⟩, e, ctx, herror, hleaves e ctx herror⟩
  · rw [(hrun _).2.2.2.1]
    decide
  · have hauth : AttestationSession.Authorised (Sample.failing .activateCredential) :=
      ⟨⟨rfl, rfl, rfl, rfl⟩, rfl, rfl⟩
    obtain ⟨hnot, -⟩ | ⟨-, hpass, -⟩ | ⟨-, -, handle, -, -, hslots⟩ :=
      (hrun []).2.2.2.2.1 (.activate [0x01] [0x02]) (Sample.failing .activateCredential)
    · exact absurd hauth hnot
    · cases hpass
    · exact ⟨handle, hslots⟩

end Fleetos.Tpm
