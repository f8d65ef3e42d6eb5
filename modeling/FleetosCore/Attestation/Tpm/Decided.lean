import FleetosCore.Attestation.Tpm.Replies
import FleetosCore.Library.Decision

/-!
# Which answer an operation gives

Every operation of the manager either returns one value, which is a matter of the TPM and
of the arguments, or it fails, and which of the two is decided by the environment and the
arguments alone. The state matters only as far as handles are concerned: `Knows` says what
a program has to know of the context for that.
-/

namespace Fleetos.Tpm

open Effect (Contract Decides answer)

/-- These objects are loaded at these handles, and these sessions are open. -/
structure Knows (O : List (ObjectHandle × Object)) (S : List SessionHandle) (ctx : Context) :
    Prop where
  objects : ∀ e ∈ O, ctx.objects.lookup e.1 = some e.2
  sessions : ∀ h ∈ S, ∃ kind, ctx.sessions.lookup h = some kind

section

variable {dev : Device} {env : Env} {step : Step} {wrap : String → TssError}
  {O : List (ObjectHandle × Object)} {S : List SessionHandle} {ctx : Context} {α : Type}

theorem Knows.nothing (ctx : Context) : Knows [] [] ctx := ⟨by simp, by simp⟩

theorem Knows.slots (h : Knows O S ctx) (slots : Slots) : Knows O S { ctx with slots := slots } :=
  ⟨h.objects, h.sessions⟩

/-! ## Commands -/

theorem decides_attempt {P : Context → Prop} :
    Decides P (env.faults step = none) (attempt env step wrap) fun _ => P := by
  intro ctx h
  cases hfault : env.faults step with
  | none =>
      rw [attempt_of_none hfault]
      exact ⟨rfl, h⟩
  | some e =>
      rw [attempt_of_some hfault]
      exact Option.some_ne_none e

theorem decides_pcrSlots {P : Context → Prop} {indices : List UInt8} :
    Decides P (∀ i ∈ indices, i.toNat ≤ 23) (pcrSlots step indices)
      fun slots ctx => slots = indices ∧ P ctx := by
  intro ctx h
  by_cases hrange : ∀ i ∈ indices, i.toNat ≤ 23
  · rw [pcrSlots_of_inRange hrange]
    exact ⟨hrange, rfl, h⟩
  · cases hrun : pcrSlots step indices ctx with
    | ok slots ctx' => exact absurd (pcrSlots_ok hrun).2 hrange
    | error e ctx' => exact hrange

theorem decides_useObject {handle : ObjectHandle} {object : Object} (h : (handle, object) ∈ O) :
    Decides (Knows O S) True (useObject step wrap handle)
      fun a ctx => a = object ∧ Knows O S ctx :=
  Decides.always fun ctx hctx =>
    ⟨object, ctx, useObject_of_lookup (hctx.objects _ h), rfl, hctx⟩

theorem decides_useSession {handle : SessionHandle} (h : handle ∈ S) :
    Decides (Knows O S) True (useSession step wrap handle) fun _ => Knows O S := by
  refine Decides.always fun ctx hctx => ?_
  obtain ⟨kind, hkind⟩ := hctx.sessions handle h
  refine ⟨kind, ctx, ?_, hctx⟩
  rw [useSession, hkind]

theorem decides_loadSession {kind : SessionType} :
    Decides (Knows O S) True (loadSession kind) fun handle => Knows O (handle :: S) := by
  refine Decides.always fun _ hctx => ⟨_, _, rfl, hctx.objects, ?_⟩
  intro handle hmem
  obtain rfl | hmem := List.mem_cons.mp hmem
  · exact ⟨kind, HandleTable.lookup_alloc_self⟩
  · obtain ⟨kind', hkind⟩ := hctx.sessions handle hmem
    exact ⟨kind', HandleTable.lookup_alloc_of_some hkind⟩

theorem decides_setSessions {slots : Slots} :
    Decides (Knows O S) True (setSessions slots) fun _ => Knows O S :=
  Decides.always fun _ hctx => ⟨(), _, rfl, hctx.slots slots⟩

theorem decides_nullauth {p : Prop} {f : TpmM α} {φ : α → Prop}
    {N : α → List (ObjectHandle × Object)}
    (h : Decides (Knows O S) p f fun a ctx => φ a ∧ Knows (N a) S ctx) :
    Decides (Knows O S) p (executeWithNullauthSession f) fun a ctx => φ a ∧ Knows (N a) S ctx :=
  AttestationSession.contract_nullauth (fun _ slots hctx => hctx.slots slots)
    (fun _ _ slots hctx => ⟨hctx.1, hctx.2.1, hctx.2.2.slots slots⟩) (fun _ _ _ hp => hp) h

theorem decides_startPolicySession {kind : SessionType} {a b c : String} :
    Decides (Knows O S) (env.faults .startSession = none ∧ env.faults .allocateSession = none ∧
        env.faults .convertSession = none) (startPolicySession env kind a b c)
      fun handle => Knows O (handle :: S) := by
  exact Decides.bind decides_attempt fun _ => Decides.bind decides_attempt fun _ =>
    Decides.after decides_loadSession fun handle => Decides.before decides_attempt fun _ =>
      Decides.pure fun _ h => h

/-- `policySecret` and `policyPcr`. -/
theorem decides_policyCommand {handle : SessionHandle} (h : handle ∈ S) :
    Decides (Knows O S) (env.faults step = none) (do
      let _ ← useSession step wrap handle
      attempt env step wrap) fun _ ctx => True ∧ Knows O S ctx := by
  refine Decides.after (decides_useSession h) fun _ => ?_
  exact decides_attempt.mono_post fun _ _ hctx => ⟨trivial, hctx⟩

theorem decides_keep_ignore {c : Prop} {m : TpmM α} :
    Decides (fun _ => c) True (Effect.ignore m) fun _ _ => c :=
  Decides.keep fun s => ⟨(), Effect.ignore_returns m s⟩

/-! ## Keys of a session -/

/-- The session's keys are in these states, and true to the TPM. -/
def InStates (dev : Device) (keys : KeyRole → KeyState)
    (s : Context × ManagedAttestationSession) : Prop :=
  Truthful dev (s.1.objects.entries, s.2) ∧ s.2.key = keys

theorem InStates.knows {keys : KeyRole → KeyState} {s : Context × ManagedAttestationSession}
    {L : List (KeyRole × ObjectHandle)} (h : InStates dev keys s)
    (hlive : ∀ l ∈ L, keys l.1 = .live l.2) :
    Knows (L.map fun l => (l.2, keyObject dev l.1)) [] s.1 := by
  refine ⟨?_, by simp⟩
  intro e he
  obtain ⟨l, hl, rfl⟩ := List.mem_map.mp he
  exact h.1.lookup_of_live ((congrFun h.2 l.1).trans (hlive l hl))

theorem ensureLoaded_fails {role : KeyRole} {s : Context × ManagedAttestationSession}
    (hsaved : (s.2.key role).IsSaved) (hfault : env.faults (.contextLoad role) ≠ none) :
    ∃ e s', TpmContextManager.ensureLoaded env role s = .error e s' := by
  obtain ⟨ctx, session⟩ := s
  have hkey : keyState role (ctx, session) = .ok (session.key role) (ctx, session) := rfl
  rw [TpmContextManager.ensureLoaded, Effect.bind_of_ok hkey]
  cases hstate : session.key role with
  | live handle =>
      rw [hstate] at hsaved
      exact hsaved.elim
  | saved saved =>
      obtain ⟨e, he⟩ := Option.ne_none_iff_exists'.mp hfault
      refine ⟨.esapi ("context_load failed: " ++ e), ({ ctx with
        failed := ctx.failed ++ [.contextLoad role] }, session), ?_⟩
      have hload : contextLoad env (.contextLoad role)
          (fun e => .esapi ("context_load failed: " ++ e)) saved ctx =
            .error (.esapi ("context_load failed: " ++ e))
              { ctx with failed := ctx.failed ++ [.contextLoad role] } := by
        rw [contextLoad, Effect.bind_of_error (attempt_of_some he)]
      have hfirst : Effect.onFst (contextLoad env (.contextLoad role)
          (fun e => .esapi ("context_load failed: " ++ e)) saved) (ctx, session) =
            .error (.esapi ("context_load failed: " ++ e))
              ({ ctx with failed := ctx.failed ++ [.contextLoad role] }, session) := by
        rw [Effect.onFst, hload]
      exact Effect.bind_of_error hfirst

theorem decides_ensureLoaded {keys : KeyRole → KeyState} {role : KeyRole} :
    Decides (InStates dev keys) ((keys role).IsSaved → env.faults (.contextLoad role) = none)
      (TpmContextManager.ensureLoaded env role)
      fun handle => InStates dev (Function.update keys role (.live handle)) := by
  rintro s ⟨htruthful, rfl⟩
  by_cases hload : (s.2.key role).IsSaved → env.faults (.contextLoad role) = none
  · obtain ⟨handle, s', hrun, hlive, hrest, hsteps⟩ := ensureLoaded_returns hload
    rw [hrun]
    refine ⟨hload, hsteps.truthful htruthful, funext fun role' => ?_⟩
    by_cases hrole : role' = role
    · rw [hrole, Function.update_self, hlive]
    · rw [Function.update_of_ne hrole, hrest role' hrole]
  · obtain ⟨hsaved, hfault⟩ := Classical.not_imp.mp hload
    obtain ⟨e, s', hrun⟩ := ensureLoaded_fails hsaved hfault
    rw [hrun]
    exact hload

/-! ## Activating -/

/-- The places of an activation that can stop it, once the keys are loaded. -/
def ActivationPasses (env : Env) : Prop :=
  AttestationSession.PolicySessionStarts env ∧ env.faults .convertSession = none ∧
    env.faults .policySecret = none ∧ env.faults .activateCredential = none

theorem decides_activateCredential {ak ek : ObjectHandle} {akObject ekObject : Object}
    {blob enc : Bytes} (hak : (ak, akObject) ∈ O) (hek : (ek, ekObject) ∈ O) :
    Decides (Knows O S) (env.faults .activateCredential = none)
      (activateCredential dev env ak ek blob enc) fun recovered _ => recovered =
        dev.activateCredential akObject.publicArea ekObject.publicArea blob enc := by
  refine Decides.after (decides_useObject hak) fun a => Decides.assume ?_
  rintro rfl
  refine Decides.after (decides_useObject hek) fun b => Decides.assume ?_
  rintro rfl
  exact Decides.before decides_attempt fun _ => Decides.pure fun _ _ => rfl

/-- An activation with the keys loaded returns what the TPM recovers. -/
theorem decides_activateLoaded {ak ek : ObjectHandle} {akObject ekObject : Object}
    {blob enc : Bytes} (hak : (ak, akObject) ∈ O) (hek : (ek, ekObject) ∈ O) :
    Decides (Knows O S) (ActivationPasses env)
      (TpmContextManager.activateLoaded dev env ak ek blob enc) fun recovered _ => recovered =
        dev.activateCredential akObject.publicArea ekObject.publicArea blob enc := by
  refine Decides.congr (Decides.bind decides_attempt fun _ => Decides.bind decides_attempt fun _ =>
    Decides.bind decides_startPolicySession fun handle =>
      Decides.bind (decides_nullauth (decides_policyCommand List.mem_cons_self)) fun _ =>
        Decides.assume fun _ => Decides.after decides_setSessions fun _ =>
          Decides.before (decides_activateCredential hak hek) fun recovered =>
            Decides.after decides_keep_ignore fun _ =>
              Decides.after (Decides.keep fun _ => ⟨(), _, rfl⟩) fun _ =>
                Decides.pure fun _ h => h) ?_
  rw [ActivationPasses, AttestationSession.PolicySessionStarts]
  tauto

/-- The manager returns what the TPM recovers with the session's own keys, exactly when
these can be loaded and no place of the activation fails. -/
theorem decides_activate {keys : KeyRole → KeyState} {hasResourceManager : Bool}
    {blob enc : Bytes} :
    Decides (InStates dev keys)
      ((∀ role, (keys role).IsSaved → env.faults (.contextLoad role) = none) ∧
        ActivationPasses env)
      (TpmContextManager.activate dev env hasResourceManager blob enc) fun recovered _ =>
        recovered = dev.activateCredential (keyObject dev .ak).publicArea
          (keyObject dev .ek).publicArea blob enc := by
  have hcleanup : ∀ s, ∃ s', (do
      Effect.ignore (TpmContextManager.saveIfNeeded env hasResourceManager .ak)
      Effect.ignore (TpmContextManager.saveIfNeeded env hasResourceManager .ek)) s = .ok () s' := by
    intro s
    obtain ⟨s₁, h₁⟩ :=
      Effect.ignore_returns (TpmContextManager.saveIfNeeded env hasResourceManager .ak) s
    rw [Effect.bind_of_ok h₁]
    exact Effect.ignore_returns _ s₁
  have hinner : Decides (InStates dev keys)
      (((keys .ak).IsSaved → env.faults (.contextLoad .ak) = none) ∧
        ((keys .ek).IsSaved → env.faults (.contextLoad .ek) = none) ∧ ActivationPasses env)
      (TpmContextManager.activateInner dev env blob enc) fun recovered _ =>
        recovered = dev.activateCredential (keyObject dev .ak).publicArea
          (keyObject dev .ek).publicArea blob enc := by
    refine Decides.bind decides_ensureLoaded fun ak => ?_
    refine Decides.bind (decides_ensureLoaded.congr ?_) fun ek => ?_
    · rw [Function.update_of_ne KeyRole.noConfusion]
    · refine Decides.onFst (decides_activateLoaded List.mem_cons_self
        (List.mem_cons_of_mem _ List.mem_cons_self)) fun s hs =>
          hs.knows (L := [(.ak, ak), (.ek, ek)]) ?_
      intro l hl
      obtain rfl | hl := List.mem_cons.mp hl
      · rw [Function.update_of_ne KeyRole.noConfusion, Function.update_self]
      · rw [List.mem_singleton.mp hl, Function.update_self]
  refine (hinner.congr ?_).andThenCleanup hcleanup
  rw [← and_assoc]
  refine and_congr_left' ⟨fun h role => ?_, fun h => ⟨h .ak, h .ek⟩⟩
  cases role with
  | ak => exact h.1
  | ek => exact h.2

/-! ## Quoting -/

/-- The places of a quote that the environment decides, once the key is loaded. -/
def QuotePasses (env : Env) : Prop :=
  (env.faults .pcrSelection = none ∧ env.faults .nonce = none ∧ env.faults .quote = none) ∧
    env.faults .marshalAttest = none ∧ env.faults .readSelection = none ∧
      env.faults .pcrRead = none

theorem decides_readPcrValues {pcrIndices : List UInt8} :
    Decides (Knows O S) ((∀ i ∈ pcrIndices, i.toNat ≤ 23) ∧ env.faults .readSelection = none ∧
        env.faults .pcrRead = none) (readPcrValues env pcrIndices)
      fun values _ => values = submittedPcrs env.pcrBank pcrIndices := by
  refine Decides.bind decides_pcrSlots fun slots => Decides.assume ?_
  rintro rfl
  refine Decides.bind decides_attempt fun _ => ?_
  refine Decides.before (Q := fun digests _ => digests = ((ascending slots).take 8).map env.pcrBank)
    (Decides.before decides_attempt fun _ => Decides.pure fun _ _ => ?_)
    fun digests => Decides.pure fun _ hdigests => ?_
  · rw [selectedIndices_selectionBitmap]
  · rw [hdigests, submittedPcrs]

/-- With an ECDSA key, the quote is the TPM's attestation, the padded signature of it and
the submitted registers. -/
theorem decides_quoteWithKey {akHandle : ObjectHandle} {ak : Object} {serverNonce r s : Bytes}
    {pcrIndices : List UInt8} (hak : (akHandle, ak) ∈ O) (hq : serverNonce.length ≤ maxDataSize)
    (hsign : dev.sign ak.publicArea
      (attestation dev env ak.publicArea serverNonce hq pcrIndices).encode = .ecDsa r s) :
    Decides (Knows O S) (QuotePasses env ∧ ∀ i ∈ pcrIndices, i.toNat ≤ 23)
      (quoteWithKey dev env akHandle serverNonce pcrIndices) fun out _ =>
        out = ⟨(attestation dev env ak.publicArea serverNonce hq pcrIndices).encode,
          pad32 r ++ pad32 s, submittedPcrs env.pcrBank pcrIndices⟩ := by
  have hquote : Decides (Knows O S) (env.faults .quote = none)
      (tpmQuote dev env akHandle serverNonce hq pcrIndices) fun out ctx =>
        out = ((attestation dev env ak.publicArea serverNonce hq pcrIndices).encode,
          .ecDsa r s) ∧ Knows O S ctx := by
    refine Decides.after (decides_useObject hak) fun a => Decides.assume ?_
    rintro rfl
    refine Decides.before decides_attempt fun _ => Decides.pure fun _ hctx => ⟨?_, hctx⟩
    rw [hsign]
  have hrest : Decides (Knows O S) (env.faults .marshalAttest = none ∧
      (∀ i ∈ pcrIndices, i.toNat ≤ 23) ∧ env.faults .readSelection = none ∧
        env.faults .pcrRead = none) (do
      attempt env .marshalAttest fun e => .esapi ("marshal attest failed: " ++ e)
      let pcrValues ← readPcrValues env pcrIndices
      let signature ← marshalSignature (.ecDsa r s)
      return (⟨(attestation dev env ak.publicArea serverNonce hq pcrIndices).encode, signature,
        pcrValues⟩ : QuoteOutput)) fun out _ =>
        out = ⟨(attestation dev env ak.publicArea serverNonce hq pcrIndices).encode,
          pad32 r ++ pad32 s, submittedPcrs env.pcrBank pcrIndices⟩ := by
    refine Decides.bind decides_attempt fun _ => ?_
    refine Decides.before decides_readPcrValues fun values => ?_
    refine Decides.always fun ctx hvalues => ⟨_, ctx, rfl, ?_⟩
    rw [hvalues]
  have hall : Decides (Knows O S) ((∀ i ∈ pcrIndices, i.toNat ≤ 23) ∧
      env.faults .pcrSelection = none ∧ env.faults .nonce = none ∧ env.faults .quote = none ∧
      env.faults .marshalAttest = none ∧ (∀ i ∈ pcrIndices, i.toNat ≤ 23) ∧
        env.faults .readSelection = none ∧ env.faults .pcrRead = none)
      (quoteWithKey dev env akHandle serverNonce pcrIndices) fun out _ =>
        out = ⟨(attestation dev env ak.publicArea serverNonce hq pcrIndices).encode,
          pad32 r ++ pad32 s, submittedPcrs env.pcrBank pcrIndices⟩ := by
    refine Decides.bind decides_pcrSlots fun slots => Decides.assume ?_
    rintro rfl
    refine Decides.bind decides_attempt fun _ => ?_
    rw [dif_pos hq]
    refine Decides.bind decides_attempt fun _ => ?_
    refine Decides.bind (decides_nullauth hquote) fun result => Decides.assume ?_
    rintro rfl
    exact hrest
  refine hall.congr ?_
  rw [QuotePasses]
  tauto

/-- The manager quotes with the session's own AK. -/
theorem decides_quote {keys : KeyRole → KeyState} {hasResourceManager : Bool}
    {serverNonce r s : Bytes} {pcrIndices : List UInt8} (hq : serverNonce.length ≤ maxDataSize)
    (hsign : dev.sign (keyObject dev .ak).publicArea (attestation dev env
      (keyObject dev .ak).publicArea serverNonce hq pcrIndices).encode = .ecDsa r s) :
    Decides (InStates dev keys)
      (((keys .ak).IsSaved → env.faults (.contextLoad .ak) = none) ∧ QuotePasses env ∧
        ∀ i ∈ pcrIndices, i.toNat ≤ 23)
      (TpmContextManager.quote dev env hasResourceManager serverNonce pcrIndices) fun out _ =>
        out = ⟨(attestation dev env (keyObject dev .ak).publicArea serverNonce hq
          pcrIndices).encode, pad32 r ++ pad32 s, submittedPcrs env.pcrBank pcrIndices⟩ := by
  refine Decides.andThenCleanup (Decides.bind decides_ensureLoaded fun ak => ?_)
    (Effect.ignore_returns _)
  refine Decides.onFst (decides_quoteWithKey List.mem_cons_self hq hsign) fun s hs =>
    hs.knows (L := [(.ak, ak)]) fun l hl => ?_
  rw [List.mem_singleton.mp hl, Function.update_self]

/-! ## Sealing and unsealing -/

/-- The digest that `PolicyPCR` gives for the current registers. -/
def policyOf (dev : Device) (env : Env) (slots : List UInt8) : Bytes :=
  dev.policyPcrDigest (selectionBitmap slots)
    (dev.sha.hashWith .sha256 (selectedPcrs env (selectionBitmap slots)))

end

end Fleetos.Tpm
