import FleetosCore.Attestation.Tpm.EkIdentity
import FleetosCore.Attestation.Tpm.Replies

/-!
# Credential activation between node and server

The server's half of credential activation, `make_credential` of `src/attestation/tpm.rs`
with `spki_to_tpm_public` and `compute_ak_name`, and the activation proof of
`src/attestation.rs`. The server reads the endorsement key out of the SubjectPublicKeyInfo
that the node has sent, and derives the name of the attestation key from its marshalled
public area. The node's half is the activation of the other modules.

The two TPMs are tied together by what they promise: a credential made for an RSA key and
a name is recovered by the TPM that has this key and an object of this name.
-/

namespace Fleetos.Tpm

open Attestation (Sha2 HashKind hashKindOf ctEq)

/-! ## The server -/

/-- A 32-octet secret. -/
structure Secret where
  bytes : Bytes
  length_eq : bytes.length = 32

/-- The fallible places of `make_credential` that a library or the TPM decides. -/
inductive ServerStep where
  | attributes
  | exponent
  | modulus
  | akName
  | loadEk
  | digest
  | makeCredential
  | flushEk
  deriving DecidableEq, Repr

/-- What one call meets: the places that fail, and the TPM's random seed. -/
structure ServerEnv where
  faults : ServerStep → Option String
  seed : Bytes

/-- The server's TPM and libraries. -/
structure Server where
  tcti : Tcti
  endpoint : TpmEndpoint
  /-- `SubjectPublicKeyInfoRef::from_der`: the object identifier of the algorithm and the
  octets of the key. -/
  spkiFromDer : Bytes → Except String (List Nat × Bytes)
  sha : Sha2
  /-- `TPM2_MakeCredential`, from its seed, the key, the name and the credential. -/
  makeCredential : Bytes → Public → Bytes → Bytes → Bytes × Bytes

def rsaOid : List Nat := [1, 2, 840, 113549, 1, 1, 1]

def ServerEnv.pass (env : ServerEnv) (step : ServerStep) (wrap : String → TssError) :
    Except EkFailure Unit :=
  match env.faults step with
  | none => pure ()
  | some e => throw (.err (wrap e))

/-- Four upper-case hexadecimal digits. -/
def hex4 (n : UInt16) : String :=
  let digits := (Nat.toDigits 16 n.toNat).map Char.toUpper
  String.ofList (List.replicate (4 - digits.length) '0' ++ digits)

section

variable (server : Server) (env : ServerEnv)

/-- The digest of the area under its name algorithm, for the SHA-2 family. -/
def akDigest (nameAlg : UInt16) (tpmtPublic : Bytes) : Except EkFailure Bytes :=
  if nameAlg = 0x000B then pure (server.sha.hashWith .sha256 tpmtPublic)
  else if nameAlg = 0x000C then pure (server.sha.hashWith .sha384 tpmtPublic)
  else if nameAlg = 0x000D then pure (server.sha.hashWith .sha512 tpmtPublic)
  else if nameAlg = 0x0004 then
    throw (.err (.invalidAk "unsupported nameAlg SHA-1 (0x0004): fleet requires a SHA-2 nameAlg"))
  else throw (.err (.invalidAk ("unsupported or unknown nameAlg 0x" ++ hex4 nameAlg)))

def computeAkName (tpmtPublic : Bytes) : Except EkFailure Bytes := do
  if tpmtPublic.length < 4 then
    throw (.err (.invalidAk "TPMT_PUBLIC too short to contain nameAlg"))
  let nameAlg := Bytes.readU16 (tpmtPublic.getD 2 0) (tpmtPublic.getD 3 0)
  let digest ← akDigest server nameAlg tpmtPublic
  env.pass .akName fun e => .invalidAk ("AK name: " ++ e)
  return Bytes.u16be nameAlg ++ digest

def spkiToTpmPublic (spkiDer : Bytes) : Except EkFailure Public := do
  let (oid, key) ← (server.spkiFromDer spkiDer).mapError fun e =>
    .err (.invalidEk ("SPKI parse failed: " ++ e))
  if oid ≠ rsaOid then
    throw (.err (.invalidEk "only RSA EKs are supported for MakeCredential"))
  let (modulus, exponent) ← parseRsaPublicKey key
  if modulus.length * 8 ≠ 2048 ∧ modulus.length * 8 ≠ 3072 then
    throw (.err (.invalidEk ("unsupported RSA EK size: " ++ toString (modulus.length * 8))))
  env.pass .attributes fun e => .invalidEk ("object attributes: " ++ e)
  env.pass .exponent fun e => .invalidEk ("exponent: " ++ e)
  env.pass .modulus fun e => .invalidEk ("modulus: " ++ e)
  return .rsa modulus exponent

/-- Programs on the objects of the context that the call opens. -/
abbrev ServerM (α : Type) : Type := Effect EkFailure (HandleTable Public) α

def lift {α : Type} (result : Except EkFailure α) : ServerM α := fun objects =>
  match result with
  | .ok a => .ok a objects
  | .error e => .error e objects

/-- `load_external_public` once it has passed. -/
def loadExternal (ekPublic : Public) : ServerM ObjectHandle := fun objects =>
  .ok objects.next (objects.alloc ekPublic)

/-- `let _ = context.flush_context(handle)`. -/
def flushExternal (handle : ObjectHandle) : ServerM Unit := fun objects =>
  match env.faults .flushEk with
  | none => .ok () (objects.free handle)
  | some _ => .ok () objects

def makeCredential (ekSpkiDer akPub : Bytes) (secret : Secret) : ServerM (Bytes × Bytes) := do
  let _ ← lift ((createContext server.tcti server.endpoint).mapError .err)
  let ekPublic ← lift (spkiToTpmPublic server env ekSpkiDer)
  let akName ← lift (computeAkName server env akPub)
  lift (env.pass .loadEk fun e => .esapi ("load EK failed: " ++ e))
  let ekHandle ← loadExternal ekPublic
  lift (env.pass .digest fun e => .esapi ("digest failed: " ++ e))
  lift (env.pass .makeCredential fun e => .esapi ("make_credential failed: " ++ e))
  flushExternal env ekHandle
  return server.makeCredential env.seed ekPublic akName secret.bytes

end

/-! ## The activation proof -/

section

variable (keyedHash : Bytes → Bytes → Bytes)

def computeActivationProof (secret : Secret) (serverNonce : Bytes) : Bytes :=
  keyedHash secret.bytes serverNonce

def verifyActivationProof (secret : Secret) (serverNonce proof : Bytes) : Bool :=
  ctEq (computeActivationProof keyedHash secret serverNonce) proof

end

/-! ## What the server accepts -/

/-- The name of an object: the selector of its name algorithm and the digest of its public
area under this algorithm, which is one of the SHA-2 family. -/
def IsName (sha : Sha2) (area name : Bytes) : Prop :=
  ∃ typ nameAlg rest kind, area = typ ++ (Bytes.u16be nameAlg ++ rest) ∧ typ.length = 2 ∧
    hashKindOf nameAlg = some kind ∧ name = Bytes.u16be nameAlg ++ sha.hashWith kind area

theorem ServerEnv.pass_ok_iff {env : ServerEnv} {step : ServerStep} {wrap : String → TssError}
    {u : Unit} : env.pass step wrap = .ok u ↔ env.faults step = none := by
  rw [ServerEnv.pass]
  cases env.faults step with
  | none => exact iff_of_true rfl rfl
  | some e =>
      constructor
      · intro h
        cases h
      · intro h
        cases h

section

variable {server : Server} {env : ServerEnv}

theorem akDigest_ok_iff {nameAlg : UInt16} {area digest : Bytes} :
    akDigest server nameAlg area = .ok digest ↔
      ∃ kind, hashKindOf nameAlg = some kind ∧ digest = server.sha.hashWith kind area := by
  have hkind : akDigest server nameAlg area = .ok digest ↔
      (hashKindOf nameAlg).map (server.sha.hashWith · area) = some digest := by
    unfold akDigest hashKindOf
    repeat' split
    all_goals simp_all [Attestation.tpmAlgSha256, Attestation.tpmAlgSha384,
      Attestation.tpmAlgSha512]
  rw [hkind, Option.map_eq_some_iff]
  exact exists_congr fun kind => and_congr_right fun _ => eq_comm

/-- An area that is long enough, at its name algorithm. -/
theorem split_area {area : Bytes} (h : ¬ area.length < 4) :
    ∃ typ rest, area = typ ++ (Bytes.u16be (Bytes.readU16 (area.getD 2 0) (area.getD 3 0)) ++
      rest) ∧ typ.length = 2 := by
  obtain _ | ⟨a, _ | ⟨b, _ | ⟨c, _ | ⟨d, rest⟩⟩⟩⟩ := area
  · simp at h
  · simp at h
  · simp at h
  · simp at h
  · refine ⟨[a, b], rest, ?_, rfl⟩
    rw [Bytes.u16be_readU16]
    rfl

theorem computeAkName_ok_iff {area name : Bytes} :
    computeAkName server env area = .ok name ↔
      IsName server.sha area name ∧ env.faults .akName = none := by
  rw [computeAkName]
  constructor
  · intro h
    split at h
    · cases h
    · rename_i hlong
      obtain ⟨digest, hdigest, _, hpass, hname⟩ := by
        simpa only [Fallible.bind_ok_iff, ServerEnv.pass_ok_iff] using h
      obtain ⟨kind, hkind, rfl⟩ := akDigest_ok_iff.mp hdigest
      obtain ⟨typ, rest, harea, htyp⟩ := split_area hlong
      exact ⟨⟨typ, _, rest, kind, harea, htyp, hkind, (Except.ok.inj hname).symm⟩, hpass⟩
  · rintro ⟨⟨typ, nameAlg, rest, kind, harea, htyp, hkind, rfl⟩, hpass⟩
    obtain ⟨a, b, rfl⟩ := List.length_eq_two.mp htyp
    have halg : Bytes.readU16 (area.getD 2 0) (area.getD 3 0) = nameAlg := by
      rw [harea]
      exact Bytes.readU16_eq_iff.mpr rfl
    have hlong : ¬ area.length < 4 := by
      rw [harea]
      simp [Bytes.u16be]
    rw [if_neg hlong, halg]
    simp only [Fallible.bind_ok_iff, ServerEnv.pass_ok_iff]
    exact ⟨_, akDigest_ok_iff.mpr ⟨kind, hkind, rfl⟩, (), hpass, rfl⟩

theorem spkiToTpmPublic_ok_iff {spkiDer : Bytes} {area : Public} :
    spkiToTpmPublic server env spkiDer = .ok area ↔
      ∃ key modulus exponent, server.spkiFromDer spkiDer = .ok (rsaOid, key) ∧
        parseRsaPublicKey key = .ok (modulus, exponent) ∧
        (modulus.length = 256 ∨ modulus.length = 384) ∧
        (∀ step ∈ [ServerStep.attributes, .exponent, .modulus], env.faults step = none) ∧
        area = .rsa modulus exponent := by
  rw [spkiToTpmPublic]
  constructor
  · intro h
    obtain ⟨⟨oid, key⟩, hspki, h⟩ := Fallible.bind_ok_iff.mp h
    dsimp only at h
    split at h
    · cases h
    · rename_i hoid
      obtain ⟨⟨modulus, exponent⟩, hparse, h⟩ := Fallible.bind_ok_iff.mp h
      dsimp only at h
      split at h
      · cases h
      · rename_i hsize
        obtain ⟨_, hattributes, _, hexponent, _, hmodulus, harea⟩ := by
          simpa only [Fallible.bind_ok_iff, ServerEnv.pass_ok_iff] using h
        have hread := Fallible.mapError_ok_iff.mp hspki
        rw [not_not.mp hoid] at hread
        refine ⟨key, modulus, exponent, hread, hparse, by omega, ?_, (Except.ok.inj harea).symm⟩
        simpa using ⟨hattributes, hexponent, hmodulus⟩
  · rintro ⟨key, modulus, exponent, hspki, hparse, hsize, hpass, rfl⟩
    have hsupported : ¬ (modulus.length * 8 ≠ 2048 ∧ modulus.length * 8 ≠ 3072) := by omega
    refine Fallible.bind_ok_iff.mpr ⟨(rsaOid, key), Fallible.mapError_ok_iff.mpr hspki, ?_⟩
    dsimp only
    rw [if_neg (not_not_intro rfl)]
    refine Fallible.bind_ok_iff.mpr ⟨(modulus, exponent), hparse, ?_⟩
    dsimp only
    rw [if_neg hsupported]
    simp only [Fallible.bind_ok_iff, ServerEnv.pass_ok_iff]
    exact ⟨(), hpass _ (by simp), (), hpass _ (by simp), (), hpass _ (by simp), rfl⟩

theorem ServerEnv.pass_ne_panic {step : ServerStep} {wrap : String → TssError} :
    env.pass step wrap ≠ .error .panic := by
  rw [ServerEnv.pass]
  cases env.faults step with
  | none =>
      intro h
      cases h
  | some e =>
      intro h
      cases h

theorem spkiToTpmPublic_panic_iff (env : ServerEnv) {spkiDer : Bytes} :
    spkiToTpmPublic server env spkiDer = .error .panic ↔
      ∃ key, server.spkiFromDer spkiDer = .ok (rsaOid, key) ∧
        (TruncatedModulus key ∨ TruncatedExponent key) := by
  simp only [← parseRsaPublicKey_panic_iff]
  rw [spkiToTpmPublic]
  constructor
  · intro h
    rcases Fallible.bind_error_iff.mp h with hspki | ⟨⟨oid, key⟩, hspki, h⟩
    · cases hread : server.spkiFromDer spkiDer with
      | ok result =>
          rw [hread] at hspki
          cases hspki
      | error e =>
          rw [hread] at hspki
          cases hspki
    · dsimp only at h
      split at h
      · cases h
      · rename_i hoid
        have hread := Fallible.mapError_ok_iff.mp hspki
        rw [not_not.mp hoid] at hread
        refine ⟨key, hread, ?_⟩
        rcases Fallible.bind_error_iff.mp h with hparse | ⟨⟨modulus, exponent⟩, -, h⟩
        · exact hparse
        · dsimp only at h
          split at h
          · cases h
          · simp only [Fallible.bind_error_iff, ServerEnv.pass_ne_panic, false_or] at h
            obtain ⟨_, -, _, -, _, -, hdone⟩ := h
            cases hdone
  · rintro ⟨key, hspki, hparse⟩
    refine Fallible.bind_error_iff.mpr
      (.inr ⟨(rsaOid, key), Fallible.mapError_ok_iff.mpr hspki, ?_⟩)
    dsimp only
    rw [if_neg (not_not_intro rfl)]
    exact Fallible.bind_error_iff.mpr (.inl hparse)

theorem computeAkName_ne_panic {area : Bytes} :
    computeAkName server env area ≠ .error .panic := by
  rw [computeAkName]
  intro h
  split at h
  · cases h
  · rcases Fallible.bind_error_iff.mp h with hdigest | ⟨digest, -, h⟩
    · unfold akDigest at hdigest
      repeat' split at hdigest
      all_goals cases hdigest
    · rcases Fallible.bind_error_iff.mp h with hname | ⟨_, -, h⟩
      · exact ServerEnv.pass_ne_panic hname
      · cases h

/-! ## Whole calls -/

theorem createContext_ok {tcti : Tcti} {endpoint : TpmEndpoint} {ctx : Context}
    (h : createContext tcti endpoint = .ok ctx) : ctx = .empty := by
  simp only [createContext, Fallible.bind_ok_iff] at h
  obtain ⟨_, -, _, -, hctx⟩ := h
  exact (Except.ok.inj hctx).symm

/-- The server reads these out of what the node has sent. -/
structure Acceptable (server : Server) (ekSpkiDer akPub modulus : Bytes) (exponent : UInt32)
    (name : Bytes) : Prop where
  connects : createContext server.tcti server.endpoint = .ok .empty
  key : ∃ content, server.spkiFromDer ekSpkiDer = .ok (rsaOid, content) ∧
    parseRsaPublicKey content = .ok (modulus, exponent)
  size : modulus.length = 256 ∨ modulus.length = 384
  name : IsName server.sha akPub name

/-- The places up to the load of the EK. -/
def ServerStep.untilLoad : List ServerStep := [.attributes, .exponent, .modulus, .akName, .loadEk]

/-- What is done before the EK is loaded. -/
def prepare (server : Server) (env : ServerEnv) (ekSpkiDer akPub : Bytes) :
    Except EkFailure (Public × Bytes) := do
  let _ ← (createContext server.tcti server.endpoint).mapError .err
  let ekPublic ← spkiToTpmPublic server env ekSpkiDer
  let akName ← computeAkName server env akPub
  env.pass .loadEk fun e => .esapi ("load EK failed: " ++ e)
  return (ekPublic, akName)

/-- What is done with the EK loaded. -/
def useLoaded (server : Server) (env : ServerEnv) (secret : Secret) (ekPublic : Public)
    (akName : Bytes) (ekHandle : ObjectHandle) : ServerM (Bytes × Bytes) := do
  lift (env.pass .digest fun e => .esapi ("digest failed: " ++ e))
  lift (env.pass .makeCredential fun e => .esapi ("make_credential failed: " ++ e))
  flushExternal env ekHandle
  return server.makeCredential env.seed ekPublic akName secret.bytes

variable {ekSpkiDer akPub : Bytes} {secret : Secret}

theorem lift_bind {α β : Type} (m : Except EkFailure α) (f : α → Except EkFailure β) :
    lift (m >>= f) = lift m >>= fun a => lift (f a) := by
  funext objects
  cases m with
  | ok a => rfl
  | error e => rfl

theorem makeCredential_eq :
    makeCredential server env ekSpkiDer akPub secret =
      lift (prepare server env ekSpkiDer akPub) >>= fun prepared =>
        loadExternal prepared.1 >>= useLoaded server env secret prepared.1 prepared.2 := by
  have hpure : ∀ x : Public × Bytes, lift (pure x : Except EkFailure _) = pure x := fun _ => rfl
  simp only [prepare, lift_bind, bind_assoc, hpure, pure_bind]
  rfl

theorem prepare_ok_iff {ekPublic : Public} {akName : Bytes} :
    prepare server env ekSpkiDer akPub = .ok (ekPublic, akName) ↔
      ∃ modulus exponent, ekPublic = .rsa modulus exponent ∧
        Acceptable server ekSpkiDer akPub modulus exponent akName ∧
        ∀ step ∈ ServerStep.untilLoad, env.faults step = none := by
  simp only [prepare, Fallible.bind_ok_iff, Fallible.mapError_ok_iff, ServerEnv.pass_ok_iff,
    spkiToTpmPublic_ok_iff, computeAkName_ok_iff, Fallible.pure_ok_iff, Prod.mk.injEq]
  constructor
  · rintro ⟨ctx, hconnect, _, ⟨content, modulus, exponent, hspki, hparse, hsize, hpass, rfl⟩, _,
      ⟨hname, hakPass⟩, -, hload, rfl, rfl⟩
    obtain rfl := createContext_ok hconnect
    refine ⟨modulus, exponent, rfl, ⟨hconnect, ⟨content, hspki, hparse⟩, hsize, hname⟩, ?_⟩
    simp only [ServerStep.untilLoad, List.forall_mem_cons, List.not_mem_nil, IsEmpty.forall_iff,
      implies_true, and_true] at hpass ⊢
    exact ⟨hpass.1, hpass.2.1, hpass.2.2, hakPass, hload⟩
  · rintro ⟨modulus, exponent, rfl, ⟨hconnect, ⟨content, hspki, hparse⟩, hsize, hname⟩, hpass⟩
    simp only [ServerStep.untilLoad, List.forall_mem_cons, List.not_mem_nil, IsEmpty.forall_iff,
      implies_true, and_true] at hpass ⊢
    obtain ⟨hattributes, hexponent, hmodulus, hakPass, hload⟩ := hpass
    exact ⟨.empty, hconnect, _, ⟨content, modulus, exponent, hspki, hparse, hsize,
      ⟨hattributes, hexponent, hmodulus⟩, rfl⟩, akName, ⟨hname, hakPass⟩, (), hload, rfl, rfl⟩

theorem prepare_panic_iff (env : ServerEnv) (akPub : Bytes) :
    prepare server env ekSpkiDer akPub = .error .panic ↔
      createContext server.tcti server.endpoint = .ok .empty ∧
        ∃ content, server.spkiFromDer ekSpkiDer = .ok (rsaOid, content) ∧
          (TruncatedModulus content ∨ TruncatedExponent content) := by
  rw [← spkiToTpmPublic_panic_iff env, prepare]
  cases hconnect : createContext server.tcti server.endpoint with
  | error e =>
      constructor
      · intro h
        cases h
      · rintro ⟨h, -⟩
        cases h
  | ok ctx =>
      obtain rfl := createContext_ok hconnect
      refine Iff.trans ?_ (and_iff_right rfl).symm
      show (spkiToTpmPublic server env ekSpkiDer >>= _) = _ ↔ _
      rw [Fallible.bind_error_iff]
      refine ⟨fun h => h.resolve_right ?_, .inl⟩
      rintro ⟨ekPublic, -, h⟩
      simp only [Fallible.bind_error_iff, computeAkName_ne_panic, ServerEnv.pass_ne_panic,
        false_or] at h
      obtain ⟨_, -, _, -, hdone⟩ := h
      cases hdone

/-- The places behind the load all pass. -/
def Unhindered (env : ServerEnv) : Prop := ∀ step ∉ ServerStep.untilLoad, env.faults step = none

theorem unhindered_iff : Unhindered env ↔
    env.faults .digest = none ∧ env.faults .makeCredential = none ∧ env.faults .flushEk = none := by
  constructor
  · exact fun h => ⟨h _ (by decide), h _ (by decide), h _ (by decide)⟩
  · rintro ⟨hdigest, hmake, hflush⟩ step
    cases step <;> simp [ServerStep.untilLoad, hdigest, hmake, hflush]

/-- Only the flush can fail with a credential to return. -/
theorem useLoaded_outcome (server : Server) (env : ServerEnv) (secret : Secret) (area : Public)
    (name : Bytes) :
    let result := useLoaded server env secret area name 0 (HandleTable.empty.alloc area)
    let left := (Effect.stateAfter result).entries.map Prod.snd
    Effect.answer result ≠ .error .panic ∧
    (∀ credential, Effect.answer result = .ok credential ↔
      (env.faults .digest = none ∧ env.faults .makeCredential = none) ∧
        credential = server.makeCredential env.seed area name secret.bytes) ∧
    (Unhindered env → left = []) ∧ (¬ Unhindered env → left = [area]) := by
  intro result left
  have hpass : ∀ {step : ServerStep} {wrap : String → TssError}, env.faults step = none →
      env.pass step wrap = .ok () := fun h => ServerEnv.pass_ok_iff.mpr h
  have hstop : ∀ {step : ServerStep} {wrap : String → TssError} {e : String},
      env.faults step = some e → env.pass step wrap = .error (.err (wrap e)) := by
    intro step wrap e h
    rw [ServerEnv.pass, h]
    rfl
  rw [unhindered_iff]
  cases hdigest : env.faults .digest with
  | some e =>
      have hrun : result = .error (.err (.esapi ("digest failed: " ++ e)))
          (HandleTable.empty.alloc area) := by
        simp only [result, useLoaded, hstop hdigest]
        rfl
      simp [left, hrun, Effect.answer, Effect.stateAfter, HandleTable.empty]
  | none =>
      cases hmake : env.faults .makeCredential with
      | some e =>
          have hrun : result = .error (.err (.esapi ("make_credential failed: " ++ e)))
              (HandleTable.empty.alloc area) := by
            simp only [result, useLoaded, hpass hdigest, hstop hmake]
            rfl
          simp [left, hrun, Effect.answer, Effect.stateAfter, HandleTable.empty]
      | none =>
          have hrun : result = (flushExternal env 0 >>= fun _ =>
              pure (server.makeCredential env.seed area name secret.bytes))
                (HandleTable.empty.alloc area) := by
            simp only [result, useLoaded, hpass hdigest, hpass hmake]
            rfl
          have hreturns : ∀ objects, result =
              .ok (server.makeCredential env.seed area name secret.bytes) objects →
                ∀ credential, Effect.answer result = .ok credential ↔
                  credential = server.makeCredential env.seed area name secret.bytes := by
            intro objects hok credential
            rw [hok]
            exact ⟨fun h => (Except.ok.inj h).symm, fun h => congrArg Except.ok h.symm⟩
          cases hflush : env.faults .flushEk with
          | none =>
              have hok : result = .ok (server.makeCredential env.seed area name secret.bytes)
                  ((HandleTable.empty.alloc area).free 0) := by
                rw [hrun, Effect.bind_of_ok (by rw [flushExternal, hflush])]
                rfl
              simp [left, hreturns _ hok]
              simp [hok, Effect.answer, Effect.stateAfter, HandleTable.empty]
          | some e =>
              have hok : result = .ok (server.makeCredential env.seed area name secret.bytes)
                  (HandleTable.empty.alloc area) := by
                rw [hrun, Effect.bind_of_ok (by rw [flushExternal, hflush])]
                rfl
              simp [left, hreturns _ hok]
              simp [hok, Effect.answer, Effect.stateAfter, HandleTable.empty]

theorem makeCredential_of_refused {e : EkFailure}
    (h : prepare server env ekSpkiDer akPub = .error e) :
    makeCredential server env ekSpkiDer akPub secret .empty = .error e .empty := by
  rw [makeCredential_eq, h]
  rfl

theorem makeCredential_of_prepared {area : Public} {name : Bytes}
    (h : prepare server env ekSpkiDer akPub = .ok (area, name)) :
    makeCredential server env ekSpkiDer akPub secret .empty =
      useLoaded server env secret area name 0 (HandleTable.empty.alloc area) := by
  rw [makeCredential_eq, h]
  rfl

/-- What is prepared is the only key and name that are acceptable. -/
theorem Acceptable.unique {area : Public} {name modulus name' : Bytes} {exponent : UInt32}
    (hprepare : prepare server env ekSpkiDer akPub = .ok (area, name))
    (h : Acceptable server ekSpkiDer akPub modulus exponent name') :
    area = .rsa modulus exponent ∧ name = name' := by
  obtain ⟨_, _, -, -, hpass⟩ := prepare_ok_iff.mp hprepare
  have hok := prepare_ok_iff.mpr ⟨modulus, exponent, rfl, h, hpass⟩
  rw [hprepare] at hok
  exact Prod.mk.inj (Except.ok.inj hok)

theorem Acceptable.not_passes {name modulus : Bytes} {exponent : UInt32} {e : EkFailure}
    (hprepare : prepare server env ekSpkiDer akPub = .error e)
    (h : Acceptable server ekSpkiDer akPub modulus exponent name) :
    ¬ ∀ step ∈ ServerStep.untilLoad, env.faults step = none := by
  intro hpass
  have hok := prepare_ok_iff.mpr ⟨modulus, exponent, rfl, h, hpass⟩
  rw [hprepare] at hok
  cases hok

/-- All places pass but for the flush. -/
theorem passes_iff : (∀ step, step ≠ .flushEk → env.faults step = none) ↔
    (∀ step ∈ ServerStep.untilLoad, env.faults step = none) ∧
      env.faults .digest = none ∧ env.faults .makeCredential = none := by
  constructor
  · exact fun h => ⟨fun step hstep => h step (by rintro rfl; revert hstep; decide),
      h _ (by decide), h _ (by decide)⟩
  · rintro ⟨huntil, hdigest, hmake⟩ step hstep
    cases step with
    | digest => exact hdigest
    | makeCredential => exact hmake
    | flushEk => exact absurd rfl hstep
    | _ => exact huntil _ (by decide)

theorem makeCredential_ok_iff {credential : Bytes × Bytes} :
    Effect.answer (makeCredential server env ekSpkiDer akPub secret .empty) = .ok credential ↔
      ∃ modulus exponent name, Acceptable server ekSpkiDer akPub modulus exponent name ∧
        (∀ step, step ≠ .flushEk → env.faults step = none) ∧
        credential = server.makeCredential env.seed (.rsa modulus exponent) name secret.bytes := by
  rw [passes_iff]
  cases hprepare : prepare server env ekSpkiDer akPub with
  | error e =>
      rw [makeCredential_of_refused hprepare]
      refine iff_of_false (by simp [Effect.answer]) ?_
      rintro ⟨modulus, exponent, name, h, ⟨hpass, -⟩, -⟩
      exact h.not_passes hprepare hpass
  | ok prepared =>
      obtain ⟨area, name⟩ := prepared
      obtain ⟨modulus, exponent, rfl, hacceptable, hpass⟩ := prepare_ok_iff.mp hprepare
      rw [makeCredential_of_prepared hprepare, (useLoaded_outcome _ _ _ _ _).2.1 credential]
      constructor
      · exact fun h => ⟨modulus, exponent, name, hacceptable, ⟨hpass, h.1⟩, h.2⟩
      · rintro ⟨modulus', exponent', name', h, ⟨-, hlater⟩, rfl⟩
        obtain ⟨harea, rfl⟩ := h.unique hprepare
        exact ⟨hlater, by rw [harea]⟩

end

/-- What the server does with the octets that a node has sent. It returns a credential for
the key and the name in them exactly when the key is RSA of a supported size and the name
algorithm is of the SHA-2 family. It panics exactly on a key with an INTEGER that is cut
short. It leaves the node's EK loaded exactly when a place behind the load fails. -/
theorem makeCredential_outcome (server : Server) (env : ServerEnv) (ekSpkiDer akPub : Bytes)
    (secret : Secret) :
    let result := makeCredential server env ekSpkiDer akPub secret .empty
    let left := (Effect.stateAfter result).entries.map Prod.snd
    (∀ credential, Effect.answer result = .ok credential ↔
      ∃ modulus exponent name, Acceptable server ekSpkiDer akPub modulus exponent name ∧
        (∀ step, step ≠ .flushEk → env.faults step = none) ∧
        credential = server.makeCredential env.seed (.rsa modulus exponent) name secret.bytes) ∧
    (Effect.answer result = .error .panic ↔
      createContext server.tcti server.endpoint = .ok .empty ∧
        ∃ content, server.spkiFromDer ekSpkiDer = .ok (rsaOid, content) ∧
          (TruncatedModulus content ∨ TruncatedExponent content)) ∧
    (∀ area, left = [area] ↔
      ∃ modulus exponent name, area = .rsa modulus exponent ∧
        Acceptable server ekSpkiDer akPub modulus exponent name ∧
        (∀ step ∈ ServerStep.untilLoad, env.faults step = none) ∧ ¬ Unhindered env) ∧
    left.length ≤ 1 := by
  intro result left
  rw [← prepare_panic_iff env akPub]
  refine ⟨fun _ => makeCredential_ok_iff, ?_⟩
  cases hprepare : prepare server env ekSpkiDer akPub with
  | error e =>
      have hfails : result = .error e .empty := makeCredential_of_refused hprepare
      have hleft : left = [] := by
        simp only [left, hfails]
        rfl
      rw [hleft, hfails]
      refine ⟨by simp [Effect.answer], fun area => iff_of_false (by simp) ?_, by simp⟩
      rintro ⟨modulus, exponent, name, -, h, hpass, -⟩
      exact h.not_passes hprepare hpass
  | ok prepared =>
      obtain ⟨area, name⟩ := prepared
      obtain ⟨modulus, exponent, rfl, hacceptable, hpass⟩ := prepare_ok_iff.mp hprepare
      obtain ⟨hreturns, -, hempty, hkept⟩ := useLoaded_outcome server env secret
        (.rsa modulus exponent) name
      simp only [left, result, makeCredential_of_prepared hprepare]
      refine ⟨iff_of_false hreturns (by simp), fun area => ⟨fun h => ?_, ?_⟩, ?_⟩
      · by_cases hfree : Unhindered env
        · rw [hempty hfree] at h
          cases h
        · rw [hkept hfree] at h
          exact ⟨modulus, exponent, name, (List.cons.inj h).1.symm, hacceptable, hpass, hfree⟩
      · rintro ⟨modulus', exponent', name', rfl, h, -, hhindered⟩
        rw [hkept hhindered, (h.unique hprepare).1]
      · by_cases hfree : Unhindered env
        · rw [hempty hfree]
          simp
        · rw [hkept hfree]
          simp

end Fleetos.Tpm
