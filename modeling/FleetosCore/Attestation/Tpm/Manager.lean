import FleetosCore.Attestation.Tpm.Device
import FleetosCore.Library.Der

/-!
# Managed attestation sessions, sealing and quoting

`TpmContextManager` of `src/attestation/tpm.rs` with `ManagedAttestationSession` and
`KeyState`, and the quote of the older `AttestationSession`. Every operation follows the
source place by place: its conversions, commands, early returns and ignored results
stand in the source's order, with the source's error texts.

An operation on a session runs on the context together with the session, because the
source changes the key states through a mutable reference and an early return keeps
those changes.
-/

namespace Fleetos.Tpm

open Attestation (PcrValue QuoteAttest HashKind selectedIndices)

/-! ## Templates and encodings -/

def ekTemplate (env : Env) : TpmM Template := do
  attempt env (.ekTemplate .attrs) fun e => .invalidEk ("EK attrs: " ++ e)
  attempt env (.ekTemplate .authPolicy) fun e => .invalidEk ("EK authPolicy: " ++ e)
  attempt env (.ekTemplate .exponent) fun e => .invalidEk ("EK exponent: " ++ e)
  attempt env (.ekTemplate .unique) fun e => .invalidEk ("EK unique: " ++ e)
  return .ek

def akTemplate (env : Env) : TpmM Template := do
  attempt env .akTemplate fun e => .invalidAk ("AK attrs: " ++ e)
  return .ak

def srkTemplate (env : Env) : TpmM Template := do
  attempt env (.srkTemplate .attrs) fun e => .esapi ("SRK attrs: " ++ e)
  attempt env (.srkTemplate .exponent) fun e => .esapi ("SRK exponent: " ++ e)
  attempt env (.srkTemplate .unique) fun e => .esapi ("SRK unique: " ++ e)
  return .srk

/-- An exponent field of zero stands for 65537. -/
def extractRsaPublic : Public → TpmM (Bytes × UInt32)
  | .rsa unique exponent => return (unique, if exponent = 0 then 65537 else exponent)
  | .other _ => refuse .extractEk (.invalidEk "expected RSA EK public")

def derLen (len : Nat) : Bytes :=
  if len < 0x80 then [UInt8.ofNat len]
  else (0x80 ||| UInt8.ofNat (Der.octets len).length) :: Der.octets len

/-- Leading zero octets are dropped, all but the last. -/
def stripZeros : Bytes → Bytes
  | 0 :: b :: rest => stripZeros (b :: rest)
  | v => v

def derInteger (v : Bytes) : Bytes :=
  let v := stripZeros v
  let body := (if v.headD 0 &&& 0x80 ≠ 0 then [0x00] else []) ++ v
  0x02 :: (derLen body.length ++ body)

def derSeq (body : Bytes) : Bytes := 0x30 :: (derLen body.length ++ body)

def derBitstring (body : Bytes) : Bytes := 0x03 :: (derLen (body.length + 1) ++ 0x00 :: body)

def rsaPublicToSpki (modulus : Bytes) (exponent : UInt32) : Bytes :=
  let rsaOid := [0x06, 0x09, 0x2a, 0x86, 0x48, 0x86, 0xf7, 0x0d, 0x01, 0x01, 0x01]
  let algSeq := derSeq (rsaOid ++ [0x05, 0x00])
  let rsaSeq := derSeq (derInteger modulus ++ derInteger (Bytes.u32be exponent))
  derSeq (algSeq ++ derBitstring rsaSeq)

def pad32 (v : Bytes) : Bytes := List.replicate (32 - v.length) 0 ++ v

def marshalSignature : Signature → TpmM Bytes
  | .ecDsa r s => return pad32 r ++ pad32 s
  | .rsaSsa signature => return signature
  | .other => refuse .marshalSignature (.esapi "unsupported quote signature scheme")

/-! ## Sessions -/

inductive KeyState where
  | live (handle : ObjectHandle)
  | saved (context : TpmsContext)
  deriving DecidableEq, Repr

structure ManagedAttestationSession where
  ekState : KeyState
  akState : KeyState
  akPub : Bytes
  ekSpki : Bytes
  deriving DecidableEq, Repr

namespace ManagedAttestationSession

def key (session : ManagedAttestationSession) : KeyRole → KeyState
  | .ek => session.ekState
  | .ak => session.akState

def setKey (session : ManagedAttestationSession) (role : KeyRole) (state : KeyState) :
    ManagedAttestationSession :=
  match role with
  | .ek => { session with ekState := state }
  | .ak => { session with akState := state }

end ManagedAttestationSession

/-- Operations that also change a session. -/
abbrev SessionM (α : Type) : Type := Effect TssError (Context × ManagedAttestationSession) α

def keyState (role : KeyRole) : SessionM KeyState := fun s => .ok (s.2.key role) s

def setKeyState (role : KeyRole) (state : KeyState) : SessionM Unit := fun s =>
  .ok () (s.1, s.2.setKey role state)

structure QuoteOutput where
  quote : Bytes
  signature : Bytes
  pcrValues : List PcrValue
  deriving DecidableEq, Repr

structure SealedBlob where
  privateArea : Bytes
  publicArea : Bytes
  pcrIndices : List UInt8
  deriving DecidableEq, Repr

/-- What a blob is loaded as below its parent. -/
def Device.loaded (dev : Device) (parent : Object) (blob : SealedBlob) : Object :=
  let publicArea := dev.unmarshall blob.publicArea
  ⟨publicArea, dev.unwrap parent blob.privateArea publicArea⟩

section

variable (dev : Device) (env : Env)

/-! ## Quoting with a loaded key -/

/-- Digests are paired with the requested indices by position. -/
def pairDigests (pcrIndices : List UInt8) (digests : List Bytes) : List PcrValue :=
  (pcrIndices.zip digests).map fun (index, digest) => ⟨index, 0x000B, digest⟩

def readPcrValues (pcrIndices : List UInt8) : TpmM (List PcrValue) := do
  let slots ← pcrSlots .readSlots pcrIndices
  attempt env .readSelection fun e => .esapi ("bad PCR selection: " ++ e)
  let digests ← pcrRead env (selectionBitmap slots)
  return pairDigests pcrIndices digests

/-- The most octets that a `Data` of the ESAPI library holds. -/
def maxDataSize : Nat := 64

theorem maxDataSize_lt : maxDataSize < 2 ^ 16 := by decide

/-- The structure `TPM2_Quote` signs. -/
def attestation (ak : Public) (qualifying : Bytes) (hq : qualifying.length ≤ maxDataSize)
    (slots : List UInt8) : QuoteAttest where
  qualifiedSigner := dev.qualifiedSigner ak
  extraData := qualifying
  clock := env.clock
  hashAlg := 0x000B
  bitmap := selectionBitmap slots
  pcrDigest := dev.sha.hashWith .sha256 (selectedPcrs env (selectionBitmap slots))
  qualifiedSigner_lt := dev.qualifiedSigner_lt ak
  extraData_lt := Nat.lt_of_le_of_lt hq maxDataSize_lt
  clock_length := env.clock_length
  bitmap_pos := by simp [selectionBitmap]
  bitmap_le := by simp [selectionBitmap]
  pcrDigest_lt := by
    rw [dev.sha.hashWith_length]
    decide

/-- `TPM2_Quote` and its marshalled attestation. -/
def tpmQuote (akHandle : ObjectHandle) (qualifying : Bytes)
    (hq : qualifying.length ≤ maxDataSize) (slots : List UInt8) : TpmM (Bytes × Signature) := do
  let wrap := fun e => TssError.esapi ("TPM2_Quote failed: " ++ e)
  let ak ← useObject .quote wrap akHandle
  attempt env .quote wrap
  let attest := (attestation dev env ak.publicArea qualifying hq slots).encode
  return (attest, dev.sign ak.publicArea attest)

/-- The common body of the two quote functions, given the handle of the AK. -/
def quoteWithKey (akHandle : ObjectHandle) (serverNonce : Bytes) (pcrIndices : List UInt8) :
    TpmM QuoteOutput := do
  let slots ← pcrSlots .pcrSlots pcrIndices
  attempt env .pcrSelection fun e => .esapi ("bad PCR selection: " ++ e)
  if hq : serverNonce.length ≤ maxDataSize then
    attempt env .nonce fun e => .esapi ("bad nonce: " ++ e)
    let (attest, signature) ← executeWithNullauthSession
      (tpmQuote dev env akHandle serverNonce hq slots)
    attempt env .marshalAttest fun e => .esapi ("marshal attest failed: " ++ e)
    let pcrValues ← readPcrValues env pcrIndices
    let signature ← marshalSignature signature
    return ⟨attest, signature, pcrValues⟩
  else
    refuse .nonce (.esapi ("bad nonce: " ++ dev.wrongParamSize))

structure AttestationSession where
  akHandle : ObjectHandle
  ekHandle : ObjectHandle
  akPub : Bytes
  ekSpki : Bytes

def AttestationSession.quote (session : AttestationSession) (serverNonce : Bytes)
    (pcrIndices : List UInt8) : TpmM QuoteOutput :=
  quoteWithKey dev env session.akHandle serverNonce pcrIndices

namespace TpmContextManager

variable (hasResourceManager : Bool)

/-! ## Keys of a session -/

def ensureLoaded (role : KeyRole) : SessionM ObjectHandle := do
  match ← keyState role with
  | .live handle => return handle
  | .saved saved => do
      let handle ← Effect.onFst (contextLoad env (.contextLoad role)
        (fun e => .esapi ("context_load failed: " ++ e)) saved)
      setKeyState role (.live handle)
      return handle

def saveIfNeeded (role : KeyRole) : SessionM Unit := do
  if hasResourceManager then return ()
  match ← keyState role with
  | .live handle => do
      let saved ← Effect.onFst (contextSave env (.contextSave role)
        (fun e => .esapi ("context_save failed: " ++ e)) handle)
      Effect.onFst (flushObject env (.flushKey role) handle)
      setKeyState role (.saved saved)
  | .saved _ => return ()

/-! ## Operations -/

def beginAttestation : TpmM ManagedAttestationSession := do
  let ekPublic ← ekTemplate env
  let (ekHandle, ekOut) ← executeWithNullauthSession <|
    createPrimary dev env .createEk (fun e => .esapi ("create EK primary failed: " ++ e))
      .endorsement ekPublic
  let akPublic ← akTemplate env
  let (akHandle, akOut) ← executeWithNullauthSession <|
    createPrimary dev env .createAk (fun e => .esapi ("create AK primary failed: " ++ e))
      .endorsement akPublic
  attempt env .marshalAk fun e => .invalidAk ("marshal AK public failed: " ++ e)
  let akPub := dev.marshall akOut
  let (ekModulus, ekExponent) ← extractRsaPublic ekOut
  let ekSpki := rsaPublicToSpki ekModulus ekExponent
  if hasResourceManager then
    return ⟨.live ekHandle, .live akHandle, akPub, ekSpki⟩
  else
    let ekSaved ← contextSave env (.beginSave .ek) (fun e => .esapi ("save EK context: " ++ e))
      ekHandle
    flushObject env (.flushKey .ek) ekHandle
    let akSaved ← contextSave env (.beginSave .ak) (fun e => .esapi ("save AK context: " ++ e))
      akHandle
    flushObject env (.flushKey .ak) akHandle
    return ⟨.saved ekSaved, .saved akSaved, akPub, ekSpki⟩

/-- Flush a key that is still loaded. -/
def flushIfLive (role : KeyRole) : KeyState → TpmM Unit
  | .live handle => flushObject env (.flushKey role) handle
  | .saved _ => return ()

def finishAttestation (session : ManagedAttestationSession) : TpmM Unit := do
  flushIfLive env .ek session.ekState
  flushIfLive env .ak session.akState

/-- The TPM side of activation, once both keys are loaded. -/
def activateLoaded (akHandle ekHandle : ObjectHandle) (credentialBlob secret : Bytes) :
    TpmM Bytes := do
  attempt env .idObject fun e => .esapi ("bad credentialBlob: " ++ e)
  attempt env .encryptedSecret fun e => .esapi ("bad secret: " ++ e)
  let ekPolicySession ← startPolicySession env .policy "start ek policy session: "
    "failed to allocate ek policy session" "policy session convert: "
  executeWithNullauthSession (policySecret env ekPolicySession)
  setSessions ⟨some .password, some (.session ekPolicySession), none⟩
  let recovered ← activateCredential dev env akHandle ekHandle credentialBlob secret
  flushSession env ekPolicySession
  setSessions .none
  return recovered

def activateInner (credentialBlob secret : Bytes) : SessionM Bytes := do
  let akHandle ← ensureLoaded env .ak
  let ekHandle ← ensureLoaded env .ek
  Effect.onFst (activateLoaded dev env akHandle ekHandle credentialBlob secret)

def activate (credentialBlob secret : Bytes) : SessionM Bytes :=
  Effect.andThenCleanup (activateInner dev env credentialBlob secret) do
    Effect.ignore (saveIfNeeded env hasResourceManager .ak)
    Effect.ignore (saveIfNeeded env hasResourceManager .ek)

def quoteInner (serverNonce : Bytes) (pcrIndices : List UInt8) : SessionM QuoteOutput := do
  let akHandle ← ensureLoaded env .ak
  Effect.onFst (quoteWithKey dev env akHandle serverNonce pcrIndices)

def quote (serverNonce : Bytes) (pcrIndices : List UInt8) : SessionM QuoteOutput :=
  Effect.andThenCleanup (quoteInner dev env serverNonce pcrIndices)
    (Effect.ignore (saveIfNeeded env hasResourceManager .ak))

/-- A certificate that cannot be read counts as absent. -/
def readEkCert : TpmM (Option Bytes) := do
  attempt env .getCapability fun e => .esapi ("get_capability: " ++ e)
  match env.ekCert with
  | none => return none
  | some cert => do
      attempt env .nvHandle fun e => .esapi ("bad NV index handle: " ++ e)
      attempt env .nvPublic fun e => .esapi ("tr_from_tpm_public: " ++ e)
      let read ← Effect.optional (executeWithNullauthSession (attempt env .nvRead .esapi))
      return read.map fun _ => cert

def createSrkIn : TpmM ObjectHandle := do
  let template ← srkTemplate env
  let (handle, _) ← executeWithNullauthSession <|
    createPrimary dev env .createSrk (fun e => .esapi ("create SRK primary failed: " ++ e))
      .owner template
  return handle

/-- The digest of the selected registers goes into the policy of a trial session. -/
def computePcrPolicyDigest (slots : List UInt8) : TpmM Bytes := do
  let trial ← startPolicySession env .trial "start trial session: "
    "failed to allocate trial session" "trial convert: "
  policyPcr env (fun e => .esapi ("policy_pcr: " ++ e)) trial
  let wrap := fun e => TssError.esapi ("policy_get_digest: " ++ e)
  let _ ← useSession .policyGetDigest wrap trial
  attempt env .policyGetDigest wrap
  flushSession env trial
  let bitmap := selectionBitmap slots
  return dev.policyPcrDigest bitmap (dev.sha.hashWith .sha256 (selectedPcrs env bitmap))

/-- The unique field is a digest, which holds at most 64 bytes. -/
def sealedObjectTemplate (policyDigest sealData : Bytes) : TpmM Template := do
  attempt env .sealAttrs fun e => .esapi ("sealed object attrs: " ++ e)
  if sealData.length ≤ 64 then
    attempt env .sealUnique fun e => .esapi ("seal unique: " ++ e)
    return .sealedObject policyDigest sealData
  else
    refuse .sealUnique (.esapi ("seal unique: " ++ dev.wrongParamSize))

/-- The part of `seal_to_pcr` that holds the storage root key. -/
def sealUnderSrk (srk : ObjectHandle) (policyDigest plaintext : Bytes) :
    TpmM (Bytes × Public) := do
  let template ← sealedObjectTemplate dev env policyDigest plaintext
  attempt env .sensitiveData fun e => .esapi ("sensitive data error: " ++ e)
  executeWithNullauthSession do
    let wrap := fun e => TssError.esapi ("TPM2_Create (seal) failed: " ++ e)
    let parent ← useObject .create wrap srk
    attempt env .create wrap
    return dev.create parent template plaintext

def sealToPcr (plaintext : Bytes) (pcrIndices : List UInt8) : TpmM SealedBlob := do
  let slots ← pcrSlots .pcrSlots pcrIndices
  attempt env .pcrSelection fun e => .esapi ("bad PCR selection: " ++ e)
  let policyDigest ← computePcrPolicyDigest dev env slots
  let srk ← createSrkIn dev env
  let (privateArea, publicArea) ← sealUnderSrk dev env srk policyDigest plaintext
  flushObject env .flushSrk srk
  attempt env .marshalSealed fun e => .esapi ("marshal sealed public: " ++ e)
  return ⟨privateArea, dev.marshall publicArea, pcrIndices⟩

/-- Convert the blob and load both of its areas below the storage root key. -/
def loadSealed (srk : ObjectHandle) (blob : SealedBlob) : TpmM ObjectHandle := do
  attempt env .privateBlob fun e => .esapi ("bad private blob: " ++ e)
  attempt env .publicBlob fun e => .esapi ("bad public blob: " ++ e)
  executeWithNullauthSession do
    let wrap := fun e => TssError.esapi ("TPM2_Load failed: " ++ e)
    let parent ← useObject .load wrap srk
    attempt env .load wrap
    loadObject (dev.loaded parent blob)

/-- Satisfy the PCR policy in a session and unseal the loaded object with it. -/
def unsealLoaded (obj : ObjectHandle) (blob : SealedBlob) : TpmM (SessionHandle × Bytes) := do
  let _ ← pcrSlots .pcrSlots blob.pcrIndices
  attempt env .pcrSelection fun e => .esapi ("bad PCR selection: " ++ e)
  let policySession ← startPolicySession env .policy "start policy session: "
    "failed to allocate policy session" "policy convert: "
  executeWithNullauthSession
    (policyPcr env (fun e => .esapi ("policy_pcr (unseal) failed: " ++ e)) policySession)
  setSessions ⟨some (.session policySession), none, none⟩
  let wrap := fun e => TssError.esapi ("TPM2_Unseal failed: " ++ e)
  let object ← useObject .unsealObject wrap obj
  attempt env .unsealObject wrap
  return (policySession, dev.unsealData object.sensitive)

/-- `TpmContextManager::unseal`. -/
def unsealBlob (blob : SealedBlob) : TpmM Bytes := do
  let srk ← createSrkIn dev env
  let obj ← loadSealed dev env srk blob
  let (policySession, data) ← unsealLoaded dev env obj blob
  flushObject env .flushSealed obj
  flushObject env .flushSrk srk
  flushSession env policySession
  setSessions .none
  return data

end TpmContextManager

end

end Fleetos.Tpm
