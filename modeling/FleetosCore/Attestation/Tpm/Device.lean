import FleetosCore.Attestation.QuoteFormat
import FleetosCore.Library.Effect
import FleetosCore.Library.HandleTable

/-!
# The TPM behind one ESAPI context

The state a `tss_esapi::Context` acts on: the loaded transient objects, the loaded
policy and trial sessions, and the three session slots. Handles are ESAPI handles,
which are never reused. A command or an argument conversion may fail at any place of
the source; which ones do is decided by the call's environment, place by place, and a
failure has no effect on the tables or the slots.

Three observations are recorded on the side and read by no command: the places that
failed, the places that were given a handle that is not loaded, and the largest number
of transient objects loaded at once.
-/

namespace Fleetos.Tpm

open Attestation (PcrValue QuoteAttest Sha2 HashKind selectedIndices)

abbrev ObjectHandle : Type := Nat
abbrev SessionHandle : Type := Nat

inductive TssError where
  | esapi (msg : String)
  | invalidEk (msg : String)
  | invalidAk (msg : String)
  deriving DecidableEq, Repr

inductive Hierarchy where
  | owner
  | endorsement
  deriving DecidableEq, Repr

/-- The public templates the source builds. -/
inductive Template where
  | ek
  | ak
  | srk
  | sealedObject (policyDigest unique : Bytes)
  deriving DecidableEq, Repr

/-- A public area; only RSA keys are looked into. -/
inductive Public where
  | rsa (unique : Bytes) (exponent : UInt32)
  | other (area : Bytes)
  deriving DecidableEq, Repr

inductive Signature where
  | ecDsa (r s : Bytes)
  | rsaSsa (signature : Bytes)
  | other
  deriving DecidableEq, Repr

/-- A transient object: its public area and its sensitive part, which stays in the TPM. -/
structure Object where
  publicArea : Public
  sensitive : Bytes
  deriving DecidableEq, Repr

/-- `TpmsContext`: what is needed to load the object again. -/
structure TpmsContext where
  object : Object
  deriving DecidableEq, Repr

inductive SessionType where
  | policy
  | trial
  deriving DecidableEq, Repr

inductive AuthSession where
  | password
  | nullauth
  | session (handle : SessionHandle)
  deriving DecidableEq, Repr

structure Slots where
  first : Option AuthSession
  second : Option AuthSession
  third : Option AuthSession
  deriving DecidableEq, Repr

def Slots.none : Slots := ⟨.none, .none, .none⟩

inductive KeyRole where
  | ek
  | ak
  deriving DecidableEq, Repr

inductive TemplatePart where
  | attrs
  | authPolicy
  | exponent
  | unique
  deriving DecidableEq, Repr

/-- The fallible places of the source. No call passes one of them twice. -/
inductive Step where
  | ekTemplate (part : TemplatePart)
  | akTemplate
  | srkTemplate (part : TemplatePart)
  | createEk
  | createAk
  | createSrk
  | marshalAk
  | extractEk
  /-- The `context_save` of `begin_attestation`. -/
  | beginSave (role : KeyRole)
  /-- The `context_save` of `save_if_needed`. -/
  | contextSave (role : KeyRole)
  | contextLoad (role : KeyRole)
  | idObject
  | encryptedSecret
  | startSession
  | allocateSession
  | convertSession
  | policySecret
  | activateCredential
  | pcrSlots
  | pcrSelection
  | nonce
  | quote
  | marshalAttest
  | readSlots
  | readSelection
  | pcrRead
  | marshalSignature
  | policyPcr
  | policyGetDigest
  | sealAttrs
  | sealUnique
  | sensitiveData
  | create
  | marshalSealed
  | privateBlob
  | publicBlob
  | load
  | unsealObject
  | getCapability
  | nvHandle
  | nvPublic
  | nvRead
  | flushKey (role : KeyRole)
  | flushSession
  | flushSrk
  | flushSealed
  deriving DecidableEq, Repr

def Step.IsFlush : Step → Prop
  | .flushKey _ | .flushSession | .flushSrk | .flushSealed => True
  | _ => False

/-- Constants of one TPM and of the ESAPI library. -/
structure Device where
  /-- A primary is derived from its hierarchy's seed and its template. -/
  primary : Hierarchy → Template → Public
  primarySensitive : Hierarchy → Template → Bytes
  marshall : Public → Bytes
  unmarshall : Bytes → Public
  sha : Sha2
  activateCredential : Public → Public → Bytes → Bytes → Bytes
  qualifiedSigner : Public → Bytes
  qualifiedSigner_lt : ∀ ak, (qualifiedSigner ak).length < 2 ^ 16
  sign : Public → Bytes → Signature
  /-- The policy digest after `PolicyPCR`, from the selection and the PCR digest. -/
  policyPcrDigest : Bytes → Bytes → Bytes
  /-- The private area of a new object, which is wrapped for its parent, and the public one. -/
  create : Object → Template → Bytes → Bytes × Public
  /-- The sensitive part that a parent unwraps from a private area. -/
  unwrap : Object → Bytes → Public → Bytes
  /-- The data in the sensitive part of a sealed object. -/
  unsealData : Bytes → Bytes
  /-- The text of an oversized buffer error. -/
  wrongParamSize : String

/-- The object a primary is loaded as. -/
def Device.primaryObject (dev : Device) (hierarchy : Hierarchy) (template : Template) : Object :=
  ⟨dev.primary hierarchy template, dev.primarySensitive hierarchy template⟩

/-- What a call meets: the places that fail, with their error text, the SHA-256 PCR
bank, the clock and firmware fields of an attestation, and the content of the NV index
of the EK certificate where that index exists. -/
structure Env where
  faults : Step → Option String
  pcrBank : UInt8 → Bytes
  pcrBank_length : ∀ i, (pcrBank i).length = 32
  clock : Bytes
  clock_length : clock.length = 25
  ekCert : Option Bytes

/-- No place fails on the environment's account. -/
def Env.Smooth (env : Env) : Prop := ∀ step, env.faults step = none

structure Context where
  objects : HandleTable Object
  sessions : HandleTable SessionType
  slots : Slots
  /-- The places that failed, in order. -/
  failed : List Step
  /-- The places that were given a handle that is not loaded. -/
  staleUses : List Step
  /-- The largest number of objects loaded at once. -/
  peak : Nat

def Context.empty : Context := ⟨.empty, .empty, .none, [], [], 0⟩

abbrev TpmM (α : Type) : Type := Effect TssError Context α

/-! ## Failing and using handles -/

/-- Stop at a place with an error. -/
def refuse {α : Type} (step : Step) (err : TssError) : TpmM α := fun ctx =>
  .error err { ctx with failed := ctx.failed ++ [step] }

/-- Pass a place if the environment lets it pass. -/
def attempt (env : Env) (step : Step) (wrap : String → TssError) : TpmM Unit := fun ctx =>
  match env.faults step with
  | some e => refuse step (wrap e) ctx
  | none => .ok () ctx

theorem attempt_of_none {env : Env} {step : Step} {wrap : String → TssError} {ctx : Context}
    (h : env.faults step = none) : attempt env step wrap ctx = .ok () ctx := by
  rw [attempt, h]

theorem attempt_of_some {env : Env} {step : Step} {wrap : String → TssError} {ctx : Context}
    {e : String} (h : env.faults step = some e) :
    attempt env step wrap ctx = .error (wrap e) { ctx with failed := ctx.failed ++ [step] } := by
  rw [attempt, h]
  rfl

/-- The object at a handle given to a command. -/
def useObject (step : Step) (wrap : String → TssError) (handle : ObjectHandle) : TpmM Object :=
  fun ctx =>
    match ctx.objects.lookup handle with
    | some object => .ok object ctx
    | none =>
        refuse step (wrap "bad handle") { ctx with staleUses := ctx.staleUses ++ [step] }

theorem useObject_of_lookup {step : Step} {wrap : String → TssError} {handle : ObjectHandle}
    {ctx : Context} {object : Object} (h : ctx.objects.lookup handle = some object) :
    useObject step wrap handle ctx = .ok object ctx := by
  rw [useObject, h]

/-- The session at a handle given to a command. -/
def useSession (step : Step) (wrap : String → TssError) (handle : SessionHandle) :
    TpmM SessionType :=
  fun ctx =>
    match ctx.sessions.lookup handle with
    | some session => .ok session ctx
    | none =>
        refuse step (wrap "bad handle") { ctx with staleUses := ctx.staleUses ++ [step] }

/-- Load an object into a transient slot. -/
def loadObject (object : Object) : TpmM ObjectHandle := fun ctx =>
  let objects := ctx.objects.alloc object
  .ok ctx.objects.next
    { ctx with objects := objects, peak := max ctx.peak objects.entries.length }

def loadSession (session : SessionType) : TpmM SessionHandle := fun ctx =>
  .ok ctx.sessions.next { ctx with sessions := ctx.sessions.alloc session }

def freeObject (handle : ObjectHandle) : TpmM Unit := fun ctx =>
  .ok () { ctx with objects := ctx.objects.free handle }

def freeSession (handle : SessionHandle) : TpmM Unit := fun ctx =>
  .ok () { ctx with sessions := ctx.sessions.free handle }

def setSessions (slots : Slots) : TpmM Unit := fun ctx => .ok () { ctx with slots := slots }

/-- Run with a null-auth session in the first slot; the slots are restored and the
session is gone afterwards, also on failure. -/
def executeWithNullauthSession {α : Type} (f : TpmM α) : TpmM α := fun ctx =>
  match f { ctx with slots := ⟨some .nullauth, none, none⟩ } with
  | .ok a ctx' => .ok a { ctx' with slots := ctx.slots }
  | .error e ctx' => .error e { ctx' with slots := ctx.slots }

theorem executeWithNullauthSession_of_ok {α : Type} {f : TpmM α} {a : α} {ctx ctx' : Context}
    (h : f { ctx with slots := ⟨some .nullauth, none, none⟩ } = .ok a ctx') :
    executeWithNullauthSession f ctx = .ok a { ctx' with slots := ctx.slots } := by
  simp only [executeWithNullauthSession, h]

/-! ## Commands -/

section

variable (dev : Device) (env : Env)

def createPrimary (step : Step) (wrap : String → TssError) (hierarchy : Hierarchy)
    (template : Template) : TpmM (ObjectHandle × Public) := do
  attempt env step wrap
  let handle ← loadObject (dev.primaryObject hierarchy template)
  return (handle, dev.primary hierarchy template)

def contextSave (step : Step) (wrap : String → TssError) (handle : ObjectHandle) :
    TpmM TpmsContext := do
  let object ← useObject step wrap handle
  attempt env step wrap
  return ⟨object⟩

def contextLoad (step : Step) (wrap : String → TssError) (saved : TpmsContext) :
    TpmM ObjectHandle := do
  attempt env step wrap
  loadObject saved.object

/-- `let _ = context.flush_context(handle)` on an object. -/
def flushObject (step : Step) (handle : ObjectHandle) : TpmM Unit := Effect.ignore do
  let _ ← useObject step .esapi handle
  attempt env step .esapi
  freeObject handle

/-- `let _ = context.flush_context(handle)` on a session. -/
def flushSession (handle : SessionHandle) : TpmM Unit := Effect.ignore do
  let _ ← useSession .flushSession .esapi handle
  attempt env .flushSession .esapi
  freeSession handle

/-- `start_auth_session` with its two error paths and the conversion to a policy
session, each with its own text. -/
def startPolicySession (session : SessionType) (startText allocateText convertText : String) :
    TpmM SessionHandle := do
  attempt env .startSession fun e => .esapi (startText ++ e)
  attempt env .allocateSession fun _ => .esapi allocateText
  let handle ← loadSession session
  attempt env .convertSession fun e => .esapi (convertText ++ e)
  return handle

def policySecret (handle : SessionHandle) : TpmM Unit := do
  let wrap := fun e => TssError.esapi ("policy secret failed: " ++ e)
  let _ ← useSession .policySecret wrap handle
  attempt env .policySecret wrap

def activateCredential (ak ek : ObjectHandle) (idObject encSecret : Bytes) : TpmM Bytes := do
  let wrap := fun e => TssError.esapi ("activate_credential failed: " ++ e)
  let akObject ← useObject .activateCredential wrap ak
  let ekObject ← useObject .activateCredential wrap ek
  attempt env .activateCredential wrap
  return dev.activateCredential akObject.publicArea ekObject.publicArea idObject encSecret

def policyPcr (wrap : String → TssError) (handle : SessionHandle) : TpmM Unit := do
  let _ ← useSession .policyPcr wrap handle
  attempt env .policyPcr wrap

/-! ## PCR selections -/

/-- `pcr_slot_from_index` over a list. -/
def pcrSlots (step : Step) : List UInt8 → TpmM (List UInt8)
  | [] => return []
  | i :: indices => do
      if i.toNat ≤ 23 then
        let slots ← pcrSlots step indices
        return i :: slots
      else
        refuse step (.esapi ("PCR index " ++ toString i ++ " out of range 0-23"))

/-- Three octets, one bit for each of the 24 registers. -/
def selectionBitmap (slots : List UInt8) : Bytes :=
  (List.range 3).map fun byte =>
    (List.range 8).foldl (fun acc bit =>
      if slots.contains (UInt8.ofNat (byte * 8 + bit)) then acc ||| (1 <<< UInt8.ofNat bit)
      else acc) 0

/-- The selected registers in ascending order, concatenated. -/
def selectedPcrs (bitmap : Bytes) : Bytes := ((selectedIndices bitmap).map env.pcrBank).flatten

/-- `TPM2_PCR_Read`: the selected registers in ascending order, at most eight. -/
def pcrRead (bitmap : Bytes) : TpmM (List Bytes) := do
  attempt env .pcrRead fun e => .esapi ("PCR read failed: " ++ e)
  return ((selectedIndices bitmap).take 8).map env.pcrBank

end

end Fleetos.Tpm
