import FleetosCore.Attestation.Tpm.Holding

/-!
# What every operation holds at every place

One contract for each operation of the manager, over any frame. On success it says what
is held afterwards. On failure it says at which place the operation stopped, why, and
what it left behind there: `Leaves H leaky ahead` records that the objects of `H` are
still there, that something was left behind exactly at the places in `leaky`, and which
conversions had passed before.

The contracts of the parts are stated for any description of what is left behind.
-/

namespace Fleetos.Tpm

open Effect (Contract)

/-- After stopping at `step`, the objects of `H` are loaded, and everything is as in `H`
unless `step` is leaky; and what stands ahead of `step` was passed. -/
structure Leaves (H : Holding) (leaky : Step → Bool) (ahead : Step → Prop) (step : Step)
    (H' : Holding) : Prop where
  objects : H.objects <+: H'.objects
  unchanged_iff : leaky step = false ↔ H' = H
  ahead : ahead step

theorem Leaves.nothing {H : Holding} {leaky : Step → Bool} {ahead : Step → Prop} {step : Step}
    (hleaky : leaky step = false) (hahead : ahead step) : Leaves H leaky ahead step H :=
  ⟨List.prefix_rfl, iff_of_true hleaky rfl, hahead⟩

/-- An object or a session more than before. -/
theorem Leaves.more {H H' : Holding} {leaky : Step → Bool} {ahead : Step → Prop} {step : Step}
    (hleaky : leaky step) (hahead : ahead step) (hobjects : H.objects <+: H'.objects)
    (hmore : H.objects.length + H.sessions.length < H'.objects.length + H'.sessions.length) :
    Leaves H leaky ahead step H' := by
  refine ⟨hobjects, ?_, hahead⟩
  rw [hleaky]
  refine iff_of_false Bool.noConfusion ?_
  rintro rfl
  exact Nat.lt_irrefl _ hmore

/-- The conversions of the storage root key's template pass. -/
def SrkTemplatePasses (env : Env) : Prop :=
  ∀ part ≠ TemplatePart.authPolicy, env.faults (.srkTemplate part) = none

section

variable {fr : Frame} {H : Holding} {why : Step → Prop} {leaves : Step → Holding → Prop}
  {dev : Device} {env : Env}

section Parts

variable (hfaults : ∀ step, env.faults step ≠ none → why step)

include hfaults

theorem held_ekTemplate (hleaves : ∀ part, leaves (.ekTemplate part) H) :
    Contract (Held fr [] H) (ekTemplate env)
      (fun template s => (template = .ek ∧ ∀ part, env.faults (.ekTemplate part) = none) ∧
        Held fr [] H s)
      fun _ => Stopped fr why leaves := by
  apply Contract.bind (stops (held_pass (hfaults _)) (hleaves _))
  refine fun _ => Contract.assume fun hattrs => ?_
  apply Contract.bind (stops (held_pass (hfaults _)) (hleaves _))
  refine fun _ => Contract.assume fun hpolicy => ?_
  apply Contract.bind (stops (held_pass (hfaults _)) (hleaves _))
  refine fun _ => Contract.assume fun hexponent => ?_
  apply Contract.bind (stops (held_pass (hfaults _)) (hleaves _))
  refine fun _ => Contract.assume fun hunique => ?_
  refine Contract.pure fun _ hs => ⟨⟨rfl, fun part => ?_⟩, hs⟩
  cases part with
  | attrs => exact hattrs
  | authPolicy => exact hpolicy
  | exponent => exact hexponent
  | unique => exact hunique

theorem held_akTemplate (hleaves : leaves .akTemplate H) :
    Contract (Held fr [] H) (akTemplate env) (fun template s => template = .ak ∧ Held fr [] H s)
      fun _ => Stopped fr why leaves := by
  apply Contract.bind (stops (held_attempt (hfaults _)) hleaves)
  intro _
  exact Contract.pure fun _ hs => ⟨rfl, hs⟩

theorem held_srkTemplate (hleaves : ∀ part, leaves (.srkTemplate part) H) :
    Contract (Held fr [] H) (srkTemplate env)
      (fun template s => (template = .srk ∧ SrkTemplatePasses env) ∧ Held fr [] H s)
      fun _ => Stopped fr why leaves := by
  apply Contract.bind (stops (held_pass (hfaults _)) (hleaves _))
  refine fun _ => Contract.assume fun hattrs => ?_
  apply Contract.bind (stops (held_pass (hfaults _)) (hleaves _))
  refine fun _ => Contract.assume fun hexponent => ?_
  apply Contract.bind (stops (held_pass (hfaults _)) (hleaves _))
  refine fun _ => Contract.assume fun hunique => ?_
  refine Contract.pure fun _ hs => ⟨⟨rfl, fun part hpart => ?_⟩, hs⟩
  cases part with
  | attrs => exact hattrs
  | authPolicy => exact absurd rfl hpart
  | exponent => exact hexponent
  | unique => exact hunique

theorem held_createSrkIn (hroom : fr.exact → H.objects.length + 1 ≤ fr.bound)
    (htemplate : ∀ part, leaves (.srkTemplate part) H) (hcreate : leaves .createSrk H) :
    Contract (Held fr [] H) (TpmContextManager.createSrkIn dev env)
      (fun srk s => SrkTemplatePasses env ∧
        Held fr [] (H.load srk (dev.primaryObject .owner .srk)) s)
      fun _ => Stopped fr why leaves := by
  apply Contract.bind (held_srkTemplate hfaults htemplate)
  intro template
  apply Contract.assume
  rintro ⟨rfl, hpasses⟩
  apply Contract.bind (stops (held_createPrimary (hfaults _) hroom) hcreate)
  intro key
  apply Contract.assume
  intro _
  exact Contract.pure fun _ hs => ⟨hpasses, hs⟩

/-- The session is converted once it is allocated. -/
theorem held_startPolicySession {session : SessionType}
    {startText allocateText convertText : String}
    (hstart : leaves .startSession H) (hallocate : leaves .allocateSession H)
    (hconvert : env.faults .allocateSession = none →
      ∀ handle, leaves .convertSession (H.openSession handle session)) :
    Contract (Held fr [] H) (startPolicySession env session startText allocateText convertText)
      (fun handle s => env.faults .allocateSession = none ∧
        Held fr [] (H.openSession handle session) s)
      fun _ => Stopped fr why leaves := by
  apply Contract.bind (stops (held_attempt (hfaults _)) hstart)
  intro _
  apply Contract.bind (stops (held_pass (hfaults _)) hallocate)
  refine fun _ => Contract.assume fun hallocated => ?_
  apply Contract.bind held_loadSession
  intro handle
  apply Contract.bind (stops (held_attempt (hfaults _)) (hconvert hallocated handle))
  intro _
  exact Contract.pure fun _ hs => ⟨hallocated, hs⟩

omit hfaults in
theorem held_pcrSlots {step : Step} {indices : List UInt8}
    (hrange : (∃ i ∈ indices, 23 < i.toNat) → why step) (hleaves : leaves step H) :
    Contract (Held fr [] H) (pcrSlots step indices)
      (fun _ s => (∀ i ∈ indices, i.toNat ≤ 23) ∧ Held fr [] H s)
      fun _ => Stopped fr why leaves := by
  induction indices with
  | nil => exact Contract.pure fun _ hs => ⟨List.forall_mem_nil _, hs⟩
  | cons i indices ih =>
      rw [pcrSlots]
      split
      · rename_i hle
        apply Contract.bind (ih fun ⟨j, hj, hlt⟩ => hrange ⟨j, List.mem_cons_of_mem _ hj, hlt⟩)
        refine fun slots => Contract.assume fun hrest => ?_
        exact Contract.pure fun _ hs => ⟨List.forall_mem_cons.mpr ⟨hle, hrest⟩, hs⟩
      · have hlt : 23 < i.toNat := by omega
        exact stops (held_refuse (hrange ⟨i, List.mem_cons_self, hlt⟩)) hleaves

theorem held_computePcrPolicyDigest {slots : List UInt8}
    (hflush : fr.exact → env.faults .flushSession = none)
    (hstart : leaves .startSession H) (hallocate : leaves .allocateSession H)
    (htrial : env.faults .allocateSession = none → ∀ trial,
      leaves .convertSession (H.openSession trial .trial) ∧
      leaves .policyPcr (H.openSession trial .trial) ∧
      leaves .policyGetDigest (H.openSession trial .trial)) :
    Contract (Held fr [] H) (TpmContextManager.computePcrPolicyDigest dev env slots)
      (fun _ s => env.faults .allocateSession = none ∧ Held fr [] H s)
      fun _ => Stopped fr why leaves := by
  apply Contract.bind (held_startPolicySession hfaults hstart hallocate
    fun h trial => (htrial h trial).1)
  refine fun trial => Contract.assume fun hallocated => ?_
  obtain ⟨-, hpolicy, hdigest⟩ := htrial hallocated trial
  have hmem : (trial, SessionType.trial) ∈ (H.openSession trial .trial).sessions :=
    List.mem_append_right _ List.mem_cons_self
  apply Contract.bind (stops (held_policyCommand (hfaults _) hmem) hpolicy)
  intro _
  apply Contract.bind (stops (held_useSession hmem) hdigest)
  intro _
  apply Contract.bind (stops (held_attempt (hfaults _)) hdigest)
  intro _
  apply Contract.bind (held_flushSession hflush)
  intro _
  exact Contract.pure fun _ hs => ⟨hallocated, hs⟩

/-- Everything up to `TPM2_Create` happens with the storage root key loaded. -/
theorem held_sealUnderSrk {srk : ObjectHandle} {parent : Object} {policyDigest plaintext : Bytes}
    (hlong : 64 < plaintext.length → why .sealUnique) (hsrk : (srk, parent) ∈ H.objects)
    (hattrs : leaves .sealAttrs H) (hunique : leaves .sealUnique H)
    (hsensitive : leaves .sensitiveData H) (hcreate : leaves .create H) :
    Contract (Held fr [] H) (TpmContextManager.sealUnderSrk dev env srk policyDigest plaintext)
      (fun _ => Held fr [] H) fun _ => Stopped fr why leaves := by
  have htemplate : Contract (Held fr [] H)
      (TpmContextManager.sealedObjectTemplate dev env policyDigest plaintext)
      (fun _ => Held fr [] H) fun _ => Stopped fr why leaves := by
    apply Contract.bind (stops (held_attempt (hfaults _)) hattrs)
    intro _
    split
    · apply Contract.bind (stops (held_attempt (hfaults _)) hunique)
      intro _
      exact Contract.pure fun _ hs => hs
    · rename_i hle
      exact stops (held_refuse (hlong (by omega))) hunique
  apply Contract.bind htemplate
  intro template
  apply Contract.bind (stops (held_attempt (hfaults _)) hsensitive)
  intro _
  refine stops (held_nullauth_keep fun slots => ?_) hcreate
  have husable : Usable fr why .create (H.setSlots slots) srk := .inl ⟨parent, hsrk⟩
  apply Contract.bind (held_useObject husable)
  intro object
  apply Contract.assume
  intro _
  apply Contract.bind (held_attempt (hfaults _))
  intro _
  exact Contract.pure fun _ hs => hs

/-- Loading the blob adds one object. -/
theorem held_loadSealed {srk : ObjectHandle} {parent : Object} {blob : SealedBlob}
    (hroom : fr.exact → H.objects.length + 1 ≤ fr.bound) (hsrk : (srk, parent) ∈ H.objects)
    (hprivate : leaves .privateBlob H) (hpublic : leaves .publicBlob H)
    (hload : leaves .load H) :
    Contract (Held fr [] H) (TpmContextManager.loadSealed dev env srk blob)
      (fun obj => Held fr [] (H.load obj (dev.loaded parent blob)))
      fun _ => Stopped fr why leaves := by
  apply Contract.bind (stops (held_attempt (hfaults _)) hprivate)
  intro _
  apply Contract.bind (stops (held_attempt (hfaults _)) hpublic)
  intro _
  have hrun : Contract (Held fr [] H) (executeWithNullauthSession do
      let parent ← useObject .load (fun e => TssError.esapi ("TPM2_Load failed: " ++ e)) srk
      attempt env .load fun e => TssError.esapi ("TPM2_Load failed: " ++ e)
      loadObject (dev.loaded parent blob))
      (fun obj s => True ∧ Held fr [] (H.load obj (dev.loaded parent blob)) s)
      fun _ => Halts fr [] why .load H := by
    refine held_nullauth (fun _ => rfl) fun slots => ?_
    have husable : Usable fr why .load (H.setSlots slots) srk := .inl ⟨parent, hsrk⟩
    apply Contract.bind (held_useObject husable)
    intro object
    apply Contract.assume
    intro hmem
    refine Contract.derive (fun _ hs => hs.object_eq hmem hsrk) ?_
    rintro rfl
    apply Contract.bind (held_attempt (hfaults _))
    intro _
    exact (held_loadObject (H := H.setSlots slots) hroom).consequence (fun _ hs => hs)
      (fun _ _ hs => ⟨trivial, hs⟩) fun _ _ hs => hs
  exact (stops hrun hload).consequence (fun _ hs => hs) (fun _ _ hs => hs.2) fun _ _ hs => hs

/-- The policy session stays open, in the first slot, when the data is returned. -/
theorem held_unsealLoaded {obj : ObjectHandle} {object : Object} {blob : SealedBlob}
    (hrange : (∃ i ∈ blob.pcrIndices, 23 < i.toNat) → why .pcrSlots)
    (hobj : (obj, object) ∈ H.objects) (hslots : leaves .pcrSlots H)
    (hselection : leaves .pcrSelection H) (hstart : leaves .startSession H)
    (hallocate : leaves .allocateSession H)
    (hconvert : ∀ handle, leaves .convertSession (H.openSession handle .policy))
    (hpolicy : ∀ handle, leaves .policyPcr (H.openSession handle .policy))
    (hunseal : ∀ handle, leaves .unsealObject
      ((H.openSession handle .policy).setSlots ⟨some (.session handle), none, none⟩)) :
    Contract (Held fr [] H) (TpmContextManager.unsealLoaded dev env obj blob)
      (fun out => Held fr []
        ((H.openSession out.1 .policy).setSlots ⟨some (.session out.1), none, none⟩))
      fun _ => Stopped fr why leaves := by
  apply Contract.bind (held_pcrSlots hrange hslots)
  refine fun _ => Contract.assume fun _ => ?_
  apply Contract.bind (stops (held_attempt (hfaults _)) hselection)
  intro _
  apply Contract.bind (held_startPolicySession hfaults hstart hallocate fun _ => hconvert)
  refine fun handle => Contract.assume fun _ => ?_
  have hmem : (handle, SessionType.policy) ∈ (H.openSession handle .policy).sessions :=
    List.mem_append_right _ List.mem_cons_self
  apply Contract.bind (stops (held_nullauth_keep fun slots =>
    held_policyCommand (H := (H.openSession handle .policy).setSlots slots) (hfaults _) hmem)
    (hpolicy handle))
  intro _
  apply Contract.bind held_setSessions
  intro _
  have husable : Usable fr why .unsealObject ((H.openSession handle .policy).setSlots
    ⟨some (.session handle), none, none⟩) obj := .inl ⟨object, hobj⟩
  apply Contract.bind (stops (held_useObject husable) (hunseal handle))
  intro data
  apply Contract.assume
  intro _
  apply Contract.bind (stops (held_attempt (hfaults _)) (hunseal handle))
  intro _
  exact Contract.pure fun _ hs => hs

/-- Activation adds nothing to the objects; from the start of the policy session on it
leaves that session behind, and from `set_sessions` on the slots as well. -/
theorem held_activateLoaded (leaves : Step → Holding → Prop) {akHandle ekHandle : ObjectHandle}
    {credentialBlob secret : Bytes} (hflush : fr.exact → env.faults .flushSession = none)
    (hak : Usable fr why .activateCredential H akHandle)
    (hek : Usable fr why .activateCredential H ekHandle)
    (hid : leaves .idObject H) (hsecret : leaves .encryptedSecret H)
    (hstart : leaves .startSession H) (hallocate : leaves .allocateSession H)
    (hopen : env.faults .idObject = none → env.faults .encryptedSecret = none →
      env.faults .allocateSession = none → ∀ handle,
        leaves .convertSession (H.openSession handle .policy) ∧
        leaves .policySecret (H.openSession handle .policy) ∧
        leaves .activateCredential ((H.openSession handle .policy).setSlots
          ⟨some .password, some (.session handle), none⟩)) :
    Contract (Held fr [] H)
      (TpmContextManager.activateLoaded dev env akHandle ekHandle credentialBlob secret)
      (fun _ => Held fr [] (H.setSlots .none)) fun _ => Stopped fr why leaves := by
  apply Contract.bind (stops (held_pass (hfaults _)) hid)
  refine fun _ => Contract.assume fun hidPassed => ?_
  apply Contract.bind (stops (held_pass (hfaults _)) hsecret)
  refine fun _ => Contract.assume fun hsecretPassed => ?_
  apply Contract.bind (held_startPolicySession hfaults hstart hallocate
    fun h handle => (hopen hidPassed hsecretPassed h handle).1)
  refine fun handle => Contract.assume fun hallocated => ?_
  obtain ⟨-, hpolicy, hactivate⟩ := hopen hidPassed hsecretPassed hallocated handle
  have hmem : (handle, SessionType.policy) ∈ (H.openSession handle .policy).sessions :=
    List.mem_append_right _ List.mem_cons_self
  apply Contract.bind (stops (held_nullauth_keep fun slots =>
    held_policyCommand (H := (H.openSession handle .policy).setSlots slots) (hfaults _) hmem)
    hpolicy)
  intro _
  apply Contract.bind held_setSessions
  intro _
  have hrecover : Contract (Held fr [] ((H.openSession handle .policy).setSlots
        ⟨some .password, some (.session handle), none⟩))
      (activateCredential dev env akHandle ekHandle credentialBlob secret)
      (fun _ => Held fr [] ((H.setSlots
        ⟨some .password, some (.session handle), none⟩).openSession handle .policy))
      fun _ => Stopped fr why leaves := by
    refine stops ?_ hactivate
    apply Contract.bind (held_useObject (H := (H.openSession handle .policy).setSlots _) hak)
    intro akObject
    apply Contract.assume
    intro _
    apply Contract.bind (held_useObject (H := (H.openSession handle .policy).setSlots _) hek)
    intro ekObject
    apply Contract.assume
    intro _
    apply Contract.bind (held_attempt (hfaults _))
    intro _
    exact Contract.pure fun _ hs => hs
  apply Contract.bind hrecover
  intro recovered
  apply Contract.bind (held_flushSession hflush)
  intro _
  apply Contract.bind held_setSessions
  intro _
  exact Contract.pure fun _ hs => hs

omit hfaults in
theorem held_extractRsaPublic {area : Public}
    (hrsa : (∀ unique exponent, area ≠ .rsa unique exponent) → why .extractEk)
    (hleaves : leaves .extractEk H) :
    Contract (Held fr [] H) (extractRsaPublic area)
      (fun key s => (∃ unique exponent, area = .rsa unique exponent ∧
        key = (unique, if exponent = 0 then 65537 else exponent)) ∧ Held fr [] H s)
      fun _ => Stopped fr why leaves := by
  cases area with
  | rsa unique exponent => exact Contract.pure fun _ hs => ⟨⟨unique, exponent, rfl, rfl⟩, hs⟩
  | other area => exact stops (held_refuse (hrsa fun _ _ h => by cases h)) hleaves

end Parts

section Quoting

variable (hwhy : ∀ step, why step) (hleaves : ∀ step, leaves step H)

include hwhy hleaves

theorem held_readPcrValues {pcrIndices : List UInt8} :
    Contract (Held fr [] H) (readPcrValues env pcrIndices) (fun _ => Held fr [] H)
      fun _ => Stopped fr why leaves := by
  have hread : ∀ bitmap, Contract (Held fr [] H) (pcrRead env bitmap) (fun _ => Held fr [] H)
      fun _ => Stopped fr why leaves := by
    intro bitmap
    apply Contract.bind (stops (held_attempt fun _ => hwhy _) (hleaves _))
    intro _
    exact Contract.pure fun _ hs => hs
  apply Contract.bind (held_pcrSlots (fun _ => hwhy _) (hleaves _))
  refine fun slots => Contract.assume fun _ => ?_
  apply Contract.bind (stops (held_attempt fun _ => hwhy _) (hleaves _))
  intro _
  apply Contract.bind (hread _)
  intro digests
  exact Contract.pure fun _ hs => hs

theorem held_marshalSignature {signature : Signature} :
    Contract (Held fr [] H) (marshalSignature signature) (fun _ => Held fr [] H)
      fun _ => Stopped fr why leaves := by
  cases signature with
  | ecDsa r s => exact Contract.pure fun _ hs => hs
  | rsaSsa signature => exact Contract.pure fun _ hs => hs
  | other => exact stops (held_refuse (hwhy _)) (hleaves _)

omit hleaves in
theorem held_tpmQuote {akHandle : ObjectHandle} {qualifying : Bytes} {slots : List UInt8}
    {hq : qualifying.length ≤ maxDataSize} (hak : Usable fr why .quote H akHandle) :
    Contract (Held fr [] H)
      (executeWithNullauthSession (tpmQuote dev env akHandle qualifying hq slots))
      (fun _ => Held fr [] H) fun _ => Halts fr [] why .quote H := by
  refine held_nullauth_keep fun slots => ?_
  apply Contract.bind (held_useObject (H := H.setSlots slots) hak)
  intro ak
  apply Contract.assume
  intro _
  apply Contract.bind (held_attempt fun _ => hwhy _)
  intro _
  exact Contract.pure fun _ hs => hs

/-- Quoting leaves everything as it was, at every place. -/
theorem held_quoteWithKey {akHandle : ObjectHandle} {serverNonce : Bytes}
    {pcrIndices : List UInt8} (hak : Usable fr why .quote H akHandle) :
    Contract (Held fr [] H) (quoteWithKey dev env akHandle serverNonce pcrIndices)
      (fun _ => Held fr [] H) fun _ => Stopped fr why leaves := by
  apply Contract.bind (held_pcrSlots (fun _ => hwhy _) (hleaves _))
  refine fun slots => Contract.assume fun _ => ?_
  apply Contract.bind (stops (held_attempt fun _ => hwhy _) (hleaves _))
  intro _
  split
  · apply Contract.bind (stops (held_attempt fun _ => hwhy _) (hleaves _))
    intro _
    apply Contract.bind (stops (held_tpmQuote hwhy hak) (hleaves _))
    rintro ⟨attest, signature⟩
    apply Contract.bind (stops (held_attempt fun _ => hwhy _) (hleaves _))
    intro _
    apply Contract.bind (held_readPcrValues hwhy hleaves)
    intro pcrValues
    apply Contract.bind (held_marshalSignature hwhy hleaves)
    intro signature
    exact Contract.pure fun _ hs => hs
  · exact stops (held_refuse (hwhy _)) (hleaves _)

/-- A failing `nv_read` is not propagated. -/
theorem held_readEkCert :
    Contract (Held fr [] H) (TpmContextManager.readEkCert env)
      (fun _ s => ∃ F, (F = [] ∨ F = [.nvRead] ∧ env.faults .nvRead ≠ none) ∧ Held fr F H s)
      fun _ => Stopped fr why leaves := by
  apply Contract.bind (stops (held_attempt fun _ => hwhy _) (hleaves _))
  intro _
  split
  · exact Contract.pure fun _ hs => ⟨[], .inl rfl, hs⟩
  · apply Contract.bind (stops (held_attempt fun _ => hwhy _) (hleaves _))
    intro _
    apply Contract.bind (stops (held_attempt fun _ => hwhy _) (hleaves _))
    intro _
    have hread : Contract (Held fr [] H)
        (executeWithNullauthSession (attempt env .nvRead .esapi)) (fun _ => Held fr [] H)
        fun _ => Halts fr [] (env.faults · ≠ none) .nvRead H :=
      held_nullauth_keep fun slots => held_attempt id
    apply Contract.bind (Contract.optional (R := fun _ s => ∃ F, (F = [] ∨ F = [.nvRead] ∧
      env.faults .nvRead ≠ none) ∧ Held fr F H s) (hread.consequence (fun _ hs => hs)
        (fun _ _ hs => ⟨[], .inl rfl, hs⟩) fun _ _ hs => ⟨[.nvRead], .inr ⟨rfl, hs.1⟩, hs.2⟩))
    intro read
    exact Contract.pure fun _ hs => hs

end Quoting

/-! ## Whole operations -/

/-- With the trial session open, and with the storage root key loaded. -/
def sealLeaky : Step → Bool
  | .convertSession | .policyPcr | .policyGetDigest | .sealAttrs | .sealUnique
  | .sensitiveData | .create => true
  | _ => false

/-- Everywhere after the storage root key is created. -/
def unsealLeaky : Step → Bool
  | .privateBlob | .publicBlob | .load | .pcrSlots | .pcrSelection | .startSession
  | .allocateSession | .convertSession | .policyPcr | .unsealObject => true
  | _ => false

/-- Everywhere after the EK is created. -/
def beginLeaky : Step → Bool
  | .akTemplate | .createAk | .marshalAk | .extractEk | .beginSave _ => true
  | _ => false

/-- What is passed ahead of a leaky place without holding anything. -/
def beginAhead (env : Env) (step : Step) : Prop :=
  beginLeaky step → ∀ part, env.faults (.ekTemplate part) = none

def unsealAhead (env : Env) (step : Step) : Prop := unsealLeaky step → SrkTemplatePasses env

/-- The trial session of `compute_pcr_policy_digest` is allocated. -/
structure TrialStarts (env : Env) (pcrIndices : List UInt8) : Prop where
  range : ∀ i ∈ pcrIndices, i.toNat ≤ 23
  selection : env.faults .pcrSelection = none
  allocate : env.faults .allocateSession = none

def sealAhead (env : Env) (pcrIndices : List UInt8) : Step → Prop
  | .convertSession | .policyPcr | .policyGetDigest => TrialStarts env pcrIndices
  | .sealAttrs | .sealUnique | .sensitiveData | .create =>
      TrialStarts env pcrIndices ∧ SrkTemplatePasses env
  | _ => True

/-- The session publishes the keys the TPM derives from the two templates. -/
structure Publishes (dev : Device) (session : ManagedAttestationSession) : Prop where
  ak : session.akPub = dev.marshall (dev.primary .endorsement .ak)
  ek : ∃ unique exponent, dev.primary .endorsement .ek = .rsa unique exponent ∧
    session.ekSpki = rsaPublicToSpki unique (if exponent = 0 then 65537 else exponent)

/-- The template of a role's key. -/
def KeyRole.template : KeyRole → Template
  | .ek => .ek
  | .ak => .ak

/-- The object of a role's key. -/
def keyObject (dev : Device) (role : KeyRole) : Object :=
  dev.primaryObject .endorsement role.template

/-- A begun session: both keys are loaded with a resource manager and saved without. -/
def Begun (dev : Device) (H : Holding) (session : ManagedAttestationSession) (H' : Holding) :
    Bool → Prop
  | true => ∃ ek ak, session.ekState = .live ek ∧ session.akState = .live ak ∧
      H' = (H.load ek (keyObject dev .ek)).load ak (keyObject dev .ak)
  | false => (∀ role, session.key role = .saved ⟨keyObject dev role⟩) ∧ H' = H

section Whole

variable (hfaults : ∀ step, env.faults step ≠ none → why step)
  (hflush : fr.exact → ∀ step, step.IsFlush → env.faults step = none)

include hfaults hflush

theorem held_sealToPcr {plaintext : Bytes} {pcrIndices : List UInt8}
    (hroom : fr.exact → H.objects.length + 1 ≤ fr.bound)
    (hrange : (∃ i ∈ pcrIndices, 23 < i.toNat) → why .pcrSlots)
    (hlong : 64 < plaintext.length → why .sealUnique) :
    Contract (Held fr [] H) (TpmContextManager.sealToPcr dev env plaintext pcrIndices)
      (fun _ => Held fr [] H)
      fun _ => Stopped fr why (Leaves H sealLeaky (sealAhead env pcrIndices)) := by
  apply Contract.bind (held_pcrSlots hrange (.nothing rfl trivial))
  refine fun slots => Contract.assume fun hindices => ?_
  apply Contract.bind (stops (held_pass (hfaults _)) (.nothing rfl trivial))
  refine fun _ => Contract.assume fun hselection => ?_
  have htrial : ∀ step handle, sealLeaky step → sealAhead env pcrIndices step →
      Leaves H sealLeaky (sealAhead env pcrIndices) step (H.openSession handle .trial) := by
    intro step handle hleaky hahead
    exact .more hleaky hahead List.prefix_rfl (by simp [Holding.openSession])
  apply Contract.bind (held_computePcrPolicyDigest hfaults (fun h => hflush h _ trivial)
    (.nothing rfl trivial) (.nothing rfl trivial) fun hallocated trial => by
      have hstarts : TrialStarts env pcrIndices := ⟨hindices, hselection, hallocated⟩
      exact ⟨htrial _ _ rfl hstarts, htrial _ _ rfl hstarts, htrial _ _ rfl hstarts⟩)
  refine fun policyDigest => Contract.assume fun hallocated => ?_
  apply Contract.bind (held_createSrkIn hfaults hroom (fun _ => .nothing rfl trivial)
    (.nothing rfl trivial))
  refine fun srk => Contract.assume fun htemplate => ?_
  have hahead : TrialStarts env pcrIndices ∧ SrkTemplatePasses env :=
    ⟨⟨hindices, hselection, hallocated⟩, htemplate⟩
  have hsrk : ∀ step srk object, sealLeaky step → sealAhead env pcrIndices step →
      Leaves H sealLeaky (sealAhead env pcrIndices) step (H.load srk object) := by
    intro step srk object hleaky hahead
    exact .more hleaky hahead (List.prefix_append _ _) (by simp [Holding.load])
  apply Contract.bind (held_sealUnderSrk hfaults hlong (List.mem_append_right _ List.mem_cons_self)
    (hsrk _ _ _ rfl hahead) (hsrk _ _ _ rfl hahead) (hsrk _ _ _ rfl hahead)
    (hsrk _ _ _ rfl hahead))
  rintro ⟨privateArea, publicArea⟩
  apply Contract.bind (held_unload fun h => hflush h .flushSrk trivial)
  intro _
  apply Contract.bind (stops (held_attempt (hfaults _)) (.nothing rfl trivial))
  intro _
  exact Contract.pure fun _ hs => hs

theorem held_unsealBlob {blob : SealedBlob}
    (hroom : fr.exact → H.objects.length + 2 ≤ fr.bound)
    (hrange : (∃ i ∈ blob.pcrIndices, 23 < i.toNat) → why .pcrSlots) :
    Contract (Held fr [] H) (TpmContextManager.unsealBlob dev env blob)
      (fun _ => Held fr [] (H.setSlots .none))
      fun _ => Stopped fr why (Leaves H unsealLeaky (unsealAhead env)) := by
  apply Contract.bind (held_createSrkIn hfaults (fun h => by have := hroom h; omega)
    (fun _ => .nothing rfl Bool.noConfusion) (.nothing rfl Bool.noConfusion))
  refine fun srk => Contract.assume fun htemplate => ?_
  have hahead : ∀ step, unsealAhead env step := fun _ _ => htemplate
  have hroom' : fr.exact →
      (H.load srk (dev.primaryObject .owner .srk)).objects.length + 1 ≤ fr.bound := by
    intro hexact
    have := hroom hexact
    rw [Holding.load, List.length_append, List.length_singleton]
    omega
  have hsrk : ∀ step, unsealLeaky step → Leaves H unsealLeaky (unsealAhead env) step
      (H.load srk (dev.primaryObject .owner .srk)) := by
    intro step hleaky
    exact .more hleaky (hahead step) (List.prefix_append _ _) (by simp [Holding.load])
  apply Contract.bind (held_loadSealed hfaults hroom'
    (List.mem_append_right _ List.mem_cons_self) (hsrk _ rfl) (hsrk _ rfl) (hsrk _ rfl))
  intro obj
  -- Both objects are loaded now; only sessions and slots are added to this.
  have hboth : ∀ step sessions slots, unsealLeaky step → Leaves H unsealLeaky (unsealAhead env) step
      ⟨H.objects ++ [(srk, dev.primaryObject .owner .srk)] ++
        [(obj, dev.loaded (dev.primaryObject .owner .srk) blob)], H.sessions ++ sessions,
        slots⟩ := by
    intro step sessions slots hleaky
    refine .more hleaky (hahead step) ?_
      (by simp only [List.length_append, List.length_singleton]; omega)
    rw [List.append_assoc]
    exact List.prefix_append _ _
  have hloaded := fun step hleaky => (List.append_nil H.sessions) ▸ hboth step [] H.slots hleaky
  apply Contract.bind (held_unsealLoaded hfaults hrange
    (List.mem_append_right _ List.mem_cons_self) (hloaded _ rfl) (hloaded _ rfl) (hloaded _ rfl)
    (hloaded _ rfl) (fun _ => hboth _ _ _ rfl) (fun _ => hboth _ _ _ rfl)
    fun _ => hboth _ _ _ rfl)
  rintro ⟨policySession, data⟩
  apply Contract.bind (held_unload
    (H := ((H.load srk (dev.primaryObject .owner .srk)).openSession policySession .policy).setSlots
      ⟨some (.session policySession), none, none⟩) fun h => hflush h .flushSealed trivial)
  intro _
  apply Contract.bind (held_unload (H := (H.openSession policySession .policy).setSlots
    ⟨some (.session policySession), none, none⟩) fun h => hflush h .flushSrk trivial)
  intro _
  apply Contract.bind (held_flushSession
    (H := H.setSlots ⟨some (.session policySession), none, none⟩) fun h => hflush h _ trivial)
  intro _
  apply Contract.bind held_setSessions
  intro _
  exact Contract.pure fun _ hs => hs

theorem held_beginAttestation {hasResourceManager : Bool}
    (hroom : fr.exact → H.objects.length + 2 ≤ fr.bound)
    (hrsa : (∀ unique exponent, dev.primary .endorsement .ek ≠ .rsa unique exponent) →
      why .extractEk) :
    Contract (Held fr [] H) (TpmContextManager.beginAttestation dev env hasResourceManager)
      (fun session s => ∃ H', Publishes dev session ∧ Begun dev H session H' hasResourceManager ∧
        Held fr [] H' s)
      fun _ => Stopped fr why (Leaves H beginLeaky (beginAhead env)) := by
  apply Contract.bind (held_ekTemplate hfaults fun _ => .nothing rfl Bool.noConfusion)
  intro template
  apply Contract.assume
  rintro ⟨rfl, htemplate⟩
  have hahead : ∀ step, beginAhead env step := fun _ _ => htemplate
  apply Contract.bind (stops (held_createPrimary (hfaults _)
    fun h => by have := hroom h; omega) (.nothing rfl (hahead _)))
  rintro ⟨ek, ekOut⟩
  apply Contract.assume
  intro hek
  dsimp only at hek
  subst hek
  have hone : ∀ step ek object, beginLeaky step →
      Leaves H beginLeaky (beginAhead env) step (H.load ek object) := by
    intro step ek object hleaky
    exact .more hleaky (hahead step) (List.prefix_append _ _) (by simp [Holding.load])
  have hroom' : ∀ object, fr.exact → (H.load ek object).objects.length + 1 ≤ fr.bound := by
    intro object hexact
    have := hroom hexact
    rw [Holding.load, List.length_append, List.length_singleton]
    omega
  apply Contract.bind (held_akTemplate hfaults (hone _ _ _ rfl))
  intro template
  apply Contract.assume
  rintro rfl
  apply Contract.bind (stops (held_createPrimary (hfaults _) (hroom' _)) (hone _ _ _ rfl))
  rintro ⟨ak, akOut⟩
  apply Contract.assume
  intro hak
  dsimp only at hak
  subst hak
  have htwo : ∀ step ek ekObject ak akObject, beginLeaky step →
      Leaves H beginLeaky (beginAhead env) step ((H.load ek ekObject).load ak akObject) := by
    intro step ek ekObject ak akObject hleaky
    refine .more hleaky (hahead step) ?_ (by simp [Holding.load])
    exact (List.prefix_append _ _).trans (List.prefix_append _ _)
  apply Contract.bind (stops (held_attempt (hfaults _)) (htwo _ _ _ _ _ rfl))
  intro _
  apply Contract.bind (held_extractRsaPublic hrsa (htwo _ _ _ _ _ rfl))
  rintro ⟨modulus, exponent⟩
  apply Contract.assume
  rintro ⟨unique, exponent', harea, hkey⟩
  obtain ⟨rfl, rfl⟩ := Prod.mk.inj hkey
  cases hasResourceManager with
  | true =>
      refine Contract.pure fun _ hs => ⟨_, ⟨rfl, _, _, harea, rfl⟩, ?_, hs⟩
      exact ⟨ek, ak, rfl, rfl, rfl⟩
  | false =>
      apply Contract.bind (stops (held_contextSave_of_mem
        (List.mem_append_left _ (List.mem_append_right _ List.mem_cons_self)) (hfaults _))
        (htwo _ _ _ _ _ rfl))
      intro ekSaved
      apply Contract.assume
      rintro rfl
      apply Contract.bind (held_unload_under fun h => hflush h (.flushKey .ek) trivial)
      intro _
      apply Contract.bind (stops (held_contextSave_of_mem
        (List.mem_append_right _ List.mem_cons_self) (hfaults _)) (hone _ _ _ rfl))
      intro akSaved
      apply Contract.assume
      rintro rfl
      apply Contract.bind (held_unload fun h => hflush h (.flushKey .ak) trivial)
      intro _
      refine Contract.pure fun _ hs => ⟨_, ⟨rfl, _, _, harea, rfl⟩, ⟨?_, rfl⟩, hs⟩
      intro role
      cases role with
      | ek => rfl
      | ak => rfl

end Whole

end

end Fleetos.Tpm
