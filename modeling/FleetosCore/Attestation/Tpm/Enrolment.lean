import FleetosCore.Attestation.Tpm.Credential
import FleetosCore.Attestation.Tpm.Decided

/-!
# Enrolment by credential activation

A node sends the public parts of its two keys, the server answers with a credential made
for them, and the node shows by an activation proof that its TPM has recovered the secret.
The node may be in the middle of anything: other sessions are open, keys are saved or
loaded, earlier calls have failed. The server sees none of this, only octets.

What the TPMs and the DER library promise stands in `CredentialLaws`. The rest is the
program's: that the octets survive the way from the node's key to the server's, and that
an activation uses the keys whose public parts were sent.
-/

namespace Fleetos.Tpm

open Attestation (Sha2)
open Der (beNat)
open Effect (answer)

/-! ## An activation in the node -/

/-- In any sound state the manager recovers what the TPM does with the session's own keys,
exactly when these can be loaded and no place of the activation fails. -/
theorem Sound.reply_activate_iff {dev : Device} {m : Managed} {place : Nat}
    {session : ManagedAttestationSession} (h : Sound dev m)
    (hopen : m.sessions[place]? = some session) (env : Env) (hasResourceManager : Bool)
    (blob enc : Bytes) (reply : Answer) :
    m.reply dev hasResourceManager env (.ask place (.activate blob enc)) = some (.ok reply) ↔
      (Loadable env session ∧ ActivationPasses env) ∧
        reply = .activated (dev.activateCredential (dev.primary .endorsement .ak)
          (dev.primary .endorsement .ek) blob enc) := by
  have hstates : InStates dev session.key (m.context, session) :=
    ⟨h.truthful session (List.mem_of_getElem? hopen), rfl⟩
  have hactivate : ∀ recovered, answer (TpmContextManager.activate dev env hasResourceManager blob
      enc (m.context, session)) = .ok recovered ↔ (Loadable env session ∧ ActivationPasses env) ∧
        recovered = dev.activateCredential (dev.primary .endorsement .ak)
          (dev.primary .endorsement .ek) blob enc :=
    fun _ => decides_activate.answer_ok_iff hstates
  have hask : m.reply dev hasResourceManager env (.ask place (.activate blob enc)) =
      some ((answer (TpmContextManager.activate dev env hasResourceManager blob enc
        (m.context, session))).map .activated) := by
    rw [Managed.reply, hopen]
    rfl
  rw [hask, Option.some.injEq]
  refine Fallible.map_ok_iff.trans ⟨?_, ?_⟩
  · rintro ⟨recovered, hanswer, rfl⟩
    obtain ⟨hpasses, rfl⟩ := (hactivate recovered).mp hanswer
    exact ⟨hpasses, rfl⟩
  · rintro ⟨hpasses, rfl⟩
    exact ⟨_, (hactivate _).mpr ⟨hpasses, rfl⟩, rfl⟩

/-! ## The way of the endorsement key -/

/-- The exponent that a field stands for. -/
def rsaExponent (field : UInt32) : UInt32 := if field = 0 then 65537 else field

theorem wrapped_length_le (tag : UInt8) {contents : Bytes} (h : contents.length < 256 ^ 2) :
    (wrapped tag contents).length ≤ contents.length + 4 := by
  have hlen := derLen_length_le contents.length
  have hoctets : (Der.octets contents.length).length ≤ 2 := Der.octets_length_le_iff.mpr h
  rw [wrapped, List.length_cons, List.length_append]
  omega

theorem integerOctets_length_le {v : Bytes} (h : v ≠ []) :
    (integerOctets v).length ≤ v.length + 1 := by
  have hstripped := stripZeros_length_le h
  rw [integerOctets, List.length_append]
  split
  · rw [List.length_singleton]
    omega
  · rw [List.length_nil]
    omega

/-- A modulus that fits into a public area gives a short SubjectPublicKeyInfo. -/
theorem rsaPublicToSpki_length_lt {modulus : Bytes} (hne : modulus ≠ [])
    (h : modulus.length ≤ 512) (exponent : UInt32) :
    (rsaPublicToSpki modulus exponent).length < 2 ^ 28 := by
  have hinteger := integerOctets_length_le hne
  have hmodulus : (derInteger modulus).length ≤ 517 := by
    rw [derInteger_eq_wrapped]
    have hwrapped := wrapped_length_le 0x02 (show (integerOctets modulus).length < 256 ^ 2 by omega)
    omega
  have hexponent := derInteger_u32be_length_lt exponent
  let integers := derInteger modulus ++ derInteger (Bytes.u32be exponent)
  have hintegers : integers.length ≤ 645 := by
    rw [List.length_append]
    omega
  have hkey : (derSeq integers).length ≤ 649 := by
    rw [derSeq_eq_wrapped]
    have hwrapped := wrapped_length_le 0x30 (show integers.length < 256 ^ 2 by omega)
    omega
  have hbits : (derBitstring (derSeq integers)).length ≤ 654 := by
    rw [derBitstring_eq_wrapped]
    have hcontents : (0x00 :: derSeq integers).length ≤ 650 := Nat.succ_le_succ hkey
    have hwrapped := wrapped_length_le 0x03 (Nat.lt_of_le_of_lt hcontents (by decide))
    omega
  have halg : (derSeq rsaAlgorithm).length ≤ 17 := by decide
  have hbody : (derSeq rsaAlgorithm ++ derBitstring (derSeq integers)).length ≤ 671 := by
    rw [List.length_append]
    omega
  have hwhole : rsaPublicToSpki modulus exponent =
      wrapped 0x30 (derSeq rsaAlgorithm ++ derBitstring (derSeq integers)) := rfl
  have hwrapped := wrapped_length_le 0x30 (Nat.lt_of_le_of_lt hbody (by decide))
  rw [hwhole]
  omega

/-- What the TPMs of both sides and the DER library promise. -/
structure CredentialLaws (dev : Device) (server : Server) : Prop where
  sha : server.sha = dev.sha
  /-- The library reads RSA keys up to its size limit. -/
  reads : ∀ content, (rsaSpki content).length < 2 ^ 28 →
    server.spkiFromDer (rsaSpki content) = .ok (rsaOid, content)
  /-- A credential for the name of the TPM's AK and for its EK is recovered with the two. -/
  recovers : ∀ unique field, dev.primary .endorsement .ek = .rsa unique field →
    ∀ seed modulus exponent name, ∀ secret : Secret,
    IsName dev.sha (dev.marshall (dev.primary .endorsement .ak)) name →
    modulus.length = 256 ∨ modulus.length = 384 →
    beNat unique = beNat modulus → rsaExponent field = rsaExponent exponent →
    dev.activateCredential (dev.primary .endorsement .ak) (dev.primary .endorsement .ek)
      (server.makeCredential seed (.rsa modulus exponent) name secret.bytes).1
      (server.makeCredential seed (.rsa modulus exponent) name secret.bytes).2 = secret.bytes

section

variable {dev : Device} {server : Server} {unique : Bytes}

theorem beNat_stripZeros {v : Bytes} (h : v ≠ []) : beNat (stripZeros v) = beNat v := by
  obtain ⟨⟨n, hv⟩, -⟩ := withoutLeadingZeros_stripZeros h
  rw [congrArg beNat hv, Der.beNat_replicate_zero_append]

/-- The server reads the node's modulus without zeros in front, and the same exponent. -/
theorem CredentialLaws.reads_key (laws : CredentialLaws dev server) (hne : unique ≠ [])
    (hlen : unique.length ≤ 512) (field : UInt32) :
    ∃ content exponent, server.spkiFromDer (rsaPublicToSpki unique (rsaExponent field)) =
        .ok (rsaOid, content) ∧
      parseRsaPublicKey content = .ok (stripZeros unique, exponent) ∧
      rsaExponent exponent = rsaExponent field := by
  have hshort := rsaPublicToSpki_length_lt hne hlen (rsaExponent field)
  obtain ⟨hspki, hintegers⟩ := rsaPublicToSpki_eq_rsaSpki (Nat.lt_trans hshort (by decide))
  have hread := laws.reads (Der.tlv 0x30 (rsaIntegers unique (rsaExponent field)))
    (hspki ▸ hshort)
  rw [← hspki] at hread
  refine ⟨_, exponentField (integerOctets (Bytes.u32be (rsaExponent field))), hread, ?_, ?_⟩
  · rw [rsaIntegers, parseRsaPublicKey_tlv hintegers, stripSign_integerOctets hne]
  · rw [exponentField_integerOctets, rsaExponent]
    by_cases hfield : rsaExponent field = 65537
    · rw [if_pos hfield, if_pos rfl, hfield]
    · have hzero : rsaExponent field ≠ 0 := by
        rw [rsaExponent]
        split
        · decide
        · assumption
      rw [if_neg hfield, if_neg hzero]

/-- What the server accepts of an open session is a matter of the TPM's keys alone. -/
theorem CredentialLaws.acceptable_iff (laws : CredentialLaws dev server) (hne : unique ≠ [])
    (hlen : unique.length ≤ 512) (field : UInt32) :
    ∃ exponent, rsaExponent exponent = rsaExponent field ∧ ∀ akPub modulus exponent' name,
      Acceptable server (rsaPublicToSpki unique (rsaExponent field)) akPub modulus exponent' name ↔
        createContext server.tcti server.endpoint = .ok .empty ∧
        ((stripZeros unique).length = 256 ∨ (stripZeros unique).length = 384) ∧
        IsName dev.sha akPub name ∧ modulus = stripZeros unique ∧ exponent' = exponent := by
  obtain ⟨content, exponent, hread, hparse, hexponent⟩ := laws.reads_key hne hlen field
  refine ⟨exponent, hexponent, fun akPub modulus exponent' name => ⟨fun h => ?_, ?_⟩⟩
  · obtain ⟨content', hread', hparse'⟩ := h.key
    rw [hread] at hread'
    obtain ⟨-, rfl⟩ := Prod.mk.inj (Except.ok.inj hread')
    rw [hparse] at hparse'
    obtain ⟨rfl, rfl⟩ := Prod.mk.inj (Except.ok.inj hparse')
    exact ⟨h.connects, h.size, laws.sha ▸ h.name, rfl, rfl⟩
  · rintro ⟨hconnect, hsize, hname, rfl, rfl⟩
    exact ⟨hconnect, ⟨content, hread, hparse⟩, hsize, laws.sha.symm ▸ hname⟩

/-- The credential that the server makes for the TPM's own EK, and when. -/
theorem CredentialLaws.made_iff (laws : CredentialLaws dev server) (hne : unique ≠ [])
    (hlen : unique.length ≤ 512) (field : UInt32) (akPub : Bytes) (serverEnv : ServerEnv)
    (secret : Secret) :
    ∃ exponent, rsaExponent exponent = rsaExponent field ∧ ∀ made,
      answer (makeCredential server serverEnv (rsaPublicToSpki unique (rsaExponent field)) akPub
          secret .empty) = .ok made ↔
        createContext server.tcti server.endpoint = .ok .empty ∧
        ((stripZeros unique).length = 256 ∨ (stripZeros unique).length = 384) ∧
        (∃ name, IsName dev.sha akPub name ∧
          made = server.makeCredential serverEnv.seed (.rsa (stripZeros unique) exponent) name
            secret.bytes) ∧
        ∀ step, step ≠ .flushEk → serverEnv.faults step = none := by
  obtain ⟨exponent, hexponent, hacceptable⟩ := laws.acceptable_iff hne hlen field
  refine ⟨exponent, hexponent, fun made => ?_⟩
  simp only [makeCredential_ok_iff, hacceptable]
  constructor
  · rintro ⟨_, _, name, ⟨hconnect, hsize, hname, rfl, rfl⟩, hpass, hmade⟩
    exact ⟨hconnect, hsize, ⟨name, hname, hmade⟩, hpass⟩
  · rintro ⟨hconnect, hsize, ⟨name, hname, hmade⟩, hpass⟩
    exact ⟨_, exponent, name, ⟨hconnect, hsize, hname, rfl, rfl⟩, hpass, hmade⟩

/-- An open session has published the TPM's own EK. -/
theorem Sound.ekSpki_eq {m : Managed} {session : ManagedAttestationSession} {field : UInt32}
    (h : Sound dev m) (hsession : session ∈ m.sessions)
    (hek : dev.primary .endorsement .ek = .rsa unique field) :
    session.ekSpki = rsaPublicToSpki unique (rsaExponent field) := by
  obtain ⟨unique', field', hek', hspki⟩ := (h.publishes session hsession).ek
  obtain ⟨rfl, rfl⟩ := Public.rsa.inj (hek.symm.trans hek')
  exact hspki

end

/-- Enrolment with any open session of any run: the server makes a credential exactly when
the TPM's EK has a supported size and its AK a name; the node recovers the server's
secret, and never anything else, exactly when its keys load and the activation passes; and
the server then accepts the proof computed from what was recovered and no other. -/
theorem enrolment_activates (dev : Device) (server : Server) (keyedHash : Bytes → Bytes → Bytes)
    (laws : CredentialLaws dev server) (unique : Bytes) (field : UInt32)
    (hek : dev.primary .endorsement .ek = .rsa unique field) (hne : unique ≠ [])
    (hlen : unique.length ≤ 512) (hasResourceManager : Bool) (turns : List Turn) (place : Nat)
    (session : ManagedAttestationSession)
    (hopen : (Managed.new.run dev hasResourceManager turns).sessions[place]? = some session)
    (serverEnv : ServerEnv) (secret : Secret) :
    let m := Managed.new.run dev hasResourceManager turns
    let credential := answer (makeCredential server serverEnv session.ekSpki session.akPub secret
      .empty)
    ((∃ made, credential = .ok made) ↔
      createContext server.tcti server.endpoint = .ok .empty ∧
      ((stripZeros unique).length = 256 ∨ (stripZeros unique).length = 384) ∧
      (∃ name, IsName dev.sha (dev.marshall (dev.primary .endorsement .ak)) name) ∧
      ∀ step, step ≠ .flushEk → serverEnv.faults step = none) ∧
    ∀ blob enc, credential = .ok (blob, enc) → ∀ env : Env,
      (∀ reply, m.reply dev hasResourceManager env (.ask place (.activate blob enc)) =
          some (.ok reply) ↔
        (Loadable env session ∧ ActivationPasses env) ∧ reply = .activated secret.bytes) ∧
      ∀ recovered : Secret,
        m.reply dev hasResourceManager env (.ask place (.activate blob enc)) =
          some (.ok (.activated recovered.bytes)) →
        ∀ serverNonce proof, verifyActivationProof keyedHash secret serverNonce proof = true ↔
          proof = computeActivationProof keyedHash recovered serverNonce := by
  intro m credential
  have hsound : Sound dev m := .run dev hasResourceManager turns
  have hsession := List.mem_of_getElem? hopen
  have hspki := hsound.ekSpki_eq hsession hek
  have hak := (hsound.publishes session hsession).ak
  obtain ⟨exponent, hexponent, hmade_iff⟩ :=
    laws.made_iff hne hlen field session.akPub serverEnv secret
  rw [← hspki] at hmade_iff
  refine ⟨⟨?_, ?_⟩, fun blob enc hmade env => ?_⟩
  · rintro ⟨made, hmade⟩
    obtain ⟨hconnect, hsize, ⟨name, hname, -⟩, hpass⟩ := (hmade_iff made).mp hmade
    exact ⟨hconnect, hsize, ⟨name, hak ▸ hname⟩, hpass⟩
  · rintro ⟨hconnect, hsize, ⟨name, hname⟩, hpass⟩
    exact ⟨_, (hmade_iff _).mpr ⟨hconnect, hsize, ⟨name, hak ▸ hname, rfl⟩, hpass⟩⟩
  · obtain ⟨-, hsize, ⟨name, hname, hparts⟩, -⟩ := (hmade_iff _).mp hmade
    have hsecret := laws.recovers unique field hek serverEnv.seed (stripZeros unique) exponent name
      secret (hak ▸ hname) hsize (beNat_stripZeros hne).symm hexponent.symm
    rw [← hparts] at hsecret
    have hreply := hsound.reply_activate_iff hopen env hasResourceManager blob enc
    rw [hsecret] at hreply
    refine ⟨hreply, fun recovered hrecovered serverNonce proof => ?_⟩
    have hbytes : recovered.bytes = secret.bytes :=
      Answer.activated.inj ((hreply _).mp hrecovered).2
    rw [verifyActivationProof, Attestation.ctEq_iff, computeActivationProof,
      computeActivationProof, hbytes]
    exact eq_comm

namespace Sample

/-- A reader that knows RSA keys only. -/
def spkiFromDer (der : Bytes) : Except String (List Nat × Bytes) :=
  match (List.range (der.length + 1)).find? fun n => rsaSpki (der.drop n) = der with
  | some n => .ok (rsaOid, der.drop n)
  | none => .error "unexpected ASN.1 DER tag"

/-- The name and the secret, for the holder of the modulus. -/
def server : Server where
  tcti := tcti
  endpoint := endpoint
  spkiFromDer := spkiFromDer
  sha := Attestation.sampleSha2
  makeCredential _ ek name secret :=
    match ek with
    | .rsa modulus _ => (name ++ secret, Der.octets (beNat modulus))
    | .other _ => ([], [])

def serverEnv : ServerEnv := ⟨fun _ => none, []⟩

/-- Another key or another name recovers nothing. -/
def recover (ak ek : Public) (blob enc : Bytes) : Bytes :=
  let name := blob.take (blob.length - 32)
  match ek with
  | .rsa unique _ =>
      if enc = Der.octets (beNat unique) ∧
          (computeAkName server serverEnv (device.marshall ak)).toOption = some name then
        blob.drop (blob.length - 32)
      else []
  | .other _ => []

def credentialDevice : Device := { device with activateCredential := recover }

theorem rsaSpki_inj {content content' : Bytes} (hlen : (rsaSpki content).length < 2 ^ 28)
    (h : rsaSpki content = rsaSpki content') : content = content' :=
  SubjectPublicKey.unique (Nat.lt_of_lt_of_le hlen (by decide +kernel))
    ⟨rsaAlgorithm, rfl⟩ ⟨rsaAlgorithm, h⟩

theorem suffix_tlv (tag : UInt8) (contents : Bytes) : contents <:+ Der.tlv tag contents :=
  (List.suffix_append _ _).trans (List.suffix_cons _ _)

theorem suffix_rsaSpki (content : Bytes) : content <:+ rsaSpki content :=
  (List.suffix_cons 0x00 content).trans <| (suffix_tlv 0x03 _).trans <|
    (List.suffix_append _ _).trans (suffix_tlv 0x30 _)

theorem spkiFromDer_rsaSpki {content : Bytes} (hlen : (rsaSpki content).length < 2 ^ 28) :
    spkiFromDer (rsaSpki content) = .ok (rsaOid, content) := by
  obtain ⟨front, hfront⟩ := suffix_rsaSpki content
  have hdrop : (rsaSpki content).drop front.length = content := by rw [← hfront, List.drop_left]
  rw [spkiFromDer]
  cases hfind : (List.range ((rsaSpki content).length + 1)).find? fun n =>
      rsaSpki ((rsaSpki content).drop n) = rsaSpki content with
  | none =>
      have hmem : front.length ∈ List.range ((rsaSpki content).length + 1) := by
        rw [List.mem_range, ← hfront, List.length_append]
        omega
      have hnot := List.find?_eq_none.mp hfind _ hmem
      rw [hdrop] at hnot
      exact absurd (decide_eq_true rfl) hnot
  | some n =>
      have hsame : rsaSpki ((rsaSpki content).drop n) = rsaSpki content := by
        simpa using List.find?_some hfind
      exact congrArg (fun c => Except.ok (rsaOid, c)) (rsaSpki_inj hlen hsame.symm).symm

theorem credentialLaws : CredentialLaws credentialDevice server where
  sha := rfl
  reads content hlen := by
    have hreader : server.spkiFromDer = spkiFromDer := rfl
    rw [hreader]
    exact spkiFromDer_rsaSpki hlen
  recovers unique field hek seed modulus exponent name secret hname _ hunique _ := by
    have hlength := secret.length_eq
    have hsplit : (name ++ secret.bytes).length - 32 = name.length := by
      rw [List.length_append]
      omega
    have hcompute : computeAkName server serverEnv
        (device.marshall (device.primary .endorsement .ak)) = .ok name :=
      computeAkName_ok_iff.mpr ⟨hname, rfl⟩
    rw [hek]
    show recover (device.primary .endorsement .ak) (.rsa unique field) (name ++ secret.bytes)
      (Der.octets (beNat modulus)) = _
    rw [recover, hsplit, List.take_left, List.drop_left, hcompute, hunique]
    exact if_pos ⟨rfl, rfl⟩

def secret : Secret := ⟨List.replicate 32 0x5E, List.length_replicate⟩

/-- The AK of an open session cannot be saved back after a quote. -/
def turns : List Turn :=
  [⟨.beginAttestation, env⟩, ⟨.quote 0 [0xAA] [0, 7], failing (.contextSave .ak)⟩]

end Sample

/-- The server makes a credential for the session, and the node recovers the secret. -/
theorem enrolment_activates_after_failed_save :
    ∃ session, (Managed.new.run Sample.credentialDevice false Sample.turns).sessions[0]? =
        some session ∧
      ∃ blob enc, answer (makeCredential Sample.server Sample.serverEnv session.ekSpki
          session.akPub Sample.secret .empty) = .ok (blob, enc) ∧
        (Managed.new.run Sample.credentialDevice false Sample.turns).reply Sample.credentialDevice
            false Sample.env (.ask 0 (.activate blob enc)) =
          some (.ok (.activated Sample.secret.bytes)) := by
  have hopen : ∃ session, (Managed.new.run Sample.credentialDevice false
      Sample.turns).sessions[0]? = some session := ⟨_, rfl⟩
  obtain ⟨session, hopen⟩ := hopen
  obtain ⟨hmakes, hactivates⟩ := enrolment_activates Sample.credentialDevice Sample.server
    (fun _ _ => []) Sample.credentialLaws (List.replicate 256 0xE1) 0 rfl
    (List.cons_ne_nil 0xE1 (List.replicate 255 0xE1)) (by rw [List.length_replicate]; decide)
    false Sample.turns 0 session hopen Sample.serverEnv Sample.secret
  have hstripped : stripZeros (List.replicate 256 0xE1) = List.replicate 256 0xE1 := rfl
  have hsize : (stripZeros (List.replicate 256 0xE1)).length = 256 := by
    rw [hstripped, List.length_replicate]
  have hname : IsName Attestation.sampleSha2 Attestation.sampleAkPub
      (Bytes.u16be 0x000B ++ Attestation.sampleSha2.hashWith .sha256 Attestation.sampleAkPub) :=
    ⟨[0x00, 0x23], 0x000B, _, .sha256, rfl, rfl, rfl, rfl⟩
  obtain ⟨⟨blob, enc⟩, hmade⟩ := hmakes.mpr ⟨rfl, .inl hsize, ⟨_, hname⟩, fun _ _ => rfl⟩
  refine ⟨session, hopen, blob, enc, hmade, ?_⟩
  refine ((hactivates blob enc hmade Sample.env).1 _).mpr ⟨⟨fun _ _ => rfl, ?_⟩, rfl⟩
  exact ⟨⟨rfl, rfl, rfl, rfl⟩, rfl, rfl, rfl⟩

end Fleetos.Tpm
