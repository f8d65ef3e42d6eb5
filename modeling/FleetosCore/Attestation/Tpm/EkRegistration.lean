import FleetosCore.Attestation.Tpm.EkIdentity
import FleetosCore.Attestation.Tpm.Enrolment
import FleetosCore.Certificate.X509

/-!
# Registering an endorsement key

A node is registered under the fingerprint of its EK, taken from an EK certificate by
`of_ek_cert` of `src/attestation.rs` or from the SubjectPublicKeyInfo that a session
publishes. The first hashes the octets that the manufacturer put into the certificate, the
second those that `rsa_public_to_spki` writes, so the two meet only if the manufacturer
wrote the key in the same way.

The certificate library reads a certificate down to the BIT STRING of the key and not into
it. A certificate with other parameters of the algorithm, unused bits or a key in another
form than DER is read without an error, and registers the node under another fingerprint.
-/

namespace Fleetos

/-- Failure to extract a canonical EK public key from an EK certificate. -/
inductive EkExtractionError where
  | emptyInput
  | malformedDer
  | missingSpki
  deriving DecidableEq, Repr

/-- Reading a certificate, and writing its SubjectPublicKeyInfo. -/
structure CertificateLibrary where
  Certificate : Type
  fromDer : Bytes → Option Certificate
  spkiToDer : Certificate → Option Bytes

namespace EkFingerprint

def ofEkCert (lib : CertificateLibrary) (blake3 : Bytes → Bytes) (ekCertDer : Bytes) :
    Except EkExtractionError EkFingerprint := do
  if ekCertDer.isEmpty then throw .emptyInput
  let cert ← match lib.fromDer ekCertDer with
    | some cert => pure cert
    | none => throw .malformedDer
  let spkiDer ← match lib.spkiToDer cert with
    | some spkiDer => pure spkiDer
    | none => throw .missingSpki
  return ofEkPub blake3 spkiDer

/-- Two different inputs with one fingerprint. -/
def Collides (blake3 : Bytes → Bytes) (ekPub ekPub' : Bytes) : Prop :=
  ekPub ≠ ekPub' ∧ (blake3 (fedBytes ekPub)).take 16 = (blake3 (fedBytes ekPub')).take 16

theorem ofEkPub_eq_iff {blake3 : Bytes → Bytes} {ekPub ekPub' : Bytes} :
    ofEkPub blake3 ekPub = ofEkPub blake3 ekPub' ↔
      ekPub = ekPub' ∨ Collides blake3 ekPub ekPub' := by
  rw [ofEkPub, ofEkPub, EkFingerprint.mk.injEq]
  constructor
  · intro hhash
    by_cases heq : ekPub = ekPub'
    · exact .inl heq
    · exact .inr ⟨heq, hhash⟩
  · rintro (rfl | hcollides)
    · rfl
    · exact hcollides.2

end EkFingerprint

/-- A certificate that is read has its SubjectPublicKeyInfo written as it stands in the
certificate: there is one DER encoding of what was read. -/
def CertificateLibrary.Faithful (lib : CertificateLibrary) : Prop :=
  ∀ (cert : Svid.X509) (c : lib.Certificate), lib.fromDer cert.encode = some c →
    lib.spkiToDer c = some (Der.tlv 0x30 cert.subjectPublicKeyInfo)

theorem CertificateLibrary.Faithful.ofEkCert_eq {lib : CertificateLibrary} (h : lib.Faithful)
    (blake3 : Bytes → Bytes) (cert : Svid.X509) :
    EkFingerprint.ofEkCert lib blake3 cert.encode =
      if (lib.fromDer cert.encode).isSome then
        .ok (.ofEkPub blake3 (Der.tlv 0x30 cert.subjectPublicKeyInfo))
      else .error .malformedDer := by
  have hempty : cert.encode.isEmpty = false := rfl
  rw [EkFingerprint.ofEkCert, hempty]
  cases hread : lib.fromDer cert.encode with
  | none => rfl
  | some c =>
      simp only [Bool.false_eq_true, if_false, pure_bind, h cert c hread, Option.isSome_some,
        if_true]
      rfl

namespace Svid.X509

/-- The fields up to the key, and what follows it. -/
theorem tbsBody_eq (cert : X509) :
    ∃ rest, cert.tbsBody = Der.tlvs [(0xA0, [0x02, 0x01, 0x02]), (0x02, cert.serialNumber),
      (0x30, cert.signature), (0x30, cert.issuer), (0x30, cert.validity), (0x30, cert.subject),
      (0x30, cert.subjectPublicKeyInfo)] ++ rest := by
  have hversion : Der.tlv 0xA0 [0x02, 0x01, 0x02] = [0xA0, 0x03, 0x02, 0x01, 0x02] := rfl
  have hnil : Der.tlvs [] = [] := rfl
  simp only [tbsBody, tbsHead, Der.tlvs_cons, hversion, hnil, List.append_assoc, List.nil_append,
    List.append_cancel_left_eq]
  exact ⟨_, rfl⟩

theorem encode_eq_tlv (cert : X509) :
    cert.encode = Der.tlv 0x30 (Der.tlvs [(0x30, cert.tbsBody)] ++ cert.trailer) := by
  rw [encode, Der.tlvs_cons]
  simp [Der.tlvs]

theorem tbsBody_length_lt {cert : X509} (h : cert.encode.length < 256 ^ 126) :
    (Der.tlvs [(0x30, cert.tbsBody)] ++ cert.trailer).length < 256 ^ 126 ∧
      cert.tbsBody.length < 256 ^ 126 := by
  rw [encode_eq_tlv] at h
  have houter := Der.length_le_tlv_length 0x30 (Der.tlvs [(0x30, cert.tbsBody)] ++ cert.trailer)
  have hinner := Der.length_le_tlv_length 0x30 cert.tbsBody
  have hsum : (Der.tlvs [(0x30, cert.tbsBody)] ++ cert.trailer).length =
      (Der.tlv 0x30 cert.tbsBody).length + cert.trailer.length := by
    simp [Der.tlvs]
  omega

/-- The octets of a certificate determine the key in it. -/
theorem subjectPublicKeyInfo_unique {cert cert' : X509} (hlen : cert.encode.length < 256 ^ 126)
    (h : cert.encode = cert'.encode) : cert.subjectPublicKeyInfo = cert'.subjectPublicKeyInfo := by
  obtain ⟨houter, hinner⟩ := tbsBody_length_lt hlen
  rw [encode_eq_tlv] at hlen
  rw [encode_eq_tlv, encode_eq_tlv] at h
  obtain ⟨htbs, -⟩ := Der.tlvs_append_inj houter (Der.tlv_inj hlen h) rfl
  have htbs : cert.tbsBody = cert'.tbsBody := by simpa using htbs
  obtain ⟨rest, hfields⟩ := cert.tbsBody_eq
  obtain ⟨rest', hfields'⟩ := cert'.tbsBody_eq
  rw [hfields] at hinner
  rw [hfields, hfields'] at htbs
  obtain ⟨hsame, -⟩ := Der.tlvs_append_inj hinner htbs rfl
  simp only [List.cons.injEq, Prod.mk.injEq, true_and, and_true] at hsame
  exact hsame.2.2.2.2.2

end Svid.X509

namespace Tpm

open Der (beNat)

/-- The key in a certificate, with the contents octets of its algorithm. -/
structure CertifiedKey where
  algorithm : Bytes
  unusedBits : UInt8
  key : Bytes
  deriving DecidableEq, Repr

namespace CertifiedKey

/-- The contents octets of the SubjectPublicKeyInfo. -/
def spki (k : CertifiedKey) : Bytes :=
  Der.tlv 0x30 k.algorithm ++ Der.tlv 0x03 (k.unusedBits :: k.key)

/-- An RSA key in DER. -/
def rsa (modulus : Bytes) (exponent : UInt32) : CertifiedKey :=
  ⟨rsaAlgorithm, 0, Der.tlv 0x30 (rsaIntegers modulus exponent)⟩

theorem spki_eq (k : CertifiedKey) :
    k.spki = Der.tlvs [(0x30, k.algorithm), (0x03, k.unusedBits :: k.key)] := by
  rw [spki, Der.tlvs_cons, Der.tlvs_cons]
  exact congrArg _ (List.append_nil _).symm

/-- The octets determine the three parts. -/
theorem tlv_spki_inj {k k' : CertifiedKey} (hlen : (Der.tlv 0x30 k.spki).length < 256 ^ 126)
    (h : Der.tlv 0x30 k.spki = Der.tlv 0x30 k'.spki) : k = k' := by
  have hspki : k.spki ++ [] = k'.spki ++ [] := congrArg (· ++ []) (Der.tlv_inj hlen h)
  have hshort : (k.spki ++ []).length < 256 ^ 126 := by
    rw [List.append_nil]
    exact Nat.lt_of_le_of_lt (Der.length_le_tlv_length 0x30 k.spki) hlen
  rw [spki_eq] at hshort
  rw [spki_eq, spki_eq k'] at hspki
  obtain ⟨hparts, -⟩ := Der.tlvs_append_inj hshort hspki rfl
  cases k
  cases k'
  simpa using hparts

end CertifiedKey

section

variable {unique : Bytes}

/-- A certificate holds the same octets exactly if it holds the TPM's key in DER. -/
theorem CertifiedKey.tlv_spki_eq_iff (hne : unique ≠ []) (hlen : unique.length ≤ 512)
    (exponent : UInt32) (k : CertifiedKey) :
    Der.tlv 0x30 k.spki = rsaPublicToSpki unique exponent ↔ k = .rsa unique exponent := by
  have hshort := rsaPublicToSpki_length_lt hne hlen exponent
  obtain ⟨hspki, -⟩ := rsaPublicToSpki_eq_rsaSpki (Nat.lt_trans hshort (by decide))
  have hrsa : rsaPublicToSpki unique exponent =
      Der.tlv 0x30 (CertifiedKey.rsa unique exponent).spki := hspki
  constructor
  · intro heq
    refine tlv_spki_inj ?_ (heq.trans hrsa)
    rw [heq]
    exact Nat.lt_of_lt_of_le hshort (by decide +kernel)
  · rintro rfl
    exact hrsa.symm

end

/-- The fingerprint of an EK from all sides, for sessions of any runs: a certificate that the
library reads has the fingerprint of a session exactly if it holds the TPM's key in DER, under
the RSA algorithm with NULL parameters and without unused bits, and two TPMs have one
fingerprint exactly if their keys are the same numbers; else two different inputs of the hash
are at hand with the same digest. -/
theorem ek_registrations_converge (lib : CertificateLibrary) (laws : lib.Faithful)
    (blake3 : Bytes → Bytes) (dev : Device) (unique : Bytes) (field : UInt32)
    (hek : dev.primary .endorsement .ek = .rsa unique field) (hne : unique ≠ [])
    (hlen : unique.length ≤ 512) (hasResourceManager : Bool) (turns : List Turn)
    (session : ManagedAttestationSession)
    (hsession : session ∈ (Managed.new.run dev hasResourceManager turns).sessions) :
    (∀ (cert : Svid.X509) (k : CertifiedKey), cert.subjectPublicKeyInfo = k.spki →
      (EkFingerprint.ofEkCert lib blake3 cert.encode = .ok (.ofEkPub blake3 session.ekSpki) ↔
        (lib.fromDer cert.encode).isSome ∧ (k = .rsa unique (rsaExponent field) ∨
          EkFingerprint.Collides blake3 (Der.tlv 0x30 k.spki) session.ekSpki))) ∧
    ∀ (dev' : Device) (unique' : Bytes) (field' : UInt32),
      dev'.primary .endorsement .ek = .rsa unique' field' → unique' ≠ [] →
      ∀ hasResourceManager' turns',
        ∀ session' ∈ (Managed.new.run dev' hasResourceManager' turns').sessions,
          (EkFingerprint.ofEkPub blake3 session'.ekSpki = .ofEkPub blake3 session.ekSpki ↔
            (beNat unique' = beNat unique ∧ rsaExponent field' = rsaExponent field) ∨
            EkFingerprint.Collides blake3 session'.ekSpki session.ekSpki) := by
  have hspki := (Sound.run dev hasResourceManager turns).ekSpki_eq hsession hek
  refine ⟨fun cert k hk => ?_, fun dev' unique' field' hek' hne' hasResourceManager' turns' session'
    hsession' => ?_⟩
  · rw [laws.ofEkCert_eq, hk]
    by_cases hread : (lib.fromDer cert.encode).isSome
    · rw [if_pos hread, Except.ok.injEq, EkFingerprint.ofEkPub_eq_iff]
      nth_rewrite 1 [hspki]
      rw [k.tlv_spki_eq_iff hne hlen]
      exact (and_iff_right hread).symm
    · rw [if_neg hread]
      exact iff_of_false (fun h => by cases h) fun h => hread h.1
  · have hspki' := (Sound.run dev' hasResourceManager' turns').ekSpki_eq hsession' hek'
    rw [EkFingerprint.ofEkPub_eq_iff, hspki', hspki, rsaPublicToSpki_eq_iff hne' hne]

namespace Sample

def ekKey : CertifiedKey := .rsa (List.replicate 256 0xE1) 65537

/-- The same key, with the parameters of the algorithm left out. -/
def bareEkKey : CertifiedKey := { ekKey with algorithm := rsaAlgorithm.take 11 }

def ekValidity : Bytes :=
  Der.tlv 0x17 (Text.utf8 "250101000000Z") ++ Der.tlv 0x17 (Text.utf8 "350101000000Z")

def ekCert (k : CertifiedKey) : Svid.X509 where
  serialNumber := [0x01]
  signature := rsaAlgorithm
  issuer := []
  validity := ekValidity
  subject := []
  subjectPublicKeyInfo := k.spki
  issuerUniqueId := none
  subjectUniqueId := none
  extensions := []
  signatureAlgorithm := rsaAlgorithm
  signatureValue := [0x00]
  encodable := by simp

/-- The one of the keys whose certificate is read. -/
def certifiedKey (keys : List CertifiedKey) (der : Bytes) : Option CertifiedKey :=
  if der.length < 2 ^ 28 then keys.find? fun k => (ekCert k).encode = der else none

/-- A library that reads the certificates of some keys. -/
def certificateLibrary (keys : List CertifiedKey) : CertificateLibrary where
  Certificate := CertifiedKey
  fromDer := certifiedKey keys
  spkiToDer k := some (Der.tlv 0x30 k.spki)

theorem certificateLibrary_fromDer (keys : List CertifiedKey) :
    (certificateLibrary keys).fromDer = certifiedKey keys := rfl

theorem certificateLibrary_faithful (keys : List CertifiedKey) :
    (certificateLibrary keys).Faithful := by
  intro cert k hread
  have hread : certifiedKey keys cert.encode = some k :=
    (congrFun (certificateLibrary_fromDer keys) cert.encode).symm.trans hread
  rw [certifiedKey] at hread
  split at hread
  · rename_i hlen
    have hencode : (ekCert k).encode = cert.encode := by simpa using List.find?_some hread
    rw [← hencode] at hlen
    have hshort : (ekCert k).encode.length < 256 ^ 126 :=
      Nat.lt_of_lt_of_le hlen (by decide +kernel)
    have hkey := Svid.X509.subjectPublicKeyInfo_unique hshort hencode
    exact congrArg (fun spki => some (Der.tlv 0x30 spki)) hkey
  · cases hread

theorem certificateLibrary_reads {keys : List CertifiedKey} {k : CertifiedKey} (h : k ∈ keys)
    (hlen : (ekCert k).encode.length < 2 ^ 28) :
    ((certificateLibrary keys).fromDer (ekCert k).encode).isSome := by
  have hread : (certifiedKey keys (ekCert k).encode).isSome := by
    rw [certifiedKey, if_pos hlen, List.find?_isSome]
    exact ⟨k, h, decide_eq_true rfl⟩
  exact (congrArg Option.isSome (congrFun (certificateLibrary_fromDer keys) _)).trans hread

/-- A digest that tells lengths apart. -/
def lengthHash (fed : Bytes) : Bytes :=
  Bytes.u32be (UInt32.ofNat fed.length) ++ List.replicate 28 0

/-- One certificate has the key in DER, the other lacks the parameters. -/
def ekLibrary : CertificateLibrary := certificateLibrary [ekKey, bareEkKey]

end Sample

/-- The certificate in DER registers the node of the session, and the one without parameters
another. -/
theorem ek_registrations_of_two_certificates :
    ∃ session, (Managed.new.run Sample.device false [⟨.beginAttestation, Sample.env⟩]).sessions =
        [session] ∧
      EkFingerprint.ofEkCert Sample.ekLibrary Sample.lengthHash
          (Sample.ekCert Sample.ekKey).encode =
        .ok (.ofEkPub Sample.lengthHash session.ekSpki) ∧
      EkFingerprint.ofEkCert Sample.ekLibrary Sample.lengthHash
          (Sample.ekCert Sample.bareEkKey).encode ≠
        .ok (.ofEkPub Sample.lengthHash session.ekSpki) := by
  have hopen : ∃ session, (Managed.new.run Sample.device false
      [⟨.beginAttestation, Sample.env⟩]).sessions = [session] := ⟨_, rfl⟩
  obtain ⟨session, hopen⟩ := hopen
  have hsession : session ∈ (Managed.new.run Sample.device false
      [⟨.beginAttestation, Sample.env⟩]).sessions := hopen ▸ List.mem_singleton_self session
  have hek : Sample.device.primary .endorsement .ek = .rsa (List.replicate 256 0xE1) 0 := rfl
  obtain ⟨hcert, -⟩ := ek_registrations_converge Sample.ekLibrary
    (Sample.certificateLibrary_faithful _) Sample.lengthHash Sample.device
    (List.replicate 256 0xE1) 0 hek (List.cons_ne_nil 0xE1 (List.replicate 255 0xE1))
    (by rw [List.length_replicate]; decide) false _ session hsession
  have hexponent : rsaExponent 0 = 65537 := rfl
  have hspki := (Sound.run Sample.device false _).ekSpki_eq hsession hek
  rw [hexponent] at hcert hspki
  refine ⟨session, hopen, (hcert (Sample.ekCert Sample.ekKey) Sample.ekKey rfl).mpr ⟨?_, .inl rfl⟩,
    fun hok => ?_⟩
  · exact Sample.certificateLibrary_reads List.mem_cons_self (by decide +kernel)
  · obtain ⟨-, hkey | hcollides⟩ :=
      (hcert (Sample.ekCert Sample.bareEkKey) Sample.bareEkKey rfl).mp hok
    · exact absurd (congrArg CertifiedKey.algorithm hkey) (by decide)
    · rw [hspki] at hcollides
      exact absurd hcollides.2 (by decide +kernel)

end Tpm

end Fleetos
