import FleetosCore.Library.Bytes
import FleetosCore.Library.Checked
import FleetosCore.Library.Fallible

/-!
# Sealed secrets

`seal` and `unseal` of `src/crypto.rs`: an ephemeral X25519 agreement, a derived key and
an AEAD whose associated data are the SVID version and the sequence number. The random
choices of `seal` are arguments here, the ephemeral secret and the nonce.

The crates are parameters. Of the key agreement only its symmetry is used. The AEAD is an
ideal one: of all the ciphertexts it is asked to open, it opens those that came out of an
encryption, which is said with the list of the encryptions that were made.
-/

namespace Fleetos.Crypto

inductive CryptoError where
  | decryptionFailed
  | invalidPublicKeyLength
  deriving DecidableEq, Repr

/-- `[u8; n]`. -/
abbrev Octets (n : Nat) : Type := List.Vector UInt8 n

structure RecipientX25519Pubkey where
  bytes : Octets 32
  deriving DecidableEq

def RecipientX25519Pubkey.fromSlice (slice : Bytes) : Except CryptoError RecipientX25519Pubkey :=
  if h : slice.length = 32 then pure ⟨⟨slice, h⟩⟩ else throw .invalidPublicKeyLength

structure SecretSequence where
  value : UInt64
  deriving DecidableEq, Repr

structure SealedSecret where
  sealedForSvidVersion : UInt64
  sequence : SecretSequence
  ephemeralPubkey : Octets 32
  ciphertext : Bytes
  deriving DecidableEq

/-- What `seal` and `unseal` call: x25519-dalek, `blake3::derive_key` and ChaCha20Poly1305. -/
structure SealingCrates where
  publicKey : Octets 32 → Octets 32
  diffieHellman : Octets 32 → Octets 32 → Octets 32
  deriveKey : String → Bytes → Octets 32
  encrypt : Octets 32 → Octets 12 → Bytes → Bytes → Option Bytes
  decrypt : Octets 32 → Octets 12 → Bytes → Bytes → Option Bytes

def sealingContext : String := "FleetOS v1 SecretSealing Context"

section

variable (crates : SealingCrates)

def generateSealingKeypair (secret : Octets 32) : Octets 32 × RecipientX25519Pubkey :=
  (secret, ⟨crates.publicKey secret⟩)

def sealSecret (ephSecret : Octets 32) (nonceBytes : Octets 12)
    (recipientPubkey : RecipientX25519Pubkey) (plaintext : Bytes) (svidVersion : UInt64)
    (sequence : SecretSequence) : Except CryptoError SealedSecret := do
  let ephPubkey := crates.publicKey ephSecret
  let sharedSecret := crates.diffieHellman ephSecret recipientPubkey.bytes
  let key := crates.deriveKey sealingContext sharedSecret.toList
  let ad := Bytes.u64le svidVersion ++ Bytes.u64le sequence.value
  let encryptedPayload ←
    Fallible.okOr (crates.encrypt key nonceBytes ad plaintext) .decryptionFailed
  let ciphertext := nonceBytes.toList ++ encryptedPayload
  return ⟨svidVersion, sequence, ephPubkey, ciphertext⟩

def unsealSecret (recipientPrivkey : Octets 32) (sealed : SealedSecret) :
    Except Checked.Panic (Except CryptoError Bytes) := do
  let sharedSecret := crates.diffieHellman recipientPrivkey sealed.ephemeralPubkey
  let key := crates.deriveKey sealingContext sharedSecret.toList
  if sealed.ciphertext.length < 12 then return .error .decryptionFailed
  let nonceBytes ← Checked.copyFromSlice 12 (← Checked.sliceTo sealed.ciphertext 12)
  let encryptedPayload ← Checked.sliceFrom sealed.ciphertext 12
  let ad := Bytes.u64le sealed.sealedForSvidVersion ++ Bytes.u64le sealed.sequence.value
  return Fallible.okOr (crates.decrypt key nonceBytes ad encryptedPayload) .decryptionFailed

/-! ## One sealing and the encryptions around it -/

/-- One encryption: what the AEAD is given. -/
structure Encryption where
  key : Octets 32
  nonce : Octets 12
  aad : Bytes
  msg : Bytes
  deriving DecidableEq

/-- The AEAD opens what came out of one of these encryptions, and nothing else. -/
def DecryptsExactly (made : List Encryption) : Prop :=
  ∀ key nonce aad payload msg, crates.decrypt key nonce aad payload = some msg ↔
    ⟨key, nonce, aad, msg⟩ ∈ made ∧ crates.encrypt key nonce aad msg = some payload

/-- Both sides of the key agreement compute the same secret. -/
def AgreementSymmetric : Prop :=
  ∀ a b, crates.diffieHellman a (crates.publicKey b) = crates.diffieHellman b (crates.publicKey a)

/-- The arguments of one call of `seal` to the owner of `recipientPrivkey`, and its random
choices. -/
structure Sealing where
  recipientPrivkey : Octets 32
  ephSecret : Octets 32
  nonceBytes : Octets 12
  plaintext : Bytes
  svidVersion : UInt64
  sequence : SecretSequence

end

namespace Sealing

variable (crates : SealingCrates) (s : Sealing)

def run : Except CryptoError SealedSecret :=
  sealSecret crates s.ephSecret s.nonceBytes
    (generateSealingKeypair crates s.recipientPrivkey).2 s.plaintext s.svidVersion s.sequence

/-- The encryption that this sealing makes. -/
def encryption : Encryption where
  key := crates.deriveKey sealingContext
    (crates.diffieHellman s.ephSecret (crates.publicKey s.recipientPrivkey)).toList
  nonce := s.nonceBytes
  aad := Bytes.u64le s.svidVersion ++ Bytes.u64le s.sequence.value
  msg := s.plaintext

variable {crates s}

theorem run_ok_iff {sealed : SealedSecret} :
    s.run crates = .ok sealed ↔
      ∃ payload, crates.encrypt (s.encryption crates).key s.nonceBytes (s.encryption crates).aad
          s.plaintext = some payload ∧
        sealed = ⟨s.svidVersion, s.sequence, crates.publicKey s.ephSecret,
          s.nonceBytes.toList ++ payload⟩ := by
  simp only [run, sealSecret, Fallible.bind_ok_iff, Fallible.okOr_ok_iff, Fallible.pure_ok_iff]
  constructor
  · rintro ⟨payload, henc, rfl⟩
    exact ⟨payload, henc, rfl⟩
  · rintro ⟨payload, henc, rfl⟩
    exact ⟨payload, henc, rfl⟩

end Sealing

/-! ## Unsealing -/

section

variable {crates : SealingCrates} {recipientPrivkey : Octets 32} {sealed : SealedSecret}

theorem unsealSecret_of_short (h : sealed.ciphertext.length < 12) :
    unsealSecret crates recipientPrivkey sealed = .ok (.error .decryptionFailed) := by
  rw [unsealSecret, if_pos h]
  rfl

/-- The key that the recipient derives. -/
def unsealingKey (crates : SealingCrates) (recipientPrivkey : Octets 32) (sealed : SealedSecret) :
    Octets 32 :=
  crates.deriveKey sealingContext
    (crates.diffieHellman recipientPrivkey sealed.ephemeralPubkey).toList

/-- Behind a whole nonce the rest is decrypted, under the version and the sequence number
that come with it. -/
theorem unsealSecret_of_nonce {nonce : Octets 12} {payload : Bytes}
    (h : sealed.ciphertext = nonce.toList ++ payload) :
    unsealSecret crates recipientPrivkey sealed =
      .ok (Fallible.okOr (crates.decrypt (unsealingKey crates recipientPrivkey sealed) nonce
        (Bytes.u64le sealed.sealedForSvidVersion ++ Bytes.u64le sealed.sequence.value) payload)
        .decryptionFailed) := by
  have hnonce : nonce.toList.length = 12 := nonce.toList_length
  have hlength : sealed.ciphertext.length = 12 + payload.length := by
    rw [h, List.length_append, hnonce]
  have htake : sealed.ciphertext.take 12 = nonce.toList := by
    rw [h, List.take_left' hnonce]
  have hdrop : sealed.ciphertext.drop 12 = payload := by
    rw [h, List.drop_left' hnonce]
  rw [unsealSecret, if_neg (by omega), Checked.sliceTo_of_le (by omega), Fallible.ok_bind, htake,
    Checked.copyFromSlice_toList, Fallible.ok_bind, Checked.sliceFrom_of_le (by omega),
    Fallible.ok_bind, hdrop]
  rfl

/-- A ciphertext is too short or starts with a nonce. -/
theorem short_or_nonce (ciphertext : Bytes) :
    ciphertext.length < 12 ∨ ∃ (nonce : Octets 12) (payload : Bytes),
      ciphertext = nonce.toList ++ payload := by
  by_cases h : ciphertext.length < 12
  · exact .inl h
  · have hlength : (ciphertext.take 12).length = 12 := by
      rw [List.length_take]
      omega
    exact .inr ⟨⟨ciphertext.take 12, hlength⟩, ciphertext.drop 12,
      (List.take_append_drop 12 ciphertext).symm⟩

theorem unsealSecret_returns (crates : SealingCrates) (recipientPrivkey : Octets 32)
    (sealed : SealedSecret) :
    ∃ result, unsealSecret crates recipientPrivkey sealed = .ok result := by
  rcases short_or_nonce sealed.ciphertext with hshort | ⟨nonce, payload, hsplit⟩
  · exact ⟨_, unsealSecret_of_short hshort⟩
  · exact ⟨_, unsealSecret_of_nonce hsplit⟩

/-- The associated data determine the version and the sequence number. -/
theorem associatedData_inj {v v' n n' : UInt64}
    (h : Bytes.u64le v ++ Bytes.u64le n = Bytes.u64le v' ++ Bytes.u64le n') : v = v' ∧ n = n' := by
  obtain ⟨hv, hn⟩ := List.append_inj h (by simp)
  exact ⟨Bytes.u64le_injective hv, Bytes.u64le_injective hn⟩

end

/-! ## What a sealing binds -/

section

variable {crates : SealingCrates} {s : Sealing} {made : List Encryption}

/-- The recipient derives the key of the sealing. -/
theorem unsealingKey_eq (hsymm : AgreementSymmetric crates) {sealed : SealedSecret}
    (h : sealed.ephemeralPubkey = crates.publicKey s.ephSecret) :
    unsealingKey crates s.recipientPrivkey sealed = (s.encryption crates).key := by
  rw [unsealingKey, h, hsymm]
  rfl

theorem unsealSecret_of_run (hsymm : AgreementSymmetric crates)
    (hexact : DecryptsExactly crates made) (hmade : s.encryption crates ∈ made)
    {sealed : SealedSecret} (hseal : s.run crates = .ok sealed) :
    unsealSecret crates s.recipientPrivkey sealed = .ok (.ok s.plaintext) := by
  obtain ⟨payload, henc, rfl⟩ := Sealing.run_ok_iff.mp hseal
  have hdecrypt := (hexact _ _ _ _ _).mpr ⟨hmade, henc⟩
  rw [unsealSecret_of_nonce rfl, unsealingKey_eq hsymm rfl]
  exact congrArg (fun o => Except.ok (Fallible.okOr o CryptoError.decryptionFailed)) hdecrypt

/-- No other encryption was made under the sealing's key. -/
def KeyUsedOnce (crates : SealingCrates) (s : Sealing) (made : List Encryption) : Prop :=
  ∀ e ∈ made, e.key = (s.encryption crates).key → e = s.encryption crates

/-- In a run of sealings with different keys each key is used once. -/
theorem keyUsedOnce_of_nodup {run : List Sealing}
    (h : (run.map fun a => (a.encryption crates).key).Nodup) (hs : s ∈ run) :
    KeyUsedOnce crates s (run.map (Sealing.encryption crates)) := by
  intro e he hkey
  obtain ⟨other, hother, rfl⟩ := List.mem_map.mp he
  rw [List.inj_on_of_nodup_map h hother hs hkey]

/-- Under the key of a sealing only its own ciphertext is opened. -/
theorem eq_of_opened (hsymm : AgreementSymmetric crates) (hexact : DecryptsExactly crates made)
    (honce : KeyUsedOnce crates s made) {sealed tampered : SealedSecret}
    (hseal : s.run crates = .ok sealed)
    (hpubkey : tampered.ephemeralPubkey = sealed.ephemeralPubkey) {nonce : Octets 12}
    {payload msg : Bytes} (hsplit : tampered.ciphertext = nonce.toList ++ payload)
    (hopened : crates.decrypt (unsealingKey crates s.recipientPrivkey tampered) nonce
      (Bytes.u64le tampered.sealedForSvidVersion ++ Bytes.u64le tampered.sequence.value) payload =
        some msg) :
    tampered = sealed := by
  obtain ⟨sealedPayload, henc, rfl⟩ := Sealing.run_ok_iff.mp hseal
  rw [unsealingKey_eq hsymm hpubkey] at hopened
  obtain ⟨hmem, hpayload⟩ := (hexact _ _ _ _ _).mp hopened
  have hcall := honce _ hmem rfl
  simp only [Sealing.encryption, Encryption.mk.injEq, true_and] at hcall
  obtain ⟨rfl, haad, rfl⟩ := hcall
  obtain ⟨hversion, hsequence⟩ := associatedData_inj haad
  have hsame : sealedPayload = payload := by
    rw [haad] at hpayload
    exact Option.some.inj (henc.symm.trans hpayload)
  cases tampered with
  | mk version sequence pubkey ciphertext =>
      cases sequence
      simp only at hversion hsequence hpubkey hsplit
      subst hversion hpubkey hsplit hsame
      simp only [SealedSecret.mk.injEq, and_true, true_and]
      exact congrArg SecretSequence.mk hsequence

/-- Sealing round-trips and binds its context. What `seal` returns unseals to the plaintext.
As long as its key is used once, nothing else with the same ephemeral public key unseals:
not under another version or sequence number, nor with any other ciphertext. And `unseal`
returns, whatever it is given. -/
theorem sealing_binds_context (crates : SealingCrates) (s : Sealing) (sealed : SealedSecret)
    (made : List Encryption) (hsymm : AgreementSymmetric crates)
    (hexact : DecryptsExactly crates made) (hmade : s.encryption crates ∈ made)
    (hseal : s.run crates = .ok sealed) :
    unsealSecret crates s.recipientPrivkey sealed = .ok (.ok s.plaintext) ∧
    (KeyUsedOnce crates s made → ∀ tampered : SealedSecret,
      tampered.ephemeralPubkey = sealed.ephemeralPubkey →
      tampered.sealedForSvidVersion ≠ sealed.sealedForSvidVersion ∨
        tampered.sequence ≠ sealed.sequence ∨ tampered.ciphertext ≠ sealed.ciphertext →
      unsealSecret crates s.recipientPrivkey tampered = .ok (.error .decryptionFailed)) ∧
    ∀ other, ∃ result, unsealSecret crates s.recipientPrivkey other = .ok result := by
  refine ⟨unsealSecret_of_run hsymm hexact hmade hseal, ?_,
    unsealSecret_returns crates s.recipientPrivkey⟩
  intro honce tampered hpubkey hchanged
  have hne : tampered ≠ sealed := by
    rintro rfl
    simp at hchanged
  rcases short_or_nonce tampered.ciphertext with hshort | ⟨nonce, payload, hsplit⟩
  · exact unsealSecret_of_short hshort
  · rw [unsealSecret_of_nonce hsplit]
    cases hopened : crates.decrypt (unsealingKey crates s.recipientPrivkey tampered) nonce
        (Bytes.u64le tampered.sealedForSvidVersion ++ Bytes.u64le tampered.sequence.value)
        payload with
    | none => rfl
    | some msg => exact absurd (eq_of_opened hsymm hexact honce hseal hpubkey hsplit hopened) hne

end

namespace Sample

/-- The octet `b` and then zeros. -/
def octets (n : Nat) (b : UInt8) : Octets n := List.Vector.ofFn fun i => if i.val = 0 then b else 0

def tag : Bytes := List.replicate 16 0x5A

/-- Agreement by multiplication, a tag of sixteen octets, and an AEAD that knows which
encryptions were made. -/
def crates (made : List Encryption) : SealingCrates where
  publicKey secret := secret
  diffieHellman secret pubkey := List.Vector.ofFn fun i => secret.get i * pubkey.get i
  deriveKey _ material := List.Vector.ofFn fun i => material.getD i 0
  encrypt _ _ _ msg := some (msg ++ tag)
  decrypt key nonce aad payload :=
    (made.find? fun e => e.key = key ∧ e.nonce = nonce ∧ e.aad = aad ∧ e.msg ++ tag = payload).map
      Encryption.msg

theorem agreementSymmetric (made : List Encryption) : AgreementSymmetric (crates made) := by
  intro a b
  exact congrArg List.Vector.ofFn (funext fun i => UInt8.mul_comm (a.get i) (b.get i))

theorem decryptsExactly (made : List Encryption) : DecryptsExactly (crates made) made := by
  intro key nonce aad payload msg
  simp only [crates, Option.map_eq_some_iff, Option.some.injEq]
  constructor
  · rintro ⟨e, hfind, rfl⟩
    have htest := List.find?_some hfind
    simp only [decide_eq_true_eq] at htest
    obtain ⟨rfl, rfl, rfl, rfl⟩ := htest
    exact ⟨List.mem_of_find?_eq_some hfind, rfl⟩
  · rintro ⟨hmem, rfl⟩
    cases hfind : made.find? fun e =>
        e.key = key ∧ e.nonce = nonce ∧ e.aad = aad ∧ e.msg ++ tag = msg ++ tag with
    | none =>
        have hnone := List.find?_eq_none.mp hfind _ hmem
        simp at hnone
    | some e =>
        have htest := List.find?_some hfind
        simp only [decide_eq_true_eq] at htest
        exact ⟨e, rfl, List.append_cancel_right htest.2.2.2⟩

def first : Sealing := ⟨octets 32 3, octets 32 5, octets 12 1, [0xCA, 0xFE], 7, ⟨1⟩⟩

/-- Another secret for the same recipient, under another ephemeral secret. -/
def second : Sealing := ⟨octets 32 3, octets 32 9, octets 12 2, [0xBE], 7, ⟨2⟩⟩

def made : List Encryption := [first, second].map (Sealing.encryption (crates []))

end Sample

/-- Two secrets sealed for one recipient. The first one unseals, and it does not under the
second one's sequence number or cut off inside the nonce. -/
theorem first_secret_bound :
    unsealSecret (Sample.crates Sample.made) Sample.first.recipientPrivkey
        ⟨7, ⟨1⟩, Sample.octets 32 5, (Sample.octets 12 1).toList ++ ([0xCA, 0xFE] ++ Sample.tag)⟩ =
      .ok (.ok [0xCA, 0xFE]) ∧
    unsealSecret (Sample.crates Sample.made) Sample.first.recipientPrivkey
        ⟨7, ⟨2⟩, Sample.octets 32 5, (Sample.octets 12 1).toList ++ ([0xCA, 0xFE] ++ Sample.tag)⟩ =
      .ok (.error .decryptionFailed) ∧
    unsealSecret (Sample.crates Sample.made) Sample.first.recipientPrivkey
        ⟨7, ⟨1⟩, Sample.octets 32 5, [0x01]⟩ = .ok (.error .decryptionFailed) := by
  have hkeys : ([Sample.first, Sample.second].map fun a =>
      (a.encryption (Sample.crates Sample.made)).key).Nodup := by decide
  have honce : KeyUsedOnce (Sample.crates Sample.made) Sample.first Sample.made :=
    keyUsedOnce_of_nodup hkeys List.mem_cons_self
  obtain ⟨hopens, hbound, -⟩ := sealing_binds_context (Sample.crates Sample.made) Sample.first
    ⟨7, ⟨1⟩, Sample.octets 32 5, (Sample.octets 12 1).toList ++ ([0xCA, 0xFE] ++ Sample.tag)⟩
    Sample.made (Sample.agreementSymmetric _) (Sample.decryptsExactly _) List.mem_cons_self rfl
  exact ⟨hopens, hbound honce _ rfl (.inr (.inl (by decide))),
    hbound honce _ rfl (.inr (.inr (by decide)))⟩

end Fleetos.Crypto
