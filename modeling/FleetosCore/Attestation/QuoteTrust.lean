import FleetosCore.Attestation.QuoteFormat

/-!
# What the quote checks establish together

A verifier runs the structural gate, the signature check and the PCR binding,
and then compares the submitted registers with its policy. This module states
what follows from all of them together about the one byte string the TPM signed.

The signature check passes `quoteBytes` to the crates and looks at nothing inside
it, the binding skips `extraData`, and the structural gate compares an unsigned
field. So nothing ties the expected nonce to the signed structure. Likewise the
policy reads the submitted list, of which the quote covers the selected registers
only.
-/

namespace Fleetos.Attestation

/-- All three device-free checks accept the quote for this server nonce. -/
def ChecksPass (sha : Sha2) (crates : SignatureCrates) (q : TpmQuote) (n : Bytes) : Prop :=
  verifyQuoteStructure q n = .ok () ∧ verifyQuoteSignature crates q = .ok () ∧
    verifyPcrBinding sha q.quoteBytes q.pcrSelection = .ok ()

/-- The `extraData` of the structure inside the signed bytes is `n`. -/
def SignedOver (q : TpmQuote) (n : Bytes) : Prop :=
  ∃ a : QuoteAttest, a.Opens q.quoteBytes ∧ a.extraData = n

theorem verifyQuoteStructure_ok_iff {q : TpmQuote} {n : Bytes} :
    verifyQuoteStructure q n = .ok () ↔
      q.nonce = n ∧ tpmGeneratedMagic.length ≤ q.quoteBytes.length ∧
        q.quoteBytes.take tpmGeneratedMagic.length = tpmGeneratedMagic ∧ q.signature ≠ [] := by
  simp only [verifyQuoteStructure]
  by_cases hn : q.nonce = n
  · by_cases hlen : q.quoteBytes.length < tpmGeneratedMagic.length
    · simp [hn, hlen]
    · by_cases hmagic : q.quoteBytes.take tpmGeneratedMagic.length = tpmGeneratedMagic
      · by_cases hsig : q.signature = []
        · simp [hn, hlen, hmagic, hsig]
        · simp [hn, hlen, hmagic, hsig, Nat.le_of_not_lt hlen]
      · simp [hn, hlen, hmagic]
  · simp [hn]

/-- Bytes that the TPM wrote have the magic number, so the other two checks decide. -/
theorem verifyQuoteStructure_of_opens {a : QuoteAttest} {q : TpmQuote} {n : Bytes}
    (h : a.Opens q.quoteBytes) :
    verifyQuoteStructure q n = .ok () ↔ q.nonce = n ∧ q.signature ≠ [] := by
  obtain ⟨rest, hbytes⟩ := h
  have hlength : tpmGeneratedMagic.length ≤ q.quoteBytes.length := by
    simp [hbytes, QuoteAttest.encode]
  have hmagic : q.quoteBytes.take tpmGeneratedMagic.length = tpmGeneratedMagic := by
    simp [hbytes, QuoteAttest.encode]
  rw [verifyQuoteStructure_ok_iff, and_iff_right hlength, and_iff_right hmagic]

/-- The crates accept the key and the signature of the message under it. -/
def AkPublic.Verifies (crates : SignatureCrates) (message sig : Bytes) : AkPublic → Prop
  | .rsa modulus exponent =>
      crates.rsaPublicKey (bigUintFromBytesBe modulus) exponent.toNat ∧
        crates.rsaVerify (bigUintFromBytesBe modulus) exponent.toNat message sig
  | .ecc x y =>
      ∃ vk, crates.fromSec1Bytes ([0x04] ++ x ++ y) = some vk ∧ crates.ecdsaVerify vk message sig

/-- The submitted key is an AK whose signature of the quote bytes verifies. -/
def AkSigned (crates : SignatureCrates) (q : TpmQuote) : Prop :=
  ∃ ak, parseAkPublic q.attestationKeyPub = .ok ak ∧ ak.Verifies crates q.quoteBytes q.signature

theorem verifyRsa_ok_iff {crates : SignatureCrates} {modulus quoteBytes sig : Bytes}
    {exponent : UInt32} :
    verifyRsa crates modulus exponent quoteBytes sig = .ok () ↔
      (AkPublic.rsa modulus exponent).Verifies crates quoteBytes sig := by
  simp only [verifyRsa, AkPublic.Verifies]
  cases crates.rsaPublicKey (bigUintFromBytesBe modulus) exponent.toNat with
  | false => simp
  | true => cases crates.rsaVerify _ _ quoteBytes sig <;> simp

theorem verifyEcdsaP256_ok_iff {crates : SignatureCrates} {x y quoteBytes sig : Bytes} :
    verifyEcdsaP256 crates x y quoteBytes sig = .ok () ↔
      (AkPublic.ecc x y).Verifies crates quoteBytes sig := by
  simp only [verifyEcdsaP256, AkPublic.Verifies]
  cases crates.fromSec1Bytes ([0x04] ++ x ++ y) with
  | none => simp
  | some vk => simp [Fallible.throw_if_ok_iff]

theorem verifyQuoteSignature_ok_iff {crates : SignatureCrates} {q : TpmQuote} :
    verifyQuoteSignature crates q = .ok () ↔ AkSigned crates q := by
  rw [verifyQuoteSignature, Fallible.bind_ok_iff]
  refine exists_congr fun ak => and_congr_right fun _ => ?_
  cases ak with
  | rsa modulus exponent => exact verifyRsa_ok_iff
  | ecc x y => exact verifyEcdsaP256_ok_iff

/-- An accepted quote is signed over the expected nonce exactly when the submitter's
own nonce field repeats the signed `extraData`: no check compares the two, so rejection
is the only other way for the implication to hold. -/
theorem checksPass_signedOver_iff (sha : Sha2) (crates : SignatureCrates) (q : TpmQuote)
    (n : Bytes) :
    (ChecksPass sha crates q n → SignedOver q n) ↔
      SignedOver q q.nonce ∨ q.nonce ≠ n ∨ q.signature = [] ∨ ¬ AkSigned crates q ∨
        ¬ PcrsBound sha q.quoteBytes q.pcrSelection := by
  rw [ChecksPass, verifyQuoteSignature_ok_iff, verifyPcrBinding_ok_iff]
  constructor
  · intro himp
    by_contra hnot
    push Not at hnot
    obtain ⟨hstale, hnonce, hsig, hverified, hbound⟩ := hnot
    have ⟨a, _, hopens, _⟩ := hbound
    have hstructure : verifyQuoteStructure q n = .ok () :=
      (verifyQuoteStructure_of_opens hopens).mpr ⟨hnonce, hsig⟩
    have hsigned := himp ⟨hstructure, hverified, hbound⟩
    exact hstale (hnonce ▸ hsigned)
  · rintro hcond ⟨hstructure, hverified, hbound⟩
    obtain ⟨hnonce, _, _, hsig⟩ := verifyQuoteStructure_ok_iff.mp hstructure
    rcases hcond with hsigned | hne | hempty | hrejected | hunbound
    · exact hnonce ▸ hsigned
    · exact absurd hnonce hne
    · exact absurd hempty hsig
    · exact absurd hverified hrejected
    · exact absurd hbound hunbound

/-! ## A captured quote -/

/-- PCR 0 of the sample node. -/
def samplePcr0 : PcrValue := ⟨0, tpmAlgSha256, List.replicate 32 0x01⟩

/-- SHA-256 of the thirty-two bytes of `samplePcr0`. -/
def sampleDigest : Bytes :=
  [0x72, 0xcd, 0x6e, 0x84, 0x22, 0xc4, 0x07, 0xfb, 0x6d, 0x09, 0x86, 0x90, 0xf1, 0x13, 0x0b, 0x7d,
    0xed, 0x7e, 0xc2, 0xf7, 0xf5, 0xe1, 0xd3, 0x0b, 0xd9, 0xd5, 0x21, 0xf0, 0x15, 0x36, 0x37, 0x93]

/-- A quote over PCR 0 for the nonce `0xAA…AA`. -/
def sampleAttest : QuoteAttest where
  qualifiedSigner := []
  extraData := List.replicate 32 0xAA
  clock := List.replicate 25 0
  hashAlg := tpmAlgSha256
  bitmap := [0x01, 0x00, 0x00]
  pcrDigest := sampleDigest
  qualifiedSigner_lt := by decide
  extraData_lt := by decide
  clock_length := by decide
  bitmap_pos := by decide
  bitmap_le := by decide
  pcrDigest_lt := by decide

/-- PCRs 0, 7 and 9 of the sample node. -/
def bootPcrs : List PcrValue :=
  [samplePcr0, ⟨7, tpmAlgSha256, List.replicate 32 0x08⟩, ⟨9, tpmAlgSha256, List.replicate 32 0x0A⟩]

/-- SHA-256 of the digests of `bootPcrs` in ascending order of index. -/
def bootDigest : Bytes :=
  [0x66, 0xfc, 0xc2, 0x56, 0x97, 0xd8, 0xc9, 0x48, 0x09, 0x0f, 0x26, 0x4b, 0x61, 0x5c, 0x45, 0xa8,
    0xde, 0x16, 0xb4, 0xe1, 0x09, 0xdb, 0x88, 0x71, 0xc0, 0x9d, 0x65, 0x81, 0x6f, 0x05, 0xe7, 0x4b]

/-- SHA-256 of the first two of them. -/
def bootDigest₂ : Bytes :=
  [0x9f, 0xdb, 0x87, 0x4a, 0x7b, 0x3b, 0x9a, 0x8e, 0xae, 0xa5, 0x08, 0xde, 0xb3, 0x38, 0x72, 0x1a,
    0xe7, 0xa8, 0x89, 0xb8, 0xc2, 0xa4, 0x9f, 0x40, 0xaa, 0x22, 0x74, 0x19, 0x50, 0x57, 0x11, 0x93]

/-- A quote over PCRs 0, 7 and 9 for the same nonce. -/
def bootAttest : QuoteAttest :=
  { sampleAttest with
    bitmap := [0x81, 0x02, 0x00]
    pcrDigest := bootDigest
    bitmap_pos := by decide
    bitmap_le := by decide
    pcrDigest_lt := by decide }

/-- Affine coordinates of the sample AK, a point of P-256. -/
def sampleAkX : Bytes :=
  [0x47, 0x1c, 0x3e, 0x75, 0x8c, 0x49, 0x04, 0x28, 0x5b, 0xba, 0x7e, 0x53, 0x11, 0x8e, 0xd0, 0xf5,
    0x24, 0xad, 0xeb, 0x07, 0x57, 0xd2, 0x5b, 0xd2, 0xf8, 0xe7, 0xb0, 0xd7, 0x6d, 0xfa, 0x71, 0x4c]

def sampleAkY : Bytes :=
  [0xdd, 0x52, 0x0f, 0x7a, 0xca, 0x8a, 0x8b, 0x91, 0x7a, 0xcc, 0x37, 0xf5, 0x1d, 0xe8, 0xf0, 0xc9,
    0xbb, 0xe3, 0xad, 0x85, 0x83, 0x82, 0xe7, 0x02, 0xdc, 0x25, 0xa1, 0x2d, 0x09, 0xf7, 0xa8, 0x58]

/-- The AK's ECDSA signature of `sampleAttest.encode`, `r` then `s`. -/
def sampleSignature : Bytes :=
  [0x4a, 0x55, 0x30, 0xb0, 0x43, 0x72, 0x6f, 0xbe, 0xeb, 0xd1, 0x3c, 0x58, 0xeb, 0xc5, 0x0d, 0xcc,
    0x94, 0x4f, 0xd6, 0x0e, 0x07, 0xb7, 0x14, 0xaa, 0xc9, 0xb5, 0x7e, 0xdd, 0xc6, 0x03, 0x7a, 0x88,
    0x47, 0x84, 0xbf, 0xa5, 0x24, 0x91, 0xce, 0xb8, 0x48, 0x06, 0xc6, 0x9c, 0xe8, 0xc1, 0x30, 0x4b,
    0x9a, 0x78, 0xc8, 0x31, 0xc4, 0xe8, 0x9e, 0xc7, 0xea, 0x1b, 0x69, 0xa4, 0x14, 0x3e, 0x1d, 0xbc]

/-- TPMT_PUBLIC of the sample AK: ECC, ECDSA with SHA-256, NIST P-256, no KDF. -/
def sampleAkPub : Bytes :=
  [0x00, 0x23, 0x00, 0x0B, 0x00, 0x05, 0x00, 0x72, 0x00, 0x00, 0x00, 0x10, 0x00, 0x18, 0x00, 0x0B,
    0x00, 0x03, 0x00, 0x10] ++ Bytes.sized16 sampleAkX ++ Bytes.sized16 sampleAkY

def sampleQuote : TpmQuote where
  quoteBytes := sampleAttest.encode
  signature := sampleSignature
  nonce := List.replicate 32 0xAA
  pcrSelection := [samplePcr0]
  attestationKeyPub := sampleAkPub

/-- SHA-256 of the sample AK's public area. -/
def akDigest : Bytes :=
  [0x03, 0xd4, 0x42, 0x6b, 0xaf, 0xaa, 0x19, 0x1b, 0x83, 0x4c, 0xb3, 0x4f, 0xfb, 0x57, 0x29, 0x14,
    0xb9, 0xc3, 0xef, 0x53, 0x0a, 0x7d, 0x42, 0x34, 0xc6, 0x1c, 0x6d, 0x3f, 0xfc, 0x57, 0x44, 0xf6]

/-- The inputs of SHA-256 that the samples need. -/
def knownDigests : List (Bytes × Bytes) :=
  [(samplePcr0.digest, sampleDigest), ((bootPcrs.map (·.digest)).flatten, bootDigest),
    (((bootPcrs.take 2).map (·.digest)).flatten, bootDigest₂), (sampleAkPub, akDigest)]

theorem knownDigests_length {known : Bytes × Bytes} (h : known ∈ knownDigests) :
    known.2.length = HashKind.sha256.size := by
  simp only [knownDigests, List.mem_cons, List.not_mem_nil, or_false] at h
  rcases h with rfl | rfl | rfl | rfl <;> rfl

/-- Agrees with SHA-256 on the inputs in the table. -/
def sampleSha2 : Sha2 where
  hashWith kind data :=
    match kind, knownDigests.find? fun known => known.1 = data with
    | .sha256, some known => known.2
    | _, _ => List.replicate kind.size 0
  hashWith_length kind data := by
    split
    · rename_i hfind
      exact knownDigests_length (List.mem_of_find?_eq_some hfind)
    · exact List.length_replicate

/-- Accepts the sample AK and its signature of the sample quote only. -/
def sampleCrates : SignatureCrates where
  rsaPublicKey _ _ := false
  rsaVerify _ _ _ _ := false
  fromSec1Bytes bytes :=
    if bytes = [0x04] ++ sampleAkX ++ sampleAkY then
      some (bigUintFromBytesBe sampleAkX, bigUintFromBytesBe sampleAkY)
    else none
  ecdsaVerify key message signature :=
    key = (bigUintFromBytesBe sampleAkX, bigUintFromBytesBe sampleAkY) &&
      message = sampleAttest.encode && signature = sampleSignature

/-- The sample quote resubmitted unchanged except for its unsigned nonce field,
to a server that now expects the nonce `0xBB…BB`. -/
def replayedQuote : TpmQuote := { sampleQuote with nonce := List.replicate 32 0xBB }

theorem replayedQuote_not_fresh :
    ¬∀ (sha : Sha2) (crates : SignatureCrates) (q : TpmQuote) (n : Bytes),
      ChecksPass sha crates q n → SignedOver q n := by
  intro claim
  have hpass : ChecksPass sampleSha2 sampleCrates replayedQuote (List.replicate 32 0xBB) := by
    refine ⟨by decide, by decide, by decide⟩
  obtain ⟨a, hopens, hextra⟩ := claim _ _ _ _ hpass
  have hsample : sampleAttest.Opens replayedQuote.quoteBytes := ⟨[], (List.append_nil _).symm⟩
  rw [QuoteAttest.opens_unique hopens hsample] at hextra
  exact absurd hextra (by decide)

/-! ## Policy registers and the quote's selection -/

/-- The quote's single PCR selection names the register's bank and index. -/
def QuoteAttest.Covers (a : QuoteAttest) (pv : PcrValue) : Prop :=
  a.hashAlg = pv.hashAlgorithm ∧ selects a.bitmap pv.index.toNat = true

instance (a : QuoteAttest) : DecidablePred a.Covers := fun pv =>
  inferInstanceAs
    (Decidable (a.hashAlg = pv.hashAlgorithm ∧ selects a.bitmap pv.index.toNat = true))

/-- Dropping entries the quote does not select changes no lookup of a selected one. -/
theorem findPcr_filter_covers {a : QuoteAttest} {submitted : List PcrValue} {idx : UInt8}
    (hsel : selects a.bitmap idx.toNat = true) :
    findPcr (submitted.filter (a.Covers ·)) idx a.hashAlg = findPcr submitted idx a.hashAlg := by
  simp only [findPcr, List.find?_filter]
  congr 1
  funext pv
  by_cases hmatch : (pv.index == idx && pv.hashAlgorithm == a.hashAlg) = true
  · obtain ⟨rfl, halg⟩ : pv.index = idx ∧ pv.hashAlgorithm = a.hashAlg := by simpa using hmatch
    simp [QuoteAttest.Covers, halg, hsel]
  · simp [hmatch]

/-- The binding reads the selected registers only. -/
theorem verifyPcrBinding_filter_covers {sha : Sha2} {quoteBytes : Bytes}
    {submitted : List PcrValue} {a : QuoteAttest} (hopens : a.Opens quoteBytes)
    (hbound : verifyPcrBinding sha quoteBytes submitted = .ok ()) :
    verifyPcrBinding sha quoteBytes (submitted.filter (a.Covers ·)) = .ok () := by
  obtain ⟨a', kind, hopens', hkind, hsubmits, hhash⟩ := verifyPcrBinding_ok_iff.mp hbound
  obtain rfl := QuoteAttest.opens_unique hopens hopens'
  have hsame : ∀ i ∈ selectedIndices a.bitmap,
      findPcr (submitted.filter (a.Covers ·)) i a.hashAlg = findPcr submitted i a.hashAlg :=
    fun i hi => findPcr_filter_covers ((mem_selectedIndices a.bitmap_le).mp hi)
  refine verifyPcrBinding_ok_iff.mpr ⟨a, kind, hopens, hkind, ?_, ?_⟩
  · intro i hi
    rw [Submits, hsame i hi]
    exact hsubmits i hi
  · rw [← hhash, boundBytes, boundBytes]
    congr 2
    refine List.map_congr_left fun i hi => ?_
    rw [submittedDigest, hsame i hi, submittedDigest]

/-- The digest of a selected register is one block of the hashed bytes, preceded
by those of the smaller selected indices and followed by those of the larger. -/
theorem boundBytes_split {a : QuoteAttest} (submitted : List PcrValue) {idx : UInt8}
    (hsel : selects a.bitmap idx.toNat = true) :
    ∃ before after, boundBytes a submitted =
      (before.map (submittedDigest submitted a.hashAlg)).flatten ++
        submittedDigest submitted a.hashAlg idx ++
        (after.map (submittedDigest submitted a.hashAlg)).flatten ∧
      selectedIndices a.bitmap = before ++ idx :: after := by
  obtain ⟨before, after, hsplit⟩ :=
    List.append_of_mem ((mem_selectedIndices a.bitmap_le).mpr hsel)
  exact ⟨before, after, by simp [boundBytes, hsplit], hsplit⟩

/-- What binding and policy establish together. Every mandated register that the
quote selects has its mandated digest among the bytes hashed into the signed
`pcrDigest`; entries the quote does not select play no part in the binding; and
when there are none, every mandated register is a selected one. -/
theorem policy_registers_bound {sha : Sha2} {quoteBytes : Bytes} {submitted : List PcrValue}
    {policy : PcrPolicy} (hbound : verifyPcrBinding sha quoteBytes submitted = .ok ())
    (hpolicy : verifyPcrPolicy submitted policy = .ok ()) :
    ∃ (a : QuoteAttest) (kind : HashKind), a.Opens quoteBytes ∧
      hashKindOf a.hashAlg = some kind ∧
      sha.hashWith kind (boundBytes a submitted) = a.pcrDigest ∧
      (∀ expected ∈ policy.expectedPcrs, a.Covers expected →
        ∃ before after, selectedIndices a.bitmap = before ++ expected.index :: after ∧
          boundBytes a submitted =
            (before.map (submittedDigest submitted a.hashAlg)).flatten ++ expected.digest ++
              (after.map (submittedDigest submitted a.hashAlg)).flatten) ∧
      verifyPcrBinding sha quoteBytes (submitted.filter (a.Covers ·)) = .ok () ∧
      ((∀ pv ∈ submitted, a.Covers pv) → ∀ expected ∈ policy.expectedPcrs, a.Covers expected) := by
  obtain ⟨a, kind, hopens, hkind, _, hhash⟩ := verifyPcrBinding_ok_iff.mp hbound
  have hfound := verifyPcrPolicy_ok_iff.mp hpolicy
  refine ⟨a, kind, hopens, hkind, hhash, ?_, verifyPcrBinding_filter_covers hopens hbound, ?_⟩
  · rintro expected hmem ⟨halg, hsel⟩
    obtain ⟨found, hfind, hdigest⟩ := hfound expected hmem
    have hblock : submittedDigest submitted a.hashAlg expected.index = expected.digest := by
      rw [submittedDigest, halg, hfind]
      exact hdigest
    obtain ⟨before, after, hbytes, hsplit⟩ := boundBytes_split submitted hsel
    exact ⟨before, after, hsplit, by rw [hbytes, hblock]⟩
  · intro hall expected hmem
    obtain ⟨found, hfind, _⟩ := hfound expected hmem
    obtain ⟨hin, hidx, halg⟩ := findPcr_some hfind
    obtain ⟨hcover, hsel⟩ := hall found hin
    exact ⟨hcover.trans halg, hidx ▸ hsel⟩

/-- A register neither sample quote selects, with a value of the submitter's choice. -/
def unquotedPcr12 : PcrValue := ⟨12, tpmAlgSha256, List.replicate 32 0x09⟩

/-- The quote selects PCRs 0, 7 and 9; they are submitted out of order, after a
PCR 12 it does not select, to a policy that mandates PCRs 7 and 12. -/
theorem bootAttest_policy_bound :
    ∃ (a : QuoteAttest) (kind : HashKind), a.Opens bootAttest.encode ∧
      hashKindOf a.hashAlg = some kind ∧
      sampleSha2.hashWith kind (boundBytes a (unquotedPcr12 :: bootPcrs.reverse)) = a.pcrDigest ∧
      (∀ expected ∈ [⟨7, tpmAlgSha256, List.replicate 32 0x08⟩, unquotedPcr12], a.Covers expected →
        ∃ before after, selectedIndices a.bitmap = before ++ expected.index :: after ∧
          boundBytes a (unquotedPcr12 :: bootPcrs.reverse) =
            (before.map
              (submittedDigest (unquotedPcr12 :: bootPcrs.reverse) a.hashAlg)).flatten ++
                expected.digest ++
                (after.map
                  (submittedDigest (unquotedPcr12 :: bootPcrs.reverse) a.hashAlg)).flatten) ∧
      verifyPcrBinding sampleSha2 bootAttest.encode
        ((unquotedPcr12 :: bootPcrs.reverse).filter (a.Covers ·)) = .ok () ∧
      ((∀ pv ∈ unquotedPcr12 :: bootPcrs.reverse, a.Covers pv) →
        ∀ expected ∈ [⟨7, tpmAlgSha256, List.replicate 32 0x08⟩, unquotedPcr12],
          a.Covers expected) :=
  @policy_registers_bound sampleSha2 bootAttest.encode (unquotedPcr12 :: bootPcrs.reverse)
    ⟨[⟨7, tpmAlgSha256, List.replicate 32 0x08⟩, unquotedPcr12]⟩ (by decide) (by decide)

/-- The quote selects PCR 0 only. A submitted PCR 12 passes the binding, where it
is ignored, and then satisfies a policy that mandates it. -/
theorem unquoted_register_satisfies_policy :
    ¬∀ (sha : Sha2) (quoteBytes : Bytes) (submitted : List PcrValue) (policy : PcrPolicy),
      verifyPcrBinding sha quoteBytes submitted = .ok () →
      verifyPcrPolicy submitted policy = .ok () →
      ∀ expected ∈ policy.expectedPcrs,
        ∃ a : QuoteAttest, a.Opens quoteBytes ∧ a.Covers expected := by
  intro claim
  obtain ⟨a, hopens, hcovers⟩ := claim sampleSha2 sampleAttest.encode
    [samplePcr0, unquotedPcr12] ⟨[unquotedPcr12]⟩ (by decide) (by decide)
    unquotedPcr12 (List.mem_singleton_self _)
  have hsample : sampleAttest.Opens sampleAttest.encode := ⟨[], (List.append_nil _).symm⟩
  rw [QuoteAttest.opens_unique hopens hsample] at hcovers
  exact absurd hcovers (by decide)

end Fleetos.Attestation
