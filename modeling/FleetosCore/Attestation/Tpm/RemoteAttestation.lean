import FleetosCore.Attestation.AkPublic
import FleetosCore.Attestation.QuoteTrust
import FleetosCore.Attestation.Tpm.Enrolment

/-!
# Remote attestation of an honest node

The server sends a nonce and a list of registers, the node answers with a quote by the
manager, and the server runs its four checks on the answer. Here both ends are put
together, with the manager in any state it can be in. What the server then decides is
exactly whether its policy holds of the registers of the node.

The TPM's promises about the AK are those of its template: an ECC key on P-256 whose
ECDSA signatures verify. That a signature is padded to the 64 octets which the verifier
takes, that the marshalled area is parsed back to the point, and that the attestation is
read back by the binding check is up to the program.
-/

namespace Fleetos.Tpm

open Attestation (PcrValue PcrPolicy SignatureCrates TpmtPublic AkPublic TpmQuote ChecksPass
  SignedOver findPcr verifyPcrPolicy)
open Der (beNat)
open Effect (answer)

/-! ## The attestation key -/

/-- What the TPM and the signature crates promise about an AK with these coordinates. -/
structure AkLaws (dev : Device) (crates : SignatureCrates) (x y : Bytes) : Prop where
  area : ∃ p : TpmtPublic, dev.marshall (dev.primary .endorsement .ak) = p.marshal ∧
    ∃ scheme curve kdf hx hy, p.fields = .ecc scheme curve kdf x y hx hy
  signs : ∀ message, ∃ r s, dev.sign (dev.primary .endorsement .ak) message = .ecDsa r s ∧
    r.length ≤ 32 ∧ s.length ≤ 32
  /-- A point of full width is accepted, and so is a signature of fixed width with the two
  numbers of the TPM's. -/
  verifies : x.length = 32 → y.length = 32 →
    ∃ vk, crates.fromSec1Bytes ([0x04] ++ x ++ y) = some vk ∧
      ∀ message r s sig, dev.sign (dev.primary .endorsement .ak) message = .ecDsa r s →
        sig.length = 64 → beNat (sig.take 32) = beNat r → beNat (sig.drop 32) = beNat s →
          crates.ecdsaVerify vk message sig = true

theorem pad32_length {v : Bytes} (h : v.length ≤ 32) : (pad32 v).length = 32 := by
  rw [pad32, List.length_append, List.length_replicate]
  omega

theorem beNat_pad32 (v : Bytes) : beNat (pad32 v) = beNat v :=
  Der.beNat_replicate_zero_append _ _

section

variable {dev : Device} {crates : SignatureCrates} {x y : Bytes} {env : Env} {serverNonce : Bytes}
  {pcrIndices : List UInt8}

theorem AkLaws.parsed (laws : AkLaws dev crates x y) :
    Attestation.parseAkPublic (dev.marshall (dev.primary .endorsement .ak)) = .ok (.ecc x y) := by
  obtain ⟨p, hp, scheme, curve, kdf, hx, hy, hfields⟩ := laws.area
  have hsigning : p.Signing := by
    rw [TpmtPublic.Signing, hfields]
    trivial
  obtain ⟨area, -, hbytes, hmaterial⟩ :=
    Attestation.PublicArea.exists_recoded (fun _ => Attestation.RsaScheme.exists_walked) p hsigning
  refine Attestation.parseAkPublic_ok_iff.mpr ⟨area, [], ?_, ?_⟩
  · rw [hp, List.append_nil, hbytes]
    rfl
  · rw [hmaterial, hfields]
    rfl

/-- The padded signature of a message verifies under the parsed area. -/
theorem AkLaws.accepted (laws : AkLaws dev crates x y) (hx : x.length = 32) (hy : y.length = 32)
    {message r s : Bytes} (hr : r.length ≤ 32) (hs : s.length ≤ 32)
    (hsign : dev.sign (dev.primary .endorsement .ak) message = .ecDsa r s) :
    (AkPublic.ecc x y).Verifies crates message (pad32 r ++ pad32 s) := by
  obtain ⟨vk, hvk, hverify⟩ := laws.verifies hx hy
  refine ⟨vk, hvk, hverify message r s _ hsign ?_ ?_ ?_⟩
  · rw [List.length_append, pad32_length hr, pad32_length hs]
  · rw [List.take_left' (pad32_length hr), beNat_pad32]
  · rw [List.drop_left' (pad32_length hr), beNat_pad32]

/-! ## The registers -/

/-- The policy is compared with the registers themselves. -/
theorem PairsCorrectly.verifyPcrPolicy_ok_iff {pcrBank : UInt8 → Bytes}
    (h : PairsCorrectly pcrBank pcrIndices) (hrange : ∀ i ∈ pcrIndices, i.toNat ≤ 23)
    (policy : PcrPolicy) :
    verifyPcrPolicy (submittedPcrs pcrBank pcrIndices) policy = .ok () ↔
      ∀ expected ∈ policy.expectedPcrs, expected.index ∈ pcrIndices ∧
        expected.hashAlgorithm = 0x000B ∧ expected.digest = pcrBank expected.index := by
  rw [Attestation.verifyPcrPolicy_ok_iff]
  refine forall₂_congr fun expected _ => ?_
  constructor
  · rintro ⟨found, hfound, hdigest⟩
    obtain ⟨hmem, hindex, halg⟩ := Attestation.findPcr_some hfound
    obtain ⟨p, hp, rfl⟩ := mem_submittedPcrs_iff.mp hmem
    have hi : expected.index ∈ pcrIndices := hindex ▸ (List.of_mem_zip hp).1
    rw [← halg, h.findPcr_eq hrange hi] at hfound
    have hbank := congrArg PcrValue.digest (Option.some.inj hfound)
    exact ⟨hi, halg.symm, (hbank.trans hdigest).symm⟩
  · rintro ⟨hi, halg, hdigest⟩
    exact ⟨_, halg ▸ h.findPcr_eq hrange hi, hdigest.symm⟩

/-! ## The manager's reply -/

/-- When the session's quote is returned. -/
structure Answers (env : Env) (session : ManagedAttestationSession) (serverNonce : Bytes)
    (pcrIndices : List UInt8) : Prop where
  loads : (session.key .ak).IsSaved → env.faults (.contextLoad .ak) = none
  passes : QuotePasses env
  inRange : ∀ i ∈ pcrIndices, i.toNat ≤ 23
  nonce : serverNonce.length ≤ maxDataSize

theorem quote_ok_iff {s : Context × ManagedAttestationSession}
    (htruthful : Truthful dev (s.1.objects.entries, s.2)) {a b : Bytes}
    (hsign : ∀ hq, dev.sign (dev.primary .endorsement .ak) (attestation dev env
      (dev.primary .endorsement .ak) serverNonce hq pcrIndices).encode = .ecDsa a b)
    (hasResourceManager : Bool) (out : QuoteOutput) :
    answer (TpmContextManager.quote dev env hasResourceManager serverNonce pcrIndices s) =
        .ok out ↔
      ∃ h : Answers env s.2 serverNonce pcrIndices,
        out = ⟨(attestation dev env (dev.primary .endorsement .ak) serverNonce h.nonce
          pcrIndices).encode, pad32 a ++ pad32 b, submittedPcrs env.pcrBank pcrIndices⟩ := by
  have hstates : InStates dev s.2.key s := ⟨htruthful, rfl⟩
  by_cases hq : serverNonce.length ≤ maxDataSize
  · rw [(decides_quote hq (hsign hq)).answer_ok_iff hstates]
    exact ⟨fun h => ⟨⟨h.1.1, h.1.2.1, h.1.2.2, hq⟩, h.2⟩,
      fun ⟨h, hout⟩ => ⟨⟨h.loads, h.passes, h.inRange⟩, hout⟩⟩
  · refine iff_of_false (fun hok => ?_) fun ⟨h, _⟩ => hq h.nonce
    cases hrun : TpmContextManager.quote dev env hasResourceManager serverNonce pcrIndices s with
    | error e s' =>
        rw [hrun] at hok
        cases hok
    | ok out' s' =>
        obtain ⟨-, ⟨_, hshort, -⟩, -⟩ := quote_ok hrun
        exact hq hshort

theorem Sound.reply_quote_iff {m : Managed} {place : Nat} {session : ManagedAttestationSession}
    (h : Sound dev m) (hopen : m.sessions[place]? = some session) (laws : AkLaws dev crates x y)
    (env : Env) (hasResourceManager : Bool) (serverNonce : Bytes) (pcrIndices : List UInt8) :
    ∃ r s : Bytes, r.length ≤ 32 ∧ s.length ≤ 32 ∧
      (∀ hq, dev.sign (dev.primary .endorsement .ak) (attestation dev env
        (dev.primary .endorsement .ak) serverNonce hq pcrIndices).encode = .ecDsa r s) ∧
      ∀ out, m.reply dev hasResourceManager env (.ask place (.quote serverNonce pcrIndices)) =
          some (.ok (.quoted out)) ↔
        ∃ h : Answers env session serverNonce pcrIndices,
          out = ⟨(attestation dev env (dev.primary .endorsement .ak) serverNonce h.nonce
            pcrIndices).encode, pad32 r ++ pad32 s, submittedPcrs env.pcrBank pcrIndices⟩ := by
  have hsigns : ∃ r s : Bytes, r.length ≤ 32 ∧ s.length ≤ 32 ∧
      ∀ hq, dev.sign (dev.primary .endorsement .ak) (attestation dev env
        (dev.primary .endorsement .ak) serverNonce hq pcrIndices).encode = .ecDsa r s := by
    by_cases hq : serverNonce.length ≤ maxDataSize
    · obtain ⟨r, s, hsign, hr, hs⟩ := laws.signs (attestation dev env
        (dev.primary .endorsement .ak) serverNonce hq pcrIndices).encode
      exact ⟨r, s, hr, hs, fun _ => hsign⟩
    · exact ⟨[], [], by decide, by decide, fun h => absurd h hq⟩
  obtain ⟨r, s, hr, hs, hsign⟩ := hsigns
  refine ⟨r, s, hr, hs, hsign, fun out => ?_⟩
  have hquote := quote_ok_iff (s := (m.context, session))
    (h.truthful session (List.mem_of_getElem? hopen)) hsign hasResourceManager out
  have hask : m.reply dev hasResourceManager env (.ask place (.quote serverNonce pcrIndices)) =
      some ((answer (TpmContextManager.quote dev env hasResourceManager serverNonce pcrIndices
        (m.context, session))).map .quoted) := by
    rw [Managed.reply, hopen]
    rfl
  rw [hask, ← hquote, Option.some.injEq]
  refine Fallible.map_ok_iff.trans ⟨?_, fun hok => ⟨out, hok, rfl⟩⟩
  rintro ⟨out', hok, hout⟩
  rw [Answer.quoted.inj hout]
  exact hok

end

/-- The answer of an honest node to a challenge, with any open session of any run. It is
returned exactly when the AK loads, no place fails, the registers exist and the nonce has at
most 64 octets. It is then signed over the nonce and passes structure and signature checks.
Where the requested registers pair with the digests, the binding holds too, and a policy is
met exactly if it asks for requested registers of the SHA-256 bank and their contents. -/
theorem attestation_verdict (dev : Device) (crates : SignatureCrates) (x y : Bytes)
    (laws : AkLaws dev crates x y) (hx : x.length = 32) (hy : y.length = 32)
    (hasResourceManager : Bool) (turns : List Turn) (place : Nat)
    (session : ManagedAttestationSession)
    (hopen : (Managed.new.run dev hasResourceManager turns).sessions[place]? = some session)
    (env : Env) (serverNonce : Bytes) (pcrIndices : List UInt8) :
    let reply := (Managed.new.run dev hasResourceManager turns).reply dev hasResourceManager env
      (.ask place (.quote serverNonce pcrIndices))
    ((∃ out, reply = some (.ok (.quoted out))) ↔ Answers env session serverNonce pcrIndices) ∧
    ∀ out, reply = some (.ok (.quoted out)) →
      let q : TpmQuote := ⟨out.quote, out.signature, serverNonce, out.pcrValues, session.akPub⟩
      SignedOver q serverNonce ∧ Attestation.verifyQuoteStructure q serverNonce = .ok () ∧
      Attestation.verifyQuoteSignature crates q = .ok () ∧
      (PairsCorrectly env.pcrBank pcrIndices → ChecksPass dev.sha crates q serverNonce ∧
        ∀ policy, verifyPcrPolicy q.pcrSelection policy = .ok () ↔
          ∀ expected ∈ policy.expectedPcrs, expected.index ∈ pcrIndices ∧
            expected.hashAlgorithm = 0x000B ∧ expected.digest = env.pcrBank expected.index) := by
  have hsound := Sound.run dev hasResourceManager turns
  have hak := (hsound.publishes session (List.mem_of_getElem? hopen)).ak
  intro reply
  obtain ⟨r, s, hr, hs, hsign, hreply⟩ :=
    hsound.reply_quote_iff hopen laws env hasResourceManager serverNonce pcrIndices
  refine ⟨⟨fun ⟨out, hout⟩ => ((hreply out).mp hout).1, fun h => ⟨_, (hreply _).mpr ⟨h, rfl⟩⟩⟩, ?_⟩
  intro out hout q
  obtain ⟨h, rfl⟩ := (hreply out).mp hout
  have hopens : (attestation dev env (dev.primary .endorsement .ak) serverNonce h.nonce
      pcrIndices).Opens q.quoteBytes := ⟨[], (List.append_nil _).symm⟩
  have hstructure : Attestation.verifyQuoteStructure q serverNonce = .ok () := by
    refine (Attestation.verifyQuoteStructure_of_opens hopens).mpr ⟨rfl, fun hempty => ?_⟩
    have hlength := congrArg List.length hempty
    rw [List.length_append, pad32_length hr] at hlength
    simp at hlength
  have hsignature : Attestation.verifyQuoteSignature crates q = .ok () := by
    refine Attestation.verifyQuoteSignature_ok_iff.mpr ⟨.ecc x y, ?_, ?_⟩
    · exact (congrArg Attestation.parseAkPublic hak).trans laws.parsed
    · exact laws.accepted hx hy hr hs (hsign h.nonce)
  refine ⟨⟨_, hopens, rfl⟩, hstructure, hsignature, fun hpairs => ?_⟩
  have hbinding : Attestation.verifyPcrBinding dev.sha q.quoteBytes q.pcrSelection = .ok () :=
    verifyPcrBinding_of_pairsCorrectly h.inRange hpairs _ h.nonce
  exact ⟨⟨hstructure, hsignature, hbinding⟩, hpairs.verifyPcrPolicy_ok_iff h.inRange⟩

namespace Sample

theorem ecdsa_hashed : Attestation.tpmAlgEcdsa ≠ Attestation.tpmAlgNull ∧
    Attestation.tpmAlgEcdsa ≠ Attestation.tpmAlgEcdaa := by decide

theorem sampleAkX_lt : Attestation.sampleAkX.length < 2 ^ 16 := by decide

theorem sampleAkY_lt : Attestation.sampleAkY.length < 2 ^ 16 := by decide

/-- The sample AK: ECDSA with SHA-256 on P-256. -/
def akArea : TpmtPublic :=
  ⟨Attestation.tpmAlgSha256, 0x00050072, [],
    .ecc (.hash Attestation.tpmAlgEcdsa Attestation.tpmAlgSha256 ecdsa_hashed) 0x0003 .null
      Attestation.sampleAkX Attestation.sampleAkY sampleAkX_lt sampleAkY_lt,
    Attestation.emptyPolicy_lt⟩

/-- Accepts the sample AK and the signature that the sample device makes. -/
def crates : SignatureCrates where
  rsaPublicKey _ _ := false
  rsaVerify _ _ _ _ := false
  fromSec1Bytes bytes :=
    if bytes = [0x04] ++ Attestation.sampleAkX ++ Attestation.sampleAkY then
      some (beNat Attestation.sampleAkX, beNat Attestation.sampleAkY)
    else none
  ecdsaVerify _ _ signature :=
    signature.length = 64 && beNat (signature.take 32) = beNat (List.replicate 32 0x01) &&
      beNat (signature.drop 32) = beNat (List.replicate 32 0x01)

theorem akLaws : AkLaws device crates Attestation.sampleAkX Attestation.sampleAkY where
  area := ⟨akArea, by decide, _, _, _, _, _, rfl⟩
  signs _ := ⟨_, _, rfl, by decide, by decide⟩
  verifies _ _ := by
    have hpoint : crates.fromSec1Bytes ([0x04] ++ Attestation.sampleAkX ++ Attestation.sampleAkY) =
        some (beNat Attestation.sampleAkX, beNat Attestation.sampleAkY) := by
      simp [crates]
    refine ⟨_, hpoint, fun message r s sig hsign hlength hr hs => ?_⟩
    obtain ⟨rfl, rfl⟩ := Signature.ecDsa.inj hsign
    simp [crates, hlength, hr, hs]

/-- Register 7 holds what the sample environment says. -/
def policy : PcrPolicy := ⟨[⟨7, 0x000B, List.replicate 32 0x08⟩]⟩

end Sample

/-- The session of the failed save answers a challenge for registers 0 and 7, and the
server's policy for register 7 is met. -/
theorem attestation_verdict_after_failed_save :
    ∃ session, (Managed.new.run Sample.device false Sample.turns).sessions[0]? = some session ∧
      ∃ out, (Managed.new.run Sample.device false Sample.turns).reply Sample.device false
          Sample.env (.ask 0 (.quote (List.replicate 32 0xAA) [0, 7])) =
          some (.ok (.quoted out)) ∧
        ChecksPass Sample.device.sha Sample.crates ⟨out.quote, out.signature,
          List.replicate 32 0xAA, out.pcrValues, session.akPub⟩ (List.replicate 32 0xAA) ∧
        verifyPcrPolicy out.pcrValues Sample.policy = .ok () := by
  have hopen : ∃ session, (Managed.new.run Sample.device false Sample.turns).sessions[0]? =
      some session := ⟨_, rfl⟩
  obtain ⟨session, hopen⟩ := hopen
  obtain ⟨hreturns, hverdict⟩ := attestation_verdict Sample.device Sample.crates
    Attestation.sampleAkX Attestation.sampleAkY Sample.akLaws rfl rfl false Sample.turns 0 session
    hopen Sample.env (List.replicate 32 0xAA) [0, 7]
  have hascending : ascending [0, 7] = [0, 7] := by decide
  have hpairs : PairsCorrectly Sample.env.pcrBank [0, 7] := by
    refine ⟨by rw [hascending]; decide, by rw [hascending]; decide, ?_⟩
    rw [hascending]
    simp
  obtain ⟨out, hout⟩ := hreturns.mpr ⟨fun _ => rfl, ⟨⟨rfl, rfl, rfl⟩, rfl, rfl, rfl⟩,
    by simp, by decide⟩
  obtain ⟨-, -, -, haccepted⟩ := hverdict out hout
  obtain ⟨hchecks, hpolicy⟩ := haccepted hpairs
  refine ⟨session, hopen, out, hout, hchecks, (hpolicy Sample.policy).mpr ?_⟩
  intro expected hexpected
  rw [List.mem_singleton.mp hexpected]
  exact ⟨by decide, rfl, rfl⟩

end Fleetos.Tpm
