import FleetosCore.Attestation.Reader

/-!
# Quote verification

The three device-free checks of `src/attestation/quote.rs`: the structural gate,
the software signature check and the binding of submitted PCR values to the
signed quote. Each is translated on its own; no function of the repository
composes them, and none of them calls another.

The `rsa`, `p256` and `sha2` crates are parameters. A signature check sees the
key material, the signed bytes and the signature only; a hash is an arbitrary
function whose output has the width of its algorithm.
-/

namespace Fleetos.Attestation

/-- A TPM quote submitted by a node for attestation. Every field is supplied by
the submitter; only `quoteBytes` is covered by `signature`. -/
structure TpmQuote where
  quoteBytes : Bytes
  signature : Bytes
  nonce : Bytes
  pcrSelection : List PcrValue
  attestationKeyPub : Bytes
  deriving DecidableEq, Repr

/-- TPM_GENERATED_VALUE: 0xff 'T' 'C' 'G'. -/
def tpmGeneratedMagic : Bytes := [0xff, 0x54, 0x43, 0x47]

def verifyQuoteStructure (quote : TpmQuote) (expectedNonce : Bytes) :
    Except AttestError Unit := do
  if quote.nonce ≠ expectedNonce then throw .verificationFailed
  if quote.quoteBytes.length < tpmGeneratedMagic.length then throw .verificationFailed
  if quote.quoteBytes.take tpmGeneratedMagic.length ≠ tpmGeneratedMagic then
    throw .verificationFailed
  if quote.signature.isEmpty then throw .verificationFailed
  return ()

/-! ## The attestation key -/

def tpmAlgRsa : UInt16 := 0x0001
def tpmAlgEcc : UInt16 := 0x0023
def tpmAlgNull : UInt16 := 0x0010
def tpmAlgOaep : UInt16 := 0x0017
def tpmAlgEcdaa : UInt16 := 0x001A

/-- Parsed AK public key (signing material only). -/
inductive AkPublic where
  | rsa (modulus : Bytes) (exponent : UInt32)
  | ecc (x y : Bytes)
  deriving DecidableEq, Repr

/-- Read a TPMT_SYMMETRIC and require TPM_ALG_NULL. -/
def expectNullSymmetric : Reader Unit := do
  let alg ← Reader.u16
  Reader.require (alg = tpmAlgNull)

/-- The RSA branch of the TPMT_PUBLIC walk, after `authPolicy`. -/
def parseRsaParameters : Reader AkPublic := do
  expectNullSymmetric
  let scheme ← Reader.u16
  if scheme ≠ tpmAlgNull then
    let _schemeHash ← Reader.u16
    if scheme = tpmAlgOaep then
      let labelLen ← Reader.u16
      Reader.skip labelLen.toNat
  let _keyBits ← Reader.u16
  let exponentRaw ← Reader.u32
  let exponent := if exponentRaw = 0 then 65537 else exponentRaw
  let modLen ← Reader.u16
  let modulus ← Reader.take modLen.toNat
  return .rsa modulus exponent

/-- The ECC branch of the TPMT_PUBLIC walk, after `authPolicy`. -/
def parseEccParameters : Reader AkPublic := do
  expectNullSymmetric
  let scheme ← Reader.u16
  if scheme ≠ tpmAlgNull then
    let _schemeHash ← Reader.u16
    if scheme = tpmAlgEcdaa then
      let _ecdaaCount ← Reader.u16
  let _curveId ← Reader.u16
  let kdf ← Reader.u16
  if kdf ≠ tpmAlgNull then
    let _kdfHash ← Reader.u16
  let xLen ← Reader.u16
  let x ← Reader.take xLen.toNat
  let yLen ← Reader.u16
  let y ← Reader.take yLen.toNat
  return .ecc x y

/-- The walk of `parse_ak_public`; the bytes it leaves over are not inspected. -/
def akPublicWalk : Reader AkPublic := do
  let typ ← Reader.u16
  let _nameAlg ← Reader.u16
  let _objAttrs ← Reader.u32
  let apLen ← Reader.u16
  Reader.skip apLen.toNat
  if typ = tpmAlgRsa then
    parseRsaParameters
  else if typ = tpmAlgEcc then
    parseEccParameters
  else
    throw .verificationFailed

def parseAkPublic (bytes : Bytes) : Except AttestError AkPublic := do
  let (ak, _) ← akPublicWalk bytes
  return ak

/-- The unsigned integer denoted by big-endian bytes. -/
def bigUintFromBytesBe (bytes : Bytes) : Nat :=
  bytes.foldl (fun n b => n * 256 + b.toNat) 0

/-- What the `rsa` and `p256` crates decide. A P-256 key is its affine point. -/
structure SignatureCrates where
  /-- `RsaPublicKey::new` accepts the modulus and exponent. -/
  rsaPublicKey : Nat → Nat → Bool
  /-- The signature parses and is a PKCS#1 v1.5 SHA-256 signature of the message. -/
  rsaVerify : Nat → Nat → Bytes → Bytes → Bool
  /-- `VerifyingKey::from_sec1_bytes`. -/
  fromSec1Bytes : Bytes → Option (Nat × Nat)
  /-- The signature parses and is an ECDSA SHA-256 signature of the message. -/
  ecdsaVerify : Nat × Nat → Bytes → Bytes → Bool

def verifyRsa (crates : SignatureCrates) (modulus : Bytes) (exponent : UInt32)
    (quoteBytes sig : Bytes) : Except AttestError Unit := do
  let n := bigUintFromBytesBe modulus
  let e := exponent.toNat
  if !crates.rsaPublicKey n e then throw .verificationFailed
  if !crates.rsaVerify n e quoteBytes sig then throw .verificationFailed
  return ()

def verifyEcdsaP256 (crates : SignatureCrates) (x y quoteBytes sig : Bytes) :
    Except AttestError Unit := do
  let sec1Bytes := [0x04] ++ x ++ y
  match crates.fromSec1Bytes sec1Bytes with
  | none => throw .verificationFailed
  | some vk => if !crates.ecdsaVerify vk quoteBytes sig then throw .verificationFailed

def verifyQuoteSignature (crates : SignatureCrates) (quote : TpmQuote) :
    Except AttestError Unit := do
  match ← parseAkPublic quote.attestationKeyPub with
  | .rsa modulus exponent =>
      verifyRsa crates modulus exponent quote.quoteBytes quote.signature
  | .ecc x y => verifyEcdsaP256 crates x y quote.quoteBytes quote.signature

/-! ## PCR binding -/

def tpmStAttestQuote : UInt16 := 0x8018
def tpmAlgSha256 : UInt16 := 0x000B
def tpmAlgSha384 : UInt16 := 0x000C
def tpmAlgSha512 : UInt16 := 0x000D

inductive HashKind where
  | sha256
  | sha384
  | sha512
  deriving DecidableEq, Repr

/-- Digest size in bytes of each supported bank. -/
def HashKind.size : HashKind → Nat
  | .sha256 => 32
  | .sha384 => 48
  | .sha512 => 64

/-- The `sha2` crate: arbitrary functions of the right output width. -/
structure Sha2 where
  hashWith : HashKind → Bytes → Bytes
  hashWith_length : ∀ kind data, (hashWith kind data).length = kind.size

/-- SHA-1, SM3 and unknown selectors are not supported. -/
def hashKindOf (hashAlg : UInt16) : Option HashKind :=
  if hashAlg = tpmAlgSha256 then some .sha256
  else if hashAlg = tpmAlgSha384 then some .sha384
  else if hashAlg = tpmAlgSha512 then some .sha512
  else none

/-- Bit `bit` of one bitmap byte, least significant first. -/
def bitSet (bitmapByte : UInt8) (bit : Nat) : Bool :=
  bitmapByte &&& (1 <<< UInt8.ofNat bit) != 0

/-- Selected PCR indices, byte-major and least significant bit first. -/
def selectedIndices (selectBitmap : Bytes) : List UInt8 :=
  selectBitmap.zipIdx.flatMap fun (bitmapByte, byteI) =>
    (List.range 8).filterMap fun bit =>
      if bitSet bitmapByte bit then some (UInt8.ofNat (byteI * 8 + bit)) else none

/-- The walk up to `attested`: magic and type are checked, `qualifiedSigner`,
`extraData`, `clockInfo` and `firmwareVersion` are skipped. -/
def attestHeader : Reader Unit := do
  let magic ← Reader.take 4
  Reader.require (magic = tpmGeneratedMagic)
  let typ ← Reader.u16
  Reader.require (typ = tpmStAttestQuote)
  let qsLen ← Reader.u16
  Reader.skip qsLen.toNat
  let edLen ← Reader.u16
  Reader.skip edLen.toNat
  Reader.skip 17
  Reader.skip 8

/-- TPML_PCR_SELECTION with exactly one bank: its `hashAlg` and select bitmap. -/
def attestSelection : Reader (UInt16 × Bytes) := do
  let count ← Reader.u32
  Reader.require (count = 1)
  let hashAlg ← Reader.u16
  let sizeofSelect ← Reader.u8
  Reader.require (¬(sizeofSelect.toNat = 0 ∨ sizeofSelect.toNat > 4))
  let selectBitmap ← Reader.take sizeofSelect.toNat
  return (hashAlg, selectBitmap)

/-- The whole walk over `quote_bytes`, down to
`(hash_alg, select_bitmap, pcr_digest)`. -/
def attestWalk : Reader (UInt16 × Bytes × Bytes) := do
  attestHeader
  let (hashAlg, selectBitmap) ← attestSelection
  let digestLen ← Reader.u16
  let pcrDigest ← Reader.take digestLen.toNat
  return (hashAlg, selectBitmap, pcrDigest)

/-- The submitted digest of one selected register, of the bank's exact size. -/
def boundDigest (submittedPcrs : List PcrValue) (hashAlg : UInt16) (digestSize : Nat)
    (idx : UInt8) : Except AttestError Bytes :=
  match findPcr submittedPcrs idx hashAlg with
  | none => throw .verificationFailed
  | some pv =>
      if pv.digest.length ≠ digestSize then throw .verificationFailed else pure pv.digest

def verifyPcrBinding (sha : Sha2) (quoteBytes : Bytes) (submittedPcrs : List PcrValue) :
    Except AttestError Unit := do
  let ((hashAlg, selectBitmap, pcrDigest), _) ← attestWalk quoteBytes
  match hashKindOf hashAlg with
  | none => throw .verificationFailed
  | some kind =>
      let concat ← (selectedIndices selectBitmap).foldlM (fun concat idx => do
        return concat ++ (← boundDigest submittedPcrs hashAlg kind.size idx)) []
      let computed := sha.hashWith kind concat
      if !ctEq computed pcrDigest then throw .verificationFailed

end Fleetos.Attestation
