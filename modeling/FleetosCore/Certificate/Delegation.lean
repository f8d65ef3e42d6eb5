import FleetosCore.Certificate.X509
import FleetosCore.Library.Fallible

/-!
# Delegated renewal

The extension builders and `ca::sign_svid_delegated` of `src/spiffe.rs`. The X.509
library is a parameter: it parses a request into certificate parameters and turns
parameters, a public key and an issuer into a certificate. What the code relies on is
part of the parameter: a parsed request carries no custom extension, the requested
subject and key are copied into the certificate, and its extensions are the library's
own followed by the custom ones.

The extension list of a renewed leaf then depends on the delegation key alone. What
the readers return on its bytes depends on the request as well, through lookalikes.
-/

namespace Fleetos.Svid

open Text (utf8)

structure CustomExtension where
  oid : List Nat
  content : Bytes
  criticality : Bool
  deriving DecidableEq, Repr

def CustomExtension.toExtension (ext : CustomExtension) : Extension :=
  ⟨Der.oidOctets ext.oid, ext.criticality, ext.content⟩

/-- Short form below 128, else one or two octets. -/
def derLenPrefix (len : Nat) : Bytes :=
  if len < 0x80 then [UInt8.ofNat len]
  else if len ≤ 0xFF then [0x81, UInt8.ofNat len]
  else [0x82, UInt8.ofNat (len >>> 8), UInt8.ofNat (len &&& 0xFF)]

def roleExtension (role : String) : CustomExtension :=
  let bytes := utf8 role
  ⟨roleOidArc, 0x0C :: (derLenPrefix bytes.length ++ bytes), false⟩

def degradedExtension (isDegraded : Bool) : CustomExtension :=
  ⟨degradedOidArc, if isDegraded then [0x01, 0x01, 0xFF] else [0x01, 0x01, 0x00], false⟩

/-- Drops zero octets that a clear high bit in the next one makes redundant; the last
octet stays. -/
def significant : Bytes → Bytes
  | a :: b :: rest => if a = 0 ∧ b &&& 0x80 = 0 then significant (b :: rest) else a :: b :: rest
  | bytes => bytes

def ordinalExtension (ordinal : UInt32) : CustomExtension :=
  let digits := significant (Bytes.u32be ordinal)
  let pad := digits.headD 0 &&& 0x80 ≠ 0
  let len := digits.length + if pad then 1 else 0
  ⟨ordinalOidArc, 0x02 :: UInt8.ofNat len :: ((if pad then [0x00] else []) ++ digits), false⟩

structure DelegatedSigningKey where
  nodeId : SpiffeId
  targetSvidId : SpiffeId
  targetOrdinal : Option UInt32
  issuedAtUnix : UInt64
  expiresAtUnix : UInt64
  signingKey : Bytes
  intermediateCertDer : Bytes
  targetRole : Option WorkloadRole

/-! ## The X.509 library -/

inductive SanType where
  | rfc822Name (name : String)
  | dnsName (name : String)
  | uri (uri : String)
  | ipAddress (octets : Bytes)
  | otherName (oid : List Nat) (value : Bytes)
  deriving DecidableEq, Repr

/-- Certificate parameters; times are seconds since the epoch. -/
structure CertificateParams (Settings : Type) where
  distinguishedName : Bytes
  subjectAltNames : List SanType
  /-- Key usages and whatever else the library keeps. -/
  settings : Settings
  customExtensions : List CustomExtension
  notBefore : Int
  notAfter : Int
  deriving DecidableEq

/-- The part of the X.509 library that signing uses, with what the code relies on. -/
structure Rcgen where
  Settings : Type
  KeyPair : Type
  Issuer : Type
  /-- The parameters of a request and the contents of its public key. -/
  csrFromDer : Bytes → Option (CertificateParams Settings × Bytes)
  keyPairFromPem : String → Option KeyPair
  issuerFromCaCertDer : Bytes → KeyPair → Option Issuer
  signedBy : CertificateParams Settings → Bytes → Issuer → Option X509
  /-- The extensions made from the other parameters. -/
  standardExtensions : CertificateParams Settings → Bytes → Issuer → List Extension
  csr_customExtensions : ∀ {der params publicKey},
    csrFromDer der = some (params, publicKey) → params.customExtensions = []
  signed_subject : ∀ {params publicKey issuer cert},
    signedBy params publicKey issuer = some cert →
      cert.subject = params.distinguishedName ∧ cert.subjectPublicKeyInfo = publicKey
  signed_extensions : ∀ {params publicKey issuer cert},
    signedBy params publicKey issuer = some cert →
      cert.extensions = standardExtensions params publicKey issuer ++
        params.customExtensions.map CustomExtension.toExtension
  standard_foreign : ∀ params publicKey issuer,
    ∀ e ∈ standardExtensions params publicKey issuer, e.extnId ∉ fleetosOids

/-! ## Signing -/

/-- A returned error, or a panic. -/
inductive SignFailure where
  | err (e : SvidError)
  | panic
  deriving DecidableEq, Repr

/-- `core::time::Duration`. -/
structure Duration where
  asSecs : UInt64
  subsecNanos : UInt32
  deriving DecidableEq, Repr

/-- `n as i64`. -/
def asI64 (n : UInt64) : Int := n.toInt64.toInt

/-- Timestamps within the years -9999 to 9999. -/
def inTimeRange (t : Int) : Prop := -377705116800 ≤ t ∧ t ≤ 253402300799

instance (t : Int) : Decidable (inTimeRange t) := inferInstanceAs (Decidable (_ ∧ _))

def fromUnixTimestamp (t : Int) : Option Int := if inTimeRange t then some t else none

/-- `time + Duration::seconds(secs)`, which panics outside the range. -/
def addSeconds (t secs : Int) : Except SignFailure Int :=
  if inTimeRange (t + secs) then pure (t + secs) else throw .panic

def derToPem (base64 : Bytes → String) (der : Bytes) (label : String) : String :=
  let b64 := base64 der
  "-----BEGIN " ++ label ++ "-----\n" ++
    String.join ((b64.toList.toChunks 64).map fun chunk => String.ofList chunk ++ "\n") ++
    "-----END " ++ label ++ "-----\n"

section

variable (rcgen : Rcgen) (base64 : Bytes → String) (key : DelegatedSigningKey)

/-- One subject alternative name, a `spiffe://` URI that names the key's target. -/
def checkScope (params : CertificateParams rcgen.Settings) : Except SignFailure Unit :=
  match params.subjectAltNames with
  | [.uri csrUri] =>
      if ¬ "spiffe://".toList.isPrefixOf csrUri.toList then throw (.err .invalidFormat)
      else
        match SpiffeId.fromStr csrUri with
        | .error _ => throw (.err .invalidFormat)
        | .ok csrSpiffeId =>
            if csrSpiffeId ≠ key.targetSvidId then throw (.err .targetSvidMismatch) else pure ()
  | _ => throw (.err .invalidFormat)

/-- The seconds granted, bounded by what is left of the key. -/
def grantedSecs (newValidity : Duration) (currentUnixTime : UInt64) :
    Except SignFailure UInt64 :=
  let remainingWindow := key.expiresAtUnix - currentUnixTime
  if newValidity.asSecs > remainingWindow then throw (.err .validityOverrun)
  else pure (min newValidity.asSecs remainingWindow)

/-- The extensions stamped from the key's scope, in order. -/
def stampedExtensions : List CustomExtension :=
  [degradedExtension true] ++ (key.targetRole.map fun r => roleExtension r.asStr).toList ++
    (key.targetOrdinal.map ordinalExtension).toList

/-- The request's parameters with the key's extensions and the granted window. -/
def stampParams (params : CertificateParams rcgen.Settings)
    (validitySecs currentUnixTime : UInt64) :
    Except SignFailure (CertificateParams rcgen.Settings) := do
  let notBefore ←
    Fallible.okOr (fromUnixTimestamp (asI64 currentUnixTime)) (.err .invalidFormat)
  let notAfter ← addSeconds notBefore (asI64 validitySecs)
  return { params with
    customExtensions := params.customExtensions ++ stampedExtensions key
    notBefore := notBefore
    notAfter := notAfter }

/-- The issuer built from the delegated key and the intermediate certificate. -/
def delegatedIssuer : Except SignFailure rcgen.Issuer := do
  let delegatedKeyPem := derToPem base64 key.signingKey "PRIVATE KEY"
  let delegatedKey ←
    Fallible.okOr (rcgen.keyPairFromPem delegatedKeyPem) (.err .validationFailed)
  Fallible.okOr (rcgen.issuerFromCaCertDer key.intermediateCertDer delegatedKey)
    (.err .validationFailed)

/-- `sign_svid_delegated` up to the encoding of the certificate. -/
def signLeaf (csrDer : Bytes) (newValidity : Duration) (currentUnixTime : UInt64) :
    Except SignFailure X509 := do
  if key.expiresAtUnix ≤ currentUnixTime then throw (.err .delegationKeyExpired)
  let (csrParams, publicKey) ← Fallible.okOr (rcgen.csrFromDer csrDer) (.err .invalidFormat)
  checkScope rcgen key csrParams
  let validitySecs ← grantedSecs key newValidity currentUnixTime
  let finalParams ← stampParams rcgen key csrParams validitySecs currentUnixTime
  let issuer ← delegatedIssuer rcgen base64 key
  Fallible.okOr (rcgen.signedBy finalParams publicKey issuer) (.err .validationFailed)

def signSvidDelegated (csrDer : Bytes) (newValidity : Duration) (currentUnixTime : UInt64) :
    Except SignFailure Bytes :=
  X509.encode <$> signLeaf rcgen base64 key csrDer newValidity currentUnixTime

end

/-! ## Renewed leaves -/

/-- A certificate that a delegated key signed for some request. -/
structure DelegatedLeaf (rcgen : Rcgen) (base64 : Bytes → String) (key : DelegatedSigningKey) where
  csrDer : Bytes
  newValidity : Duration
  currentUnixTime : UInt64
  cert : X509
  signed : signLeaf rcgen base64 key csrDer newValidity currentUnixTime = .ok cert

/-- What the key's scope alone decodes to. -/
def DelegatedSigningKey.stampedReadings (key : DelegatedSigningKey) : Readings :=
  .decode (key.targetRole.map fun r => (roleExtension r.asStr).content)
    (key.targetOrdinal.map fun n => (ordinalExtension n).content)
    (some (degradedExtension true).content)

theorem stampParams_customExtensions {rcgen : Rcgen} {key : DelegatedSigningKey}
    {params final : CertificateParams rcgen.Settings} {validitySecs currentUnixTime : UInt64}
    (h : stampParams rcgen key params validitySecs currentUnixTime = .ok final) :
    final.customExtensions = params.customExtensions ++ stampedExtensions key := by
  simp only [stampParams, Fallible.bind_ok_iff, Fallible.pure_ok_iff] at h
  obtain ⟨notBefore, -, notAfter, -, rfl⟩ := h
  rfl

namespace DelegatedLeaf

variable {rcgen : Rcgen} {base64 : Bytes → String} {key : DelegatedSigningKey}

def der (leaf : DelegatedLeaf rcgen base64 key) : Bytes := leaf.cert.encode

theorem signSvidDelegated_eq (leaf : DelegatedLeaf rcgen base64 key) :
    signSvidDelegated rcgen base64 key leaf.csrDer leaf.newValidity leaf.currentUnixTime =
      .ok leaf.der := by
  rw [signSvidDelegated, leaf.signed]
  rfl

/-- The extensions of a leaf are the library's own and the stamped ones. -/
theorem extensions_eq (leaf : DelegatedLeaf rcgen base64 key) :
    ∃ standard, leaf.cert.extensions =
        standard ++ (stampedExtensions key).map CustomExtension.toExtension ∧
      ∀ e ∈ standard, e.extnId ∉ fleetosOids := by
  have h := leaf.signed
  rw [signLeaf] at h
  split at h
  · cases h
  · simp only [Fallible.bind_ok_iff, Fallible.okOr_ok_iff] at h
    obtain ⟨⟨csrParams, publicKey⟩, hcsr, -, -, secs, -, final, hfinal, issuer, -, hcert⟩ := h
    refine ⟨rcgen.standardExtensions final publicKey issuer, ?_,
      rcgen.standard_foreign final publicKey issuer⟩
    rw [rcgen.signed_extensions hcert, stampParams_customExtensions hfinal,
      rcgen.csr_customExtensions hcsr, List.nil_append]

private theorem filter_standard {standard : List Extension} {oid : Bytes}
    (hoid : oid ∈ fleetosOids) (h : ∀ e ∈ standard, e.extnId ∉ fleetosOids) :
    (standard.filter fun e => e.extnId = oid) = [] := by
  rw [List.filter_eq_nil_iff]
  intro e he hid
  have hid' : e.extnId = oid := by simpa using hid
  exact h e he (hid' ▸ hoid)

/-- Which stamped extensions carry a FleetOS object identifier. -/
theorem filter_extensions (leaf : DelegatedLeaf rcgen base64 key) {oid : Bytes}
    (hoid : oid ∈ fleetosOids) :
    (leaf.cert.extensions.filter fun e => e.extnId = oid) =
      ((stampedExtensions key).map CustomExtension.toExtension).filter fun e => e.extnId = oid := by
  obtain ⟨standard, hext, hforeign⟩ := leaf.extensions_eq
  rw [hext, List.filter_append, filter_standard hoid hforeign, List.nil_append]

theorem extnId_roleExtension (role : String) :
    (roleExtension role).toExtension.extnId = roleOidBytes :=
  oidOctets_arcs.1

theorem extnId_degradedExtension (degraded : Bool) :
    (degradedExtension degraded).toExtension.extnId = degradedOidBytes :=
  oidOctets_arcs.2.1

theorem extnId_ordinalExtension (ordinal : UInt32) :
    (ordinalExtension ordinal).toExtension.extnId = ordinalOidBytes :=
  oidOctets_arcs.2.2

/-- The stamped extension of each object identifier. -/
theorem filter_stamped (key : DelegatedSigningKey) (oid : Bytes) :
    ((stampedExtensions key).map CustomExtension.toExtension).filter (fun e => e.extnId = oid) =
      (if degradedOidBytes = oid then [(degradedExtension true).toExtension] else []) ++
      (if roleOidBytes = oid then
        (key.targetRole.map fun r => (roleExtension r.asStr).toExtension).toList else []) ++
      (if ordinalOidBytes = oid then
        (key.targetOrdinal.map fun n => (ordinalExtension n).toExtension).toList else []) := by
  rw [stampedExtensions, List.map_append, List.map_append, List.filter_append,
    List.filter_append]
  congr 1
  · congr 1
    · simp only [List.map_cons, List.map_nil, List.filter_cons, extnId_degradedExtension,
        decide_eq_true_eq, List.filter_nil]
    · cases key.targetRole with
      | none => simp
      | some r =>
          simp only [Option.map_some, Option.toList_some, List.map_cons, List.map_nil,
            List.filter_cons, extnId_roleExtension, decide_eq_true_eq, List.filter_nil]
  · cases key.targetOrdinal with
    | none => simp
    | some n =>
        simp only [Option.map_some, Option.toList_some, List.map_cons, List.map_nil,
          List.filter_cons, extnId_ordinalExtension, decide_eq_true_eq, List.filter_nil]

/-- The one entry, if any, of each FleetOS object identifier. -/
theorem filter_eq (leaf : DelegatedLeaf rcgen base64 key) :
    (leaf.cert.extensions.filter fun e => e.extnId = roleOidBytes) =
        (key.targetRole.map fun r => (roleExtension r.asStr).toExtension).toList ∧
      (leaf.cert.extensions.filter fun e => e.extnId = ordinalOidBytes) =
        (key.targetOrdinal.map fun n => (ordinalExtension n).toExtension).toList ∧
      (leaf.cert.extensions.filter fun e => e.extnId = degradedOidBytes) =
        [(degradedExtension true).toExtension] := by
  rw [leaf.filter_extensions (by decide), leaf.filter_extensions (by decide),
    leaf.filter_extensions (by decide), filter_stamped, filter_stamped, filter_stamped]
  refine ⟨?_, ?_, ?_⟩
  · rw [if_neg (by decide), if_pos rfl, if_neg (by decide), List.nil_append, List.append_nil]
  · rw [if_neg (by decide), if_neg (by decide), if_pos rfl, List.nil_append, List.nil_append]
  · rw [if_pos rfl, if_neg (by decide), if_neg (by decide), List.append_nil, List.append_nil]

/-- A renewed leaf as a certificate with unambiguous FleetOS entries. -/
def certificate (leaf : DelegatedLeaf rcgen base64 key) : Certificate where
  toX509 := leaf.cert
  once := by
    obtain ⟨hrole, hordinal, hdegraded⟩ := leaf.filter_eq
    intro oid hoid
    simp only [fleetosOids, List.mem_cons, List.not_mem_nil, or_false] at hoid
    rcases hoid with rfl | rfl | rfl
    · rw [hrole]
      cases key.targetRole <;> simp
    · rw [hdegraded]
      exact Nat.le_refl 1
    · rw [hordinal]
      cases key.targetOrdinal <;> simp

/-- The extension list of a leaf says what the key's scope says. -/
theorem structuralReadings_eq (leaf : DelegatedLeaf rcgen base64 key) :
    leaf.certificate.structuralReadings = key.stampedReadings := by
  obtain ⟨hrole, hordinal, hdegraded⟩ := leaf.filter_eq
  have hvalue : ∀ oid, leaf.certificate.extensionValue oid =
      (leaf.cert.extensions.filter fun e => e.extnId = oid).head?.map Extension.extnValue := by
    intro oid
    rw [List.head?_filter]
    rfl
  rw [Certificate.structuralReadings, hvalue, hvalue, hvalue, hrole, hordinal, hdegraded,
    DelegatedSigningKey.stampedReadings]
  cases key.targetRole <;> cases key.targetOrdinal <;> rfl

end DelegatedLeaf

/-- The readers agree with the extension list exactly on undisturbed certificates. On a
renewed leaf the list is the key's scope, so requests under one key cannot be told
apart by the readers while the leaves are undisturbed. -/
theorem readers_agree_iff_undisturbed (rcgen : Rcgen) (base64 : Bytes → String)
    (key : DelegatedSigningKey) :
    (∀ cert : Certificate,
      readings cert.encode = cert.structuralReadings ↔ cert.ReadersUndisturbed) ∧
    (∀ leaf : DelegatedLeaf rcgen base64 key,
      readings leaf.der = key.stampedReadings ↔ leaf.certificate.ReadersUndisturbed) ∧
    (∀ leaf₁ leaf₂ : DelegatedLeaf rcgen base64 key,
      leaf₁.certificate.ReadersUndisturbed → leaf₂.certificate.ReadersUndisturbed →
        readings leaf₁.der = readings leaf₂.der) := by
  have hleaf : ∀ leaf : DelegatedLeaf rcgen base64 key,
      readings leaf.der = key.stampedReadings ↔ leaf.certificate.ReadersUndisturbed := by
    intro leaf
    rw [← leaf.structuralReadings_eq]
    exact leaf.certificate.readings_eq_iff
  refine ⟨Certificate.readings_eq_iff, hleaf, ?_⟩
  intro leaf₁ leaf₂ h₁ h₂
  rw [(hleaf leaf₁).mpr h₁, (hleaf leaf₂).mpr h₂]

/-! ## A subject that reads as a role

Two requests with one P-256 key, one SPIFFE URI and their own signatures. The common
name of the first is the URI. That of the second is a BMPString of nine characters
whose octets are the role OID, `04 06` and the UTF8String `root`. -/

namespace Sample

def uri : String := "spiffe://td/ns/t/sa/db"

def publicPoint : Bytes :=
  [0x47, 0x1c, 0x3e, 0x75, 0x8c, 0x49, 0x04, 0x28, 0x5b, 0xba, 0x7e, 0x53, 0x11, 0x8e, 0xd0,
    0xf5, 0x24, 0xad, 0xeb, 0x07, 0x57, 0xd2, 0x5b, 0xd2, 0xf8, 0xe7, 0xb0, 0xd7, 0x6d, 0xfa,
    0x71, 0x4c, 0xdd, 0x52, 0x0f, 0x7a, 0xca, 0x8a, 0x8b, 0x91, 0x7a, 0xcc, 0x37, 0xf5, 0x1d,
    0xe8, 0xf0, 0xc9, 0xbb, 0xe3, 0xad, 0x85, 0x83, 0x82, 0xe7, 0x02, 0xdc, 0x25, 0xa1, 0x2d,
    0x09, 0xf7, 0xa8, 0x58]

def ecPublicKey : Bytes :=
  Der.tlv 0x30 (Der.tlv 0x06 (Der.oidOctets [1, 2, 840, 10045, 2, 1]) ++
    Der.tlv 0x06 (Der.oidOctets [1, 2, 840, 10045, 3, 1, 7]))

def spki : Bytes := ecPublicKey ++ Der.tlv 0x03 (0x00 :: 0x04 :: publicPoint)

def ecdsaWithSha256 : Bytes := Der.tlv 0x06 (Der.oidOctets [1, 2, 840, 10045, 4, 3, 2])

def commonName (tag : UInt8) (value : Bytes) : Bytes :=
  Der.tlv 0x31 (Der.tlv 0x30 (Der.tlv 0x06 [0x55, 0x04, 0x03] ++ Der.tlv tag value))

def plainSubject : Bytes := commonName 0x0C (utf8 uri)

def forgedSubject : Bytes :=
  commonName 0x1E (roleOidBytes ++ [0x04, 0x06, 0x0C, 0x04, 0x72, 0x6F, 0x6F, 0x74])

def sanExtension : Extension :=
  ⟨[0x55, 0x1D, 0x11], false, Der.tlv 0x30 (Der.tlv 0x86 (utf8 uri))⟩

/-- A certification request; `signature` holds the two integers. -/
def csr (subject signature : Bytes) : Bytes :=
  let extensionRequest := Der.tlv 0x30 (Der.tlv 0x06 (Der.oidOctets [1, 2, 840, 113549, 1, 9, 14])
    ++ Der.tlv 0x31 (Der.tlv 0x30 sanExtension.encode))
  Der.tlv 0x30 (Der.tlv 0x30 ([0x02, 0x01, 0x00] ++ Der.tlv 0x30 subject ++ Der.tlv 0x30 spki ++
    Der.tlv 0xA0 extensionRequest) ++ Der.tlv 0x30 ecdsaWithSha256 ++
      Der.tlv 0x03 (0x00 :: Der.tlv 0x30 signature))

def plainCsr : Bytes :=
  csr plainSubject
    [0x02, 0x20, 0x4a, 0x55, 0x30, 0xb0, 0x43, 0x72, 0x6f, 0xbe, 0xeb, 0xd1, 0x3c, 0x58, 0xeb,
      0xc5, 0x0d, 0xcc, 0x94, 0x4f, 0xd6, 0x0e, 0x07, 0xb7, 0x14, 0xaa, 0xc9, 0xb5, 0x7e,
      0xdd, 0xc6, 0x03, 0x7a, 0x88, 0x02, 0x20, 0x11, 0x98, 0xe6, 0xdf, 0xf6, 0x6f, 0x15,
      0xaf, 0x73, 0x51, 0xcb, 0x22, 0x5f, 0x79, 0xcc, 0xf3, 0x9a, 0x38, 0x73, 0x56, 0x13,
      0xcc, 0xbf, 0xca, 0xc9, 0x0e, 0xab, 0x70, 0x28, 0xaf, 0x1e, 0x95]

def forgedCsr : Bytes :=
  csr forgedSubject
    [0x02, 0x20, 0x4a, 0x55, 0x30, 0xb0, 0x43, 0x72, 0x6f, 0xbe, 0xeb, 0xd1, 0x3c, 0x58, 0xeb,
      0xc5, 0x0d, 0xcc, 0x94, 0x4f, 0xd6, 0x0e, 0x07, 0xb7, 0x14, 0xaa, 0xc9, 0xb5, 0x7e,
      0xdd, 0xc6, 0x03, 0x7a, 0x88, 0x02, 0x21, 0x00, 0x94, 0x38, 0x06, 0xb9, 0xf3, 0xd1,
      0xf3, 0x9d, 0x48, 0x9d, 0xd8, 0x00, 0x64, 0x19, 0x05, 0xf5, 0x88, 0x6a, 0x72, 0x86,
      0x27, 0x73, 0x71, 0x56, 0xb6, 0xd1, 0x8d, 0x6c, 0xa6, 0x38, 0x13, 0x3a]

def params (subject : Bytes) : CertificateParams Unit :=
  ⟨subject, [.uri uri], (), [], 0, 0⟩

/-- The signing key in PKCS #8 form. -/
def signingKey : Bytes :=
  [0x30, 0x41, 0x02, 0x01, 0x00, 0x30, 0x13, 0x06, 0x07, 0x2a, 0x86, 0x48, 0xce, 0x3d, 0x02,
    0x01, 0x06, 0x08, 0x2a, 0x86, 0x48, 0xce, 0x3d, 0x03, 0x01, 0x07, 0x04, 0x27, 0x30, 0x25,
    0x02, 0x01, 0x01, 0x04, 0x20, 0x12, 0x34, 0x56, 0x78, 0x90, 0xab, 0xcd, 0xef, 0x12, 0x34,
    0x56, 0x78, 0x90, 0xab, 0xcd, 0xef, 0x12, 0x34, 0x56, 0x78, 0x90, 0xab, 0xcd, 0xef, 0x12,
    0x34, 0x56, 0x78, 0x90, 0xab, 0xcd, 0xef]

def base64 (bytes : Bytes) : String :=
  if bytes = signingKey then
    "MEECAQAwEwYHKoZIzj0CAQYIKoZIzj0DAQcEJzAlAgEBBCASNFZ4kKvN7xI0VniQ" ++
      "q83vEjRWeJCrze8SNFZ4kKvN7w=="
  else ""

def csrFromDer (der : Bytes) : Option (CertificateParams Unit × Bytes) :=
  if der = plainCsr then some (params plainSubject, spki)
  else if der = forgedCsr then some (params forgedSubject, spki)
  else none

theorem encodable_of_all {extensions : List Extension}
    (h : (extensions.all fun e => e.extnValue.length < 64) = true) :
    ∀ e ∈ extensions, e.extnValue.length < 256 ^ 126 := by
  intro e he
  have hsmall : e.extnValue.length < 64 := by simpa using List.all_eq_true.mp h e he
  omega

/-- A certification authority that may sign certificates. -/
def caExtensions : List Extension :=
  [⟨[0x55, 0x1D, 0x13], true, [0x30, 0x03, 0x01, 0x01, 0xFF]⟩,
    ⟨[0x55, 0x1D, 0x0F], true, [0x03, 0x02, 0x02, 0x04]⟩]

theorem caExtensions_encodable : ∀ e ∈ caExtensions, e.extnValue.length < 256 ^ 126 :=
  encodable_of_all (by decide)

/-- The delegated key's certificate, signed by itself; valid for the first 2000 seconds
after the epoch. -/
def caCert : X509 where
  serialNumber := [0x01]
  signature := ecdsaWithSha256
  issuer := commonName 0x0C (utf8 "delegate")
  validity := Der.tlv 0x17 (utf8 "700101000000Z") ++ Der.tlv 0x17 (utf8 "700101003320Z")
  subject := commonName 0x0C (utf8 "delegate")
  subjectPublicKeyInfo := spki
  issuerUniqueId := none
  subjectUniqueId := none
  extensions := caExtensions
  signatureAlgorithm := ecdsaWithSha256
  signatureValue := 0x00 :: Der.tlv 0x30
    [0x02, 0x21, 0x00, 0x98, 0x82, 0x5e, 0xa6, 0xeb, 0xfd, 0xc8, 0x07, 0x4b, 0xfc, 0xb8, 0x71,
      0xd7, 0xa9, 0xca, 0xeb, 0xa7, 0x12, 0xf6, 0x5c, 0x0e, 0x22, 0xfe, 0x40, 0x65, 0xf3, 0x1d,
      0x11, 0xf4, 0x9b, 0x70, 0xee, 0x02, 0x20, 0x16, 0x0d, 0x86, 0x56, 0xb2, 0x1d, 0xc1, 0xa7,
      0x80, 0x2a, 0x04, 0x44, 0x52, 0xab, 0x84, 0xde, 0x79, 0xe3, 0x8a, 0xc9, 0x8f, 0x77, 0x6c,
      0xab, 0xcf, 0xc9, 0x3b, 0xe8, 0x24, 0x8b, 0xe9, 0xd1]
  encodable := caExtensions_encodable

/-- May renew `spiffe://td/ns/t/sa/db` as role `replica`. -/
def key : DelegatedSigningKey where
  nodeId := ⟨"td", "t", .node, "n1"⟩
  targetSvidId := ⟨"td", "t", .sa, "db"⟩
  targetOrdinal := none
  issuedAtUnix := 0
  expiresAtUnix := 2000
  signingKey := signingKey
  intermediateCertDer := caCert.encode
  targetRole := some ⟨"replica"⟩

/-- The parameters of a renewal for 500 seconds, 1000 seconds after the epoch. -/
def stamped (subject : Bytes) : CertificateParams Unit :=
  ⟨subject, [.uri uri], (), stampedExtensions key, 1000, 1500⟩

def leafExtensions : List Extension :=
  [sanExtension] ++ (stampedExtensions key).map CustomExtension.toExtension

theorem leafExtensions_encodable : ∀ e ∈ leafExtensions, e.extnValue.length < 256 ^ 126 :=
  encodable_of_all (by decide)

/-- A certificate valid from 1000 to 1500 seconds after the epoch; `signature` holds the two
integers. -/
def leafCert (subject signature : Bytes) : X509 where
  serialNumber := [0x02]
  signature := ecdsaWithSha256
  issuer := commonName 0x0C (utf8 "delegate")
  validity := Der.tlv 0x17 (utf8 "700101001640Z") ++ Der.tlv 0x17 (utf8 "700101002500Z")
  subject := subject
  subjectPublicKeyInfo := spki
  issuerUniqueId := none
  subjectUniqueId := none
  extensions := leafExtensions
  signatureAlgorithm := ecdsaWithSha256
  signatureValue := 0x00 :: Der.tlv 0x30 signature
  encodable := leafExtensions_encodable

def plainCert : X509 :=
  leafCert plainSubject
    [0x02, 0x21, 0x00, 0xa5, 0x0e, 0x14, 0x4d, 0x31, 0x98, 0xb8, 0xeb, 0x17, 0x72, 0x57, 0x61,
      0x59, 0x48, 0xcc, 0xf1, 0x77, 0x75, 0xef, 0xc4, 0x57, 0x43, 0x63, 0x41, 0xcb, 0x86, 0x26,
      0xa8, 0x16, 0xd2, 0xb2, 0xc7, 0x02, 0x21, 0x00, 0xcb, 0x22, 0x76, 0x80, 0xab, 0x7e, 0x76,
      0xa5, 0x51, 0xc9, 0x41, 0xea, 0xf6, 0x5d, 0x32, 0x86, 0x39, 0x79, 0xc5, 0xbb, 0x9b, 0x2d,
      0x7d, 0xbf, 0x77, 0x5d, 0xf1, 0xb2, 0xb2, 0x5d, 0x9c, 0x2f]

def forgedCert : X509 :=
  leafCert forgedSubject
    [0x02, 0x20, 0x4c, 0x00, 0xe4, 0x4e, 0x43, 0xe2, 0x59, 0xac, 0xb0, 0x52, 0x61, 0xaf, 0x31,
      0x4e, 0x5b, 0x01, 0x3c, 0x4f, 0x3c, 0xd7, 0xeb, 0x78, 0xe6, 0x18, 0xd9, 0x17, 0x09, 0x48,
      0x7e, 0xde, 0x45, 0xf8, 0x02, 0x20, 0x24, 0x39, 0x8e, 0x4a, 0x77, 0xb8, 0x3c, 0x21, 0x02,
      0x15, 0xf2, 0xd9, 0x39, 0xfe, 0x74, 0x0a, 0x18, 0x96, 0x0a, 0x27, 0x89, 0x74, 0x88, 0x32,
      0x84, 0x4b, 0x11, 0xa6, 0x53, 0x24, 0x59, 0x1e]

/-- Signs the two sample renewals. -/
def signedBy (params : CertificateParams Unit) (publicKey : Bytes) (_ : Unit) : Option X509 :=
  if params = stamped plainSubject ∧ publicKey = spki then some plainCert
  else if params = stamped forgedSubject ∧ publicKey = spki then some forgedCert
  else none

theorem signedBy_cases {params : CertificateParams Unit} {publicKey : Bytes} {cert : X509}
    (h : signedBy params publicKey () = some cert) :
    publicKey = spki ∧ (params = stamped plainSubject ∧ cert = plainCert ∨
      params = stamped forgedSubject ∧ cert = forgedCert) := by
  rw [signedBy] at h
  split at h
  · rename_i hplain
    exact ⟨hplain.2, .inl ⟨hplain.1, (Option.some.inj h).symm⟩⟩
  · split at h
    · rename_i hforged
      exact ⟨hforged.2, .inr ⟨hforged.1, (Option.some.inj h).symm⟩⟩
    · cases h

def keyPairFromPem (pem : String) : Option Unit :=
  if pem = derToPem base64 signingKey "PRIVATE KEY" then some () else none

def issuerFromCaCertDer (der : Bytes) (_ : Unit) : Option Unit :=
  if der = caCert.encode then some () else none

/-- Knows the delegated key and its certificate only. -/
def rcgen : Rcgen where
  Settings := Unit
  KeyPair := Unit
  Issuer := Unit
  csrFromDer := csrFromDer
  keyPairFromPem := keyPairFromPem
  issuerFromCaCertDer := issuerFromCaCertDer
  signedBy := signedBy
  standardExtensions _ _ _ := [sanExtension]
  csr_customExtensions := by
    intro der p publicKey h
    rw [csrFromDer] at h
    split at h
    · rw [← (Prod.mk.inj (Option.some.inj h)).1]
      rfl
    · split at h
      · rw [← (Prod.mk.inj (Option.some.inj h)).1]
        rfl
      · cases h
  signed_subject := by
    intro p publicKey issuer cert h
    obtain ⟨rfl, ⟨rfl, rfl⟩ | ⟨rfl, rfl⟩⟩ := signedBy_cases h
    · exact ⟨rfl, rfl⟩
    · exact ⟨rfl, rfl⟩
  signed_extensions := by
    intro p publicKey issuer cert h
    obtain ⟨rfl, ⟨rfl, rfl⟩ | ⟨rfl, rfl⟩⟩ := signedBy_cases h
    · rfl
    · rfl
  standard_foreign := by
    intro p publicKey issuer e he
    rw [List.mem_singleton.mp he]
    decide

theorem checkScope_params (subject : Bytes) : checkScope rcgen key (params subject) = .ok () := by
  have hparse : SpiffeId.fromStr uri = .ok ⟨"td", "t", .sa, "db"⟩ := by decide
  simp only [checkScope, params, hparse]
  rfl

theorem grantedSecs_key : grantedSecs key ⟨500, 0⟩ 1000 = .ok 500 := by decide

theorem stampParams_params (subject : Bytes) :
    stampParams rcgen key (params subject) 500 1000 = .ok (stamped subject) :=
  rfl

theorem keyPairFromPem_signingKey :
    keyPairFromPem (derToPem base64 key.signingKey "PRIVATE KEY") = some () := by
  have hkey : key.signingKey = signingKey := rfl
  rw [hkey, keyPairFromPem, if_pos rfl]

theorem issuerFromCaCertDer_intermediateCertDer :
    issuerFromCaCertDer key.intermediateCertDer () = some () := by
  have hcert : key.intermediateCertDer = caCert.encode := rfl
  rw [hcert, issuerFromCaCertDer, if_pos rfl]

theorem delegatedIssuer_key : delegatedIssuer rcgen base64 key = .ok () := by
  have hpem : rcgen.keyPairFromPem = keyPairFromPem := rfl
  have hissuer : rcgen.issuerFromCaCertDer = issuerFromCaCertDer := rfl
  rw [delegatedIssuer, hpem, hissuer, keyPairFromPem_signingKey]
  refine Fallible.bind_ok_iff.mpr ⟨(), rfl, ?_⟩
  rw [issuerFromCaCertDer_intermediateCertDer]
  rfl

theorem signedBy_plain : signedBy (stamped plainSubject) spki () = some plainCert := by
  rw [signedBy, if_pos ⟨rfl, rfl⟩]

theorem signedBy_forged : signedBy (stamped forgedSubject) spki () = some forgedCert := by
  have hother : forgedSubject ≠ plainSubject := by decide +kernel
  have hparams : stamped forgedSubject ≠ stamped plainSubject := fun h =>
    hother (congrArg CertificateParams.distinguishedName h)
  rw [signedBy, if_neg fun h => hparams h.1, if_pos ⟨rfl, rfl⟩]

theorem signLeaf_eq {csrDer subject : Bytes} {cert : X509}
    (hcsr : csrFromDer csrDer = some (params subject, spki))
    (hsigned : signedBy (stamped subject) spki () = some cert) :
    signLeaf rcgen base64 key csrDer ⟨500, 0⟩ 1000 = .ok cert := by
  rw [signLeaf, if_neg (by decide)]
  simp only [Fallible.bind_ok_iff, Fallible.okOr_ok_iff]
  exact ⟨(params subject, spki), hcsr, (), checkScope_params subject, 500, grantedSecs_key, _,
    stampParams_params subject, (), delegatedIssuer_key, hsigned⟩

theorem csrFromDer_plainCsr : csrFromDer plainCsr = some (params plainSubject, spki) := by
  rw [csrFromDer, if_pos rfl]

theorem csrFromDer_forgedCsr : csrFromDer forgedCsr = some (params forgedSubject, spki) := by
  rw [csrFromDer, if_neg (by decide +kernel), if_pos rfl]

def plainLeaf : DelegatedLeaf rcgen base64 key :=
  ⟨plainCsr, ⟨500, 0⟩, 1000, plainCert, signLeaf_eq csrFromDer_plainCsr signedBy_plain⟩

def forgedLeaf : DelegatedLeaf rcgen base64 key :=
  ⟨forgedCsr, ⟨500, 0⟩, 1000, forgedCert, signLeaf_eq csrFromDer_forgedCsr signedBy_forged⟩

theorem plainLeaf_readings : readings plainLeaf.der = key.stampedReadings := by
  decide +kernel

theorem forgedLeaf_role : extractRole forgedLeaf.der = some ⟨"root"⟩ := by
  decide +kernel

end Sample

theorem plainLeaf_undisturbed : Sample.plainLeaf.certificate.ReadersUndisturbed :=
  ((readers_agree_iff_undisturbed Sample.rcgen Sample.base64 Sample.key).2.1 Sample.plainLeaf).mp
    Sample.plainLeaf_readings

/-- The subject of a request is read as the role of the renewed leaf. -/
theorem forged_subject_read_as_role :
    ¬ (∀ cert : Certificate, readings cert.encode = cert.structuralReadings) ∧
    ¬ (∀ leaf₁ leaf₂ : DelegatedLeaf Sample.rcgen Sample.base64 Sample.key,
      readings leaf₁.der = readings leaf₂.der) := by
  constructor
  · intro h
    have hrole := congrArg Readings.role (h Sample.forgedLeaf.certificate)
    rw [Sample.forgedLeaf.structuralReadings_eq, readings_role] at hrole
    have hread := Sample.forgedLeaf_role.symm.trans hrole
    exact absurd hread (by decide)
  · intro h
    have hrole := congrArg Readings.role (h Sample.plainLeaf Sample.forgedLeaf)
    rw [Sample.plainLeaf_readings, readings_role, Sample.forgedLeaf_role] at hrole
    exact absurd hrole (by decide)

end Fleetos.Svid
