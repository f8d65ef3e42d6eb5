import FleetosCore.Certificate.Validation
import FleetosCore.Certificate.ValidityWindow

/-!
# A renewal from the request to the reader

`ca::build_csr` of `src/spiffe.rs`, which a workload calls, followed by
`ca::sign_svid_delegated`, which the holder of a delegated key calls on the bytes, and by
`extract_spiffe_id`, which a peer calls on the certificate. A request carries the identity
as printed text only, so what is renewed is decided by the text: two identities that are
printed alike cannot be told apart, and an identity that is not printed the way the parser
reads it cannot be renewed at all.

The request's side of the X.509 library is a parameter as well. `RequestLaws` says what
survives from the parameters of a request to the ones the signer parses.
-/

namespace Fleetos.Svid

inductive KeyUsagePurpose where
  | digitalSignature
  deriving DecidableEq, Repr

inductive ExtendedKeyUsagePurpose where
  | clientAuth
  | serverAuth
  deriving DecidableEq, Repr

inductive IsCa where
  | noCa
  deriving DecidableEq, Repr

/-- The part of the X.509 library that requests are built with. -/
structure RequestLibrary (rcgen : Rcgen) where
  /-- `CertificateParams::new` for no names. -/
  newParams : Option (CertificateParams rcgen.Settings)
  /-- `Ia5String::try_from`. -/
  ia5String : String → Option String
  /-- A distinguished name with one common name. -/
  commonName : String → Bytes
  withUsages : rcgen.Settings → List KeyUsagePurpose → List ExtendedKeyUsagePurpose → IsCa →
    rcgen.Settings
  serializeRequest : CertificateParams rcgen.Settings → rcgen.KeyPair → Option Bytes
  /-- The contents of the public key. -/
  publicKey : rcgen.KeyPair → Bytes

structure Csr where
  der : Bytes
  deriving DecidableEq, Repr

section

variable {rcgen : Rcgen} (lib : RequestLibrary rcgen)

def buildCsr (id : SpiffeId) (keypair : rcgen.KeyPair) : Except SvidError Csr := do
  let params ← Fallible.okOr lib.newParams .invalidFormat
  let spiffeUri ← Fallible.okOr (lib.ia5String id.display) .invalidFormat
  let params := { params with
    subjectAltNames := params.subjectAltNames ++ [.uri spiffeUri]
    distinguishedName := lib.commonName id.display
    settings := lib.withUsages params.settings [.digitalSignature] [.clientAuth, .serverAuth]
      .noCa }
  let csr ← Fallible.okOr (lib.serializeRequest params keypair) .invalidFormat
  return ⟨csr⟩

/-- What the library promises about requests. -/
structure RequestLaws : Prop where
  /-- New parameters for no names have none, and no extensions. -/
  new : ∀ {params}, lib.newParams = some params →
    params.subjectAltNames = [] ∧ params.customExtensions = []
  /-- IA5 strings are the ASCII ones. -/
  ia5 : ∀ {text uri}, lib.ia5String text = some uri ↔
    uri = text ∧ ∀ c ∈ text.toList, c.toNat < 128
  /-- A request without custom extensions is parsed back: names, subject and key. -/
  parsed : ∀ {params keypair der}, lib.serializeRequest params keypair = some der →
    params.customExtensions = [] → ∃ parsed,
      rcgen.csrFromDer der = some (parsed, lib.publicKey keypair) ∧
        parsed.subjectAltNames = params.subjectAltNames ∧
        parsed.distinguishedName = params.distinguishedName

end

/-- What the reader of certificates promises about the ones the library signs: the names
in the certificate are the names in the parameters. -/
def ReadsNames (rcgen : Rcgen) (parseX509Certificate : Bytes → Option (List ParsedExtension)) :
    Prop :=
  ∀ {params publicKey issuer cert uri}, rcgen.signedBy params publicKey issuer = some cert →
    params.subjectAltNames = [.uri uri] → ∃ extensions,
      parseX509Certificate cert.encode = some extensions ∧
        extensions.find? ParsedExtension.isSubjectAlternativeName =
          some (.subjectAlternativeName [.uri uri])

/-! ## Which renewals are refused -/

section

variable (key : DelegatedSigningKey) (id : SpiffeId) (newValidity : Duration)
  (currentUnixTime : UInt64)

/-- The key is in force, the identity is printed as its target is, the validity ends with
the key at the latest and the library's calendar has both ends. -/
structure Granted : Prop where
  unexpired : currentUnixTime.toNat < key.expiresAtUnix.toNat
  target : SpiffeId.fromStr id.display = .ok key.targetSvidId
  withinKey : currentUnixTime.toNat + newValidity.asSecs.toNat ≤ key.expiresAtUnix.toNat
  start : inTimeRange (asI64 currentUnixTime)
  finish : inTimeRange (asI64 currentUnixTime + asI64 newValidity.asSecs)

/-- The first check that fails and what the caller gets for it. -/
inductive Refused : SignFailure → Prop
  | expired (h : key.expiresAtUnix.toNat ≤ currentUnixTime.toNat) :
      Refused (.err .delegationKeyExpired)
  | unreadable {e : SvidError} (h : currentUnixTime.toNat < key.expiresAtUnix.toNat)
      (hid : SpiffeId.fromStr id.display = .error e) : Refused (.err .invalidFormat)
  | mismatch {other : SpiffeId} (h : currentUnixTime.toNat < key.expiresAtUnix.toNat)
      (hid : SpiffeId.fromStr id.display = .ok other) (hne : other ≠ key.targetSvidId) :
      Refused (.err .targetSvidMismatch)
  | overrun (h : currentUnixTime.toNat < key.expiresAtUnix.toNat)
      (hid : SpiffeId.fromStr id.display = .ok key.targetSvidId)
      (hlong : key.expiresAtUnix.toNat < currentUnixTime.toNat + newValidity.asSecs.toNat) :
      Refused (.err .validityOverrun)
  | start (h : currentUnixTime.toNat < key.expiresAtUnix.toNat)
      (hid : SpiffeId.fromStr id.display = .ok key.targetSvidId)
      (hfits : currentUnixTime.toNat + newValidity.asSecs.toNat ≤ key.expiresAtUnix.toNat)
      (hstart : ¬ inTimeRange (asI64 currentUnixTime)) : Refused (.err .invalidFormat)
  | finish (h : currentUnixTime.toNat < key.expiresAtUnix.toNat)
      (hid : SpiffeId.fromStr id.display = .ok key.targetSvidId)
      (hfits : currentUnixTime.toNat + newValidity.asSecs.toNat ≤ key.expiresAtUnix.toNat)
      (hstart : inTimeRange (asI64 currentUnixTime))
      (hfinish : ¬ inTimeRange (asI64 currentUnixTime + asI64 newValidity.asSecs)) :
      Refused .panic

end

section

variable {rcgen : Rcgen} {base64 : Bytes → String} {key : DelegatedSigningKey} {id : SpiffeId}
  {newValidity : Duration} {currentUnixTime : UInt64} {csrDer publicKey : Bytes}
  {params : CertificateParams rcgen.Settings} {failure : SignFailure}

theorem granted_iff_not_refused :
    Granted key id newValidity currentUnixTime ↔
      ¬ ∃ failure, Refused key id newValidity currentUnixTime failure := by
  constructor
  · rintro ⟨hunexpired, htarget, hwithin, hstart, hfinish⟩ ⟨failure, hrefused⟩
    cases hrefused with
    | expired h => omega
    | unreadable _ hid => cases hid.symm.trans htarget
    | mismatch _ hid hne => exact hne (Except.ok.inj (hid.symm.trans htarget))
    | overrun _ _ hlong => omega
    | start _ _ _ h => exact h hstart
    | finish _ _ _ _ h => exact h hfinish
  · intro hpasses
    have hunexpired : currentUnixTime.toNat < key.expiresAtUnix.toNat :=
      Nat.lt_of_not_le fun h => hpasses ⟨_, .expired h⟩
    have htarget : SpiffeId.fromStr id.display = .ok key.targetSvidId := by
      cases hid : SpiffeId.fromStr id.display with
      | error e => exact absurd ⟨_, .unreadable hunexpired hid⟩ hpasses
      | ok other =>
          by_contra hne
          exact hpasses ⟨_, .mismatch hunexpired hid fun h => hne (congrArg Except.ok h)⟩
    have hwithin : currentUnixTime.toNat + newValidity.asSecs.toNat ≤ key.expiresAtUnix.toNat :=
      Nat.le_of_not_lt fun h => hpasses ⟨_, .overrun hunexpired htarget h⟩
    have hstart : inTimeRange (asI64 currentUnixTime) :=
      by_contra fun h => hpasses ⟨_, .start hunexpired htarget hwithin h⟩
    exact ⟨hunexpired, htarget, hwithin, hstart,
      by_contra fun h => hpasses ⟨_, .finish hunexpired htarget hwithin hstart h⟩⟩

/-! ## A request with a printed identity -/

theorem scheme_display (id : SpiffeId) :
    "spiffe://".toList.isPrefixOf id.display.toList = true := by
  rw [SpiffeId.toList_display, List.isPrefixOf_iff_prefix]
  exact List.prefix_append _ _

theorem checkScope_eq (hsans : params.subjectAltNames = [.uri id.display]) :
    checkScope rcgen key params =
      match SpiffeId.fromStr id.display with
      | .error _ => throw (.err .invalidFormat)
      | .ok other =>
          if other ≠ key.targetSvidId then throw (.err .targetSvidMismatch) else pure () := by
  rw [checkScope, hsans]
  exact if_neg (not_not.mpr (scheme_display id))

theorem checkScope_of_target (hsans : params.subjectAltNames = [.uri id.display])
    (hid : SpiffeId.fromStr id.display = .ok key.targetSvidId) :
    checkScope rcgen key params = .ok () := by
  rw [checkScope_eq hsans, hid]
  exact if_neg (not_not.mpr rfl)

theorem grantedSecs_of_lt (h : currentUnixTime.toNat < key.expiresAtUnix.toNat)
    (hlong : key.expiresAtUnix.toNat < currentUnixTime.toNat + newValidity.asSecs.toNat) :
    grantedSecs key newValidity currentUnixTime = .error (.err .validityOverrun) := by
  cases hgranted : grantedSecs key newValidity currentUnixTime with
  | ok secs =>
      obtain ⟨hwithin, -⟩ := (grantedSecs_ok_iff h).mp hgranted
      omega
  | error failure =>
      rw [grantedSecs] at hgranted
      split at hgranted
      · exact hgranted.symm
      · cases hgranted

/-- The checks behind the key's expiry, for a request that is parsed. -/
theorem signLeaf_of_unexpired (h : currentUnixTime.toNat < key.expiresAtUnix.toNat)
    (hcsr : rcgen.csrFromDer csrDer = some (params, publicKey)) :
    signLeaf rcgen base64 key csrDer newValidity currentUnixTime =
      checkScope rcgen key params >>= fun _ =>
        grantedSecs key newValidity currentUnixTime >>= fun validitySecs =>
          stampParams rcgen key params validitySecs currentUnixTime >>= fun final =>
            delegatedIssuer rcgen base64 key >>= fun issuer =>
              Fallible.okOr (rcgen.signedBy final publicKey issuer) (.err .validationFailed) := by
  have hexpiry : ¬ key.expiresAtUnix ≤ currentUnixTime := by
    rwa [UInt64.le_iff_toNat_le, Nat.not_le]
  rw [signLeaf, if_neg hexpiry, hcsr]
  rfl

/-- What is handed to the library for a granted request. -/
def grantedParams (key : DelegatedSigningKey) (newValidity : Duration) (currentUnixTime : UInt64)
    (params : CertificateParams rcgen.Settings) : CertificateParams rcgen.Settings :=
  { params with
    customExtensions := params.customExtensions ++ stampedExtensions key
    notBefore := asI64 currentUnixTime
    notAfter := asI64 currentUnixTime + asI64 newValidity.asSecs }

theorem Refused.signLeaf_eq (h : Refused key id newValidity currentUnixTime failure)
    (hcsr : rcgen.csrFromDer csrDer = some (params, publicKey))
    (hsans : params.subjectAltNames = [.uri id.display]) :
    signLeaf rcgen base64 key csrDer newValidity currentUnixTime = .error failure := by
  cases h with
  | expired hexpired =>
      rw [signLeaf, if_pos (UInt64.le_iff_toNat_le.mpr hexpired)]
      rfl
  | unreadable hunexpired hid =>
      rw [signLeaf_of_unexpired hunexpired hcsr, checkScope_eq hsans, hid]
      rfl
  | mismatch hunexpired hid hne =>
      rw [signLeaf_of_unexpired hunexpired hcsr, checkScope_eq hsans, hid]
      simp only [if_pos hne]
      rfl
  | overrun hunexpired hid hlong =>
      rw [signLeaf_of_unexpired hunexpired hcsr, checkScope_of_target hsans hid, Fallible.ok_bind,
        grantedSecs_of_lt hunexpired hlong]
      rfl
  | start hunexpired hid hfits hstart =>
      rw [signLeaf_of_unexpired hunexpired hcsr, checkScope_of_target hsans hid, Fallible.ok_bind,
        (grantedSecs_ok_iff hunexpired).mpr ⟨hfits, rfl⟩, Fallible.ok_bind, stampParams,
        fromUnixTimestamp, if_neg hstart]
      rfl
  | finish hunexpired hid hfits hstart hfinish =>
      rw [signLeaf_of_unexpired hunexpired hcsr, checkScope_of_target hsans hid, Fallible.ok_bind,
        (grantedSecs_ok_iff hunexpired).mpr ⟨hfits, rfl⟩, Fallible.ok_bind,
        stampParams_panic_iff.mpr ⟨hstart, hfinish⟩]
      rfl

theorem Granted.signLeaf_eq (h : Granted key id newValidity currentUnixTime)
    (hcsr : rcgen.csrFromDer csrDer = some (params, publicKey))
    (hsans : params.subjectAltNames = [.uri id.display]) :
    signLeaf rcgen base64 key csrDer newValidity currentUnixTime =
      delegatedIssuer rcgen base64 key >>= fun issuer =>
        Fallible.okOr (rcgen.signedBy (grantedParams key newValidity currentUnixTime params)
          publicKey issuer) (.err .validationFailed) := by
  have hstamped : stampParams rcgen key params newValidity.asSecs currentUnixTime =
      .ok (grantedParams key newValidity currentUnixTime params) :=
    stampParams_ok_iff.mpr ⟨h.start, h.finish, rfl⟩
  rw [signLeaf_of_unexpired h.unexpired hcsr, checkScope_of_target hsans h.target,
    Fallible.ok_bind, (grantedSecs_ok_iff h.unexpired).mpr ⟨h.withinKey, rfl⟩, Fallible.ok_bind,
    hstamped, Fallible.ok_bind]

/-- What the signer parses out of a built request. -/
theorem RequestLaws.parsed_of_buildCsr {lib : RequestLibrary rcgen} (laws : RequestLaws lib)
    {keypair : rcgen.KeyPair} {csr : Csr} (h : buildCsr lib id keypair = .ok csr) :
    ∃ parsed, rcgen.csrFromDer csr.der = some (parsed, lib.publicKey keypair) ∧
      parsed.subjectAltNames = [.uri id.display] ∧
      parsed.distinguishedName = lib.commonName id.display := by
  simp only [buildCsr, Fallible.bind_ok_iff, Fallible.okOr_ok_iff, Fallible.pure_ok_iff] at h
  obtain ⟨params, hnew, uri, huri, der, hder, rfl⟩ := h
  obtain ⟨hsans, hcustom⟩ := laws.new hnew
  obtain ⟨rfl, -⟩ := laws.ia5.mp huri
  obtain ⟨parsed, hparsed, hnames, hsubject⟩ := laws.parsed hder hcustom
  refine ⟨parsed, hparsed, ?_, hsubject⟩
  rw [hnames, hsans, List.nil_append]

/-! ## What a leaf names -/

/-- The target of a key that passes the scope check is printed as the parser reads it. -/
theorem fromStr_target_of_checkScope {params : CertificateParams rcgen.Settings}
    (h : checkScope rcgen key params = .ok ()) :
    SpiffeId.fromStr key.targetSvidId.display = .ok key.targetSvidId := by
  rw [checkScope] at h
  split at h
  · split at h
    · cases h
    · split at h
      · cases h
      · rename_i csrSpiffeId hparse
        obtain ⟨hne, -⟩ := Fallible.throw_if_ok_iff.mp h
        rw [← not_not.mp hne, SpiffeId.display_of_fromStr hparse]
        exact hparse
  · cases h

namespace DelegatedLeaf

variable (leaf : DelegatedLeaf rcgen base64 key)
  {parseX509Certificate : Bytes → Option (List ParsedExtension)}

/-- Every leaf names the target of the key. -/
theorem extractSpiffeId_eq (hreads : ReadsNames rcgen parseX509Certificate) :
    extractSpiffeId parseX509Certificate leaf.der = .ok key.targetSvidId := by
  have hsigned := leaf.signed
  rw [signLeaf_eq_bind] at hsigned
  simp only [Fallible.bind_ok_iff, Fallible.okOr_ok_iff] at hsigned
  obtain ⟨call, hcall, hcert⟩ := hsigned
  obtain ⟨-, csrParams, -, -, hscope, -⟩ := signingCall_ok_iff.mp hcall
  obtain ⟨extensions, hextensions, hfound⟩ := hreads hcert (params_of_signingCall hcall).1
  refine extractSpiffeId_ok_iff.mpr ⟨key.targetSvidId.display,
    ⟨extensions, _, hextensions, hfound, ?_⟩, fromStr_target_of_checkScope hscope⟩
  rw [List.findSome?_cons, GeneralName.spiffeUri, if_pos (scheme_display key.targetSvidId)]

end DelegatedLeaf

end

/-- A renewal from the request to the reader. It is refused with the error of the first
failed check, or granted and then up to the library alone; what is handed to the library
names the key's target and carries the workload's own public key. A returned leaf is read
as the key's target, and a workload that parsed its identity is that target. -/
theorem renewal_outcome (rcgen : Rcgen) (base64 : Bytes → String) (lib : RequestLibrary rcgen)
    (laws : RequestLaws lib) (parseX509Certificate : Bytes → Option (List ParsedExtension))
    (hreads : ReadsNames rcgen parseX509Certificate) (key : DelegatedSigningKey) (id : SpiffeId)
    (keypair : rcgen.KeyPair) (csr : Csr) (hcsr : buildCsr lib id keypair = .ok csr)
    (newValidity : Duration) (currentUnixTime : UInt64) :
    let signed := signSvidDelegated rcgen base64 key csr.der newValidity currentUnixTime
    (∀ failure, Refused key id newValidity currentUnixTime failure → signed = .error failure) ∧
    (Granted key id newValidity currentUnixTime ↔
      ¬ ∃ failure, Refused key id newValidity currentUnixTime failure) ∧
    (Granted key id newValidity currentUnixTime → ∃ params,
      params.subjectAltNames = [.uri key.targetSvidId.display] ∧
      params.distinguishedName = lib.commonName key.targetSvidId.display ∧
      params.customExtensions = stampedExtensions key ∧
      params.notBefore = asI64 currentUnixTime ∧
      params.notAfter = asI64 currentUnixTime + asI64 newValidity.asSecs ∧
      signed = X509.encode <$> (delegatedIssuer rcgen base64 key >>= fun issuer =>
        Fallible.okOr (rcgen.signedBy params (lib.publicKey keypair) issuer)
          (.err .validationFailed))) ∧
    ∀ leaf, signed = .ok leaf →
      Granted key id newValidity currentUnixTime ∧
      (∃ cert : X509, leaf = cert.encode ∧ cert.subject = lib.commonName id.display ∧
        cert.subjectPublicKeyInfo = lib.publicKey keypair) ∧
      extractSpiffeId parseX509Certificate leaf = .ok key.targetSvidId ∧
      ∀ text, SpiffeId.fromStr text = .ok id → id = key.targetSvidId := by
  intro signed
  obtain ⟨parsed, hparsed, hsans, hsubject⟩ := laws.parsed_of_buildCsr hcsr
  have hrefused : ∀ failure, Refused key id newValidity currentUnixTime failure →
      signed = .error failure := by
    intro failure h
    rw [show signed = X509.encode <$> _ from rfl, h.signLeaf_eq hparsed hsans]
    rfl
  have hgranted : Granted key id newValidity currentUnixTime → signed = X509.encode <$> _ :=
    fun h => congrArg (X509.encode <$> ·) (h.signLeaf_eq hparsed hsans)
  refine ⟨hrefused, granted_iff_not_refused, fun h => ?_, fun leaf hleaf => ?_⟩
  · have hdisplay := SpiffeId.display_of_fromStr h.target
    refine ⟨grantedParams key newValidity currentUnixTime parsed, ?_, ?_, ?_, rfl, rfl, hgranted h⟩
    · rw [hdisplay]
      exact hsans
    · rw [hdisplay]
      exact hsubject
    · exact congrArg (· ++ stampedExtensions key) (rcgen.csr_customExtensions hparsed)
  · have h : Granted key id newValidity currentUnixTime := by
      rw [granted_iff_not_refused]
      rintro ⟨failure, hfailure⟩
      cases (hrefused failure hfailure).symm.trans hleaf
    have hdisplay := SpiffeId.display_of_fromStr h.target
    obtain ⟨cert, hcert, rfl⟩ := Fallible.map_ok_iff.mp hleaf
    let leaf : DelegatedLeaf rcgen base64 key :=
      ⟨csr.der, newValidity, currentUnixTime, cert, hcert⟩
    rw [h.signLeaf_eq hparsed hsans] at hcert
    simp only [Fallible.bind_ok_iff, Fallible.okOr_ok_iff] at hcert
    obtain ⟨issuer, -, hsigned⟩ := hcert
    obtain ⟨hcertSubject, hkey⟩ := rcgen.signed_subject hsigned
    exact ⟨h, ⟨cert, rfl, hcertSubject.trans hsubject, hkey⟩, leaf.extractSpiffeId_eq hreads,
      fun text htext => SpiffeId.eq_of_display_eq htext h.target hdisplay.symm⟩

namespace Sample

def plainRequest (requested : CertificateParams Unit) : Option Bytes :=
  if requested.distinguishedName = plainSubject ∧ requested.subjectAltNames = [.uri uri] then
    some plainCsr
  else none

theorem plainRequest_eq_some_iff {requested : CertificateParams Unit} {der : Bytes} :
    plainRequest requested = some der ↔ der = plainCsr ∧
      requested.distinguishedName = plainSubject ∧ requested.subjectAltNames = [.uri uri] := by
  rw [plainRequest]
  split
  · rename_i hmatch
    simp only [hmatch, and_self, and_true, Option.some.injEq, eq_comm]
  · rename_i hother
    exact iff_of_false (Option.some_ne_none der).symm fun h => hother h.2

/-- Makes the plain request. -/
def requestLibrary : RequestLibrary rcgen where
  newParams := some ⟨[], [], (), [], 0, 0⟩
  ia5String text := if text.toList.all fun c => c.toNat < 128 then some text else none
  commonName text := commonName 0x0C (Text.utf8 text)
  withUsages _ _ _ _ := ()
  serializeRequest requested _ := plainRequest requested
  publicKey _ := spki

theorem requestLaws : RequestLaws requestLibrary where
  new h := by
    obtain rfl := Option.some.inj h
    exact ⟨rfl, rfl⟩
  ia5 := by
    intro text found
    have hascii : (text.toList.all fun c => c.toNat < 128) = true ↔
        ∀ c ∈ text.toList, c.toNat < 128 := by simp
    have hia5 : requestLibrary.ia5String text =
        if text.toList.all fun c => c.toNat < 128 then some text else none := rfl
    rw [hia5, ← hascii]
    split
    · rename_i hall
      exact ⟨fun h => ⟨(Option.some.inj h).symm, hall⟩, fun h => congrArg some h.1.symm⟩
    · rename_i hnot
      exact iff_of_false (Option.some_ne_none found).symm fun h => hnot h.2
  parsed := by
    intro requested _ der h _
    obtain ⟨rfl, hsubject, hsans⟩ := plainRequest_eq_some_iff.mp h
    have hreader : rcgen.csrFromDer = csrFromDer := rfl
    refine ⟨params plainSubject, ?_, hsans.symm, hsubject.symm⟩
    rw [hreader, csrFromDer_plainCsr]
    rfl

/-- The first element: its tag, its contents and what follows. -/
def readElement : Bytes → Option (UInt8 × Bytes × Bytes)
  | tag :: 0x82 :: high :: low :: rest => splitAt tag (high.toNat * 256 + low.toNat) rest
  | tag :: 0x81 :: low :: rest => splitAt tag low.toNat rest
  | tag :: len :: rest => if len.toNat < 0x80 then splitAt tag len.toNat rest else none
  | _ => none
where
  splitAt (tag : UInt8) (len : Nat) (rest : Bytes) : Option (UInt8 × Bytes × Bytes) :=
    if len ≤ rest.length then some (tag, rest.take len, rest.drop len) else none

/-- The first `fuel` elements at most. -/
def readElements : Nat → Bytes → Option (List (UInt8 × Bytes))
  | 0, bytes => if bytes = [] then some [] else none
  | fuel + 1, bytes =>
      if bytes = [] then some []
      else do
        let (tag, contents, rest) ← readElement bytes
        let elements ← readElements fuel rest
        return (tag, contents) :: elements

def readName : UInt8 × Bytes → Option GeneralName
  | (0x86, contents) => (Text.fromUtf8 contents).map .uri
  | _ => some .other

def readExtension (body : Bytes) : Option ParsedExtension := do
  let elements ← readElements 3 body
  let oid ← elements.head?
  let value ← elements.getLast?
  if oid = (0x06, [0x55, 0x1D, 0x11]) then
    let (_, names, _) ← readElement value.2
    let names ← readElements names.length names
    return .subjectAlternativeName (← names.mapM readName)
  else return .other

/-- The entries of the extension block of a certificate. -/
def parseX509Certificate (der : Bytes) : Option (List ParsedExtension) := do
  let (_, certificate, _) ← readElement der
  let (_, tbs, _) ← readElement certificate
  let fields ← readElements 10 tbs
  let (_, block) ← fields.find? fun field => field.1 = 0xA3
  let (_, entries, _) ← readElement block
  let entries ← readElements entries.length entries
  entries.mapM fun entry => readExtension entry.2

theorem parsed_plainCert : parseX509Certificate plainCert.encode =
    some [.subjectAlternativeName [.uri uri], .other, .other] := by
  decide +kernel

theorem parsed_forgedCert : parseX509Certificate forgedCert.encode =
    some [.subjectAlternativeName [.uri uri], .other, .other] := by
  decide +kernel

theorem readsNames : ReadsNames rcgen parseX509Certificate := by
  intro requested publicKey issuer cert found hsigned hsans
  obtain ⟨-, ⟨rfl, rfl⟩ | ⟨rfl, rfl⟩⟩ := signedBy_cases hsigned
  · obtain rfl := SanType.uri.inj (List.cons.inj hsans).1
    exact ⟨_, parsed_plainCert, rfl⟩
  · obtain rfl := SanType.uri.inj (List.cons.inj hsans).1
    exact ⟨_, parsed_forgedCert, rfl⟩

end Sample

/-- The sample workload asks for 500 seconds and its leaf is read as its identity. -/
theorem renewal_outcome_of_sample :
    ∃ csr leaf, buildCsr Sample.requestLibrary ⟨"td", "t", .sa, "db"⟩ () = .ok csr ∧
      signSvidDelegated Sample.rcgen Sample.base64 Sample.key csr.der ⟨500, 0⟩ 1000 =
        .ok leaf ∧
      extractSpiffeId Sample.parseX509Certificate leaf = .ok ⟨"td", "t", .sa, "db"⟩ := by
  have hbuild : buildCsr Sample.requestLibrary ⟨"td", "t", .sa, "db"⟩ () =
      .ok ⟨Sample.plainCsr⟩ := by
    have hprinted : (⟨"td", "t", .sa, "db"⟩ : SpiffeId).display = Sample.uri := by decide
    simp only [buildCsr, Fallible.bind_ok_iff, Fallible.okOr_ok_iff, Fallible.pure_ok_iff]
    rw [hprinted]
    have hrequest : ∀ requested : CertificateParams Unit,
        requested.distinguishedName = Sample.plainSubject →
        requested.subjectAltNames = [.uri Sample.uri] →
          Sample.requestLibrary.serializeRequest requested () = some Sample.plainCsr :=
      fun _ hsubject hsans => Sample.plainRequest_eq_some_iff.mpr ⟨rfl, hsubject, hsans⟩
    exact ⟨_, rfl, Sample.uri, by decide, Sample.plainCsr, hrequest _ rfl rfl, rfl⟩
  obtain ⟨-, -, hgranted, hread⟩ := renewal_outcome Sample.rcgen Sample.base64
    Sample.requestLibrary Sample.requestLaws Sample.parseX509Certificate Sample.readsNames
    Sample.key _ () _ hbuild ⟨500, 0⟩ 1000
  obtain ⟨⟨subject, names, settings, custom, notBefore, notAfter⟩, hnames, hsubject, hcustom,
    hbefore, hafter, hsigned⟩ := hgranted ⟨by decide, by decide, by decide, by decide, by decide⟩
  dsimp only at hnames hsubject hcustom hbefore hafter
  subst hnames hsubject hcustom hbefore hafter
  have hmade : (delegatedIssuer Sample.rcgen Sample.base64 Sample.key >>= fun issuer =>
      Fallible.okOr (Sample.rcgen.signedBy (Sample.stamped Sample.plainSubject)
        (Sample.requestLibrary.publicKey ()) issuer) (.err .validationFailed)) =
          .ok Sample.plainCert :=
    Fallible.bind_ok_iff.mpr ⟨(), Sample.delegatedIssuer_key,
      Fallible.okOr_ok_iff.mpr Sample.signedBy_plain⟩
  have hleaf := hsigned.trans (congrArg (X509.encode <$> ·) hmade)
  exact ⟨_, Sample.plainCert.encode, hbuild, hleaf, (hread _ hleaf).2.2.1⟩

end Fleetos.Svid
