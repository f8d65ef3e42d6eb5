import FleetosCore.Identity.Serde

/-!
# Identities taken from certificates

`extract_spiffe_id` and `validate_svid` of `src/spiffe.rs`, as built with the `ca`
feature. The certificate parser and the chain verifier are parameters: the first gives
the parsed extensions, the second a root store, a verifier and its answer.

An identity returned by either function was parsed from a URI name by the same parser
that the serde form uses. That parser and the check of `TenantId::new` agree on slashes
and on nothing else.
-/

namespace Fleetos.Svid

/-! ## The libraries -/

inductive GeneralName where
  | uri (uri : String)
  | other
  deriving DecidableEq, Repr

/-- An extension as the certificate parser returns it. -/
inductive ParsedExtension where
  | subjectAlternativeName (generalNames : List GeneralName)
  | other
  deriving DecidableEq, Repr

def ParsedExtension.isSubjectAlternativeName : ParsedExtension → Bool
  | .subjectAlternativeName _ => true
  | .other => false

def ParsedExtension.generalNames : ParsedExtension → Except SvidError (List GeneralName)
  | .subjectAlternativeName generalNames => pure generalNames
  | .other => throw .invalidFormat

/-- The chain verifier; times are seconds since the epoch. -/
structure Rustls where
  RootCertStore : Type
  ClientCertVerifier : Type
  empty : RootCertStore
  add : RootCertStore → Bytes → Option RootCertStore
  build : RootCertStore → Option ClientCertVerifier
  verifyClientCert : ClientCertVerifier → Bytes → List Bytes → Nat → Bool

/-! ## The two functions -/

/-- A URI name with the SPIFFE scheme. -/
def GeneralName.spiffeUri : GeneralName → Option String
  | .uri text => if "spiffe://".toList.isPrefixOf text.toList then some text else none
  | .other => none

def extractSpiffeId (parseX509Certificate : Bytes → Option (List ParsedExtension))
    (certDer : Bytes) : Except SvidError SpiffeId := do
  let extensions ← Fallible.okOr (parseX509Certificate certDer) .invalidFormat
  let sanExt ← Fallible.okOr (extensions.find? ParsedExtension.isSubjectAlternativeName)
    .invalidFormat
  let generalNames ← sanExt.generalNames
  -- The loop stops at the first hit.
  let uri ← Fallible.okOr (generalNames.findSome? GeneralName.spiffeUri) .invalidFormat
  (SpiffeId.fromStr uri).mapError fun _ => .invalidFormat

structure TrustBundle where
  trustDomain : String
  roots : List Bytes
  deriving DecidableEq, Repr

/-- `clock` is `none` before the epoch; the time then counts as zero. -/
def validateSvid (rustls : Rustls)
    (parseX509Certificate : Bytes → Option (List ParsedExtension)) (clock : Option Nat)
    (certDer : Bytes) (trustBundle : TrustBundle) : Except SvidError SpiffeId := do
  let rootStore ← trustBundle.roots.foldlM
    (fun rootStore root => Fallible.okOr (rustls.add rootStore root) .validationFailed)
    rustls.empty
  let verifier ← Fallible.okOr (rustls.build rootStore) .validationFailed
  let now := clock.getD 0
  if ¬ rustls.verifyClientCert verifier certDer [] now then throw .validationFailed
  let spiffeId ← extractSpiffeId parseX509Certificate certDer
  if spiffeId.trustDomain ≠ trustBundle.trustDomain then throw .validationFailed
  pure spiffeId

/-! ## What they return -/

section

variable (rustls : Rustls) (parseX509Certificate : Bytes → Option (List ParsedExtension))
variable (clock : Option Nat) (certDer : Bytes) (trustBundle : TrustBundle)

/-- The first URI name with the SPIFFE scheme in the first extension of subject
alternative names. -/
def NamedBy (uri : String) : Prop :=
  ∃ extensions generalNames, parseX509Certificate certDer = some extensions ∧
    extensions.find? ParsedExtension.isSubjectAlternativeName =
      some (.subjectAlternativeName generalNames) ∧
    generalNames.findSome? GeneralName.spiffeUri = some uri

/-- The bundle's roots are usable and the chain verifies now. -/
def ChainVerified : Prop :=
  ∃ rootStore verifier,
    trustBundle.roots.foldlM
        (fun rootStore root => Fallible.okOr (rustls.add rootStore root) SvidError.validationFailed)
        rustls.empty = .ok rootStore ∧
      rustls.build rootStore = some verifier ∧
      rustls.verifyClientCert verifier certDer [] (clock.getD 0) = true

variable {parseX509Certificate certDer} {id : SpiffeId}

theorem extractSpiffeId_ok_iff :
    extractSpiffeId parseX509Certificate certDer = .ok id ↔
      ∃ uri, NamedBy parseX509Certificate certDer uri ∧ SpiffeId.fromStr uri = .ok id := by
  simp only [extractSpiffeId, NamedBy, Fallible.bind_ok_iff, Fallible.okOr_ok_iff,
    Fallible.mapError_ok_iff]
  constructor
  · rintro ⟨extensions, hparse, sanExt, hfind, generalNames, hnames, uri, huri, hid⟩
    cases sanExt with
    | subjectAlternativeName names =>
        obtain rfl := Fallible.pure_ok_iff.mp hnames
        exact ⟨uri, ⟨extensions, names, hparse, hfind, huri⟩, hid⟩
    | other => cases hnames
  · rintro ⟨uri, ⟨extensions, generalNames, hparse, hfind, huri⟩, hid⟩
    exact ⟨extensions, hparse, _, hfind, generalNames, rfl, uri, huri, hid⟩

variable {rustls clock trustBundle}

theorem validateSvid_ok_iff :
    validateSvid rustls parseX509Certificate clock certDer trustBundle = .ok id ↔
      ChainVerified rustls clock certDer trustBundle ∧
        extractSpiffeId parseX509Certificate certDer = .ok id ∧
        id.trustDomain = trustBundle.trustDomain := by
  simp only [validateSvid, ChainVerified, Fallible.bind_ok_iff, Fallible.okOr_ok_iff,
    Fallible.throw_if_bind_ok_iff, Fallible.pure_ok_iff, not_not]
  constructor
  · rintro ⟨rootStore, hstore, verifier, hbuild, hverify, found, hfound, hdomain, rfl⟩
    exact ⟨⟨rootStore, verifier, hstore, hbuild, hverify⟩, hfound, hdomain⟩
  · rintro ⟨⟨rootStore, verifier, hstore, hbuild, hverify⟩, hfound, hdomain⟩
    exact ⟨rootStore, hstore, verifier, hbuild, hverify, id, hfound, hdomain, rfl⟩

end

/-! ## Tenants of parsed identities -/

/-- What the tenant check refuses besides a slash. -/
def RefusedTenant (tenant : String) : Prop :=
  tenant = "" ∨ 64 < (Text.utf8 tenant).length ∨ '\x00' ∈ tenant.toList ∨ tenant = ".."

/-- The text spells this identity, and the tenant check refuses its tenant. -/
structure SpellsRefused (s : String) (id : SpiffeId) : Prop where
  spelling : s = id.display
  trustDomain : Text.EndsAtFirst "/ns/".toList id.trustDomain.toList
  noSlash : '/' ∉ id.tenant.toList
  refused : RefusedTenant id.tenant

theorem not_accepted_iff {tenant : String} (h : '/' ∉ tenant.toList) :
    (¬ ∃ accepted, TenantId.new tenant = .ok accepted) ↔ RefusedTenant tenant := by
  have hvalid : (∃ accepted, TenantId.new tenant = .ok accepted) ↔ TenantId.Valid tenant := by
    constructor
    · rintro ⟨accepted, hnew⟩
      exact (TenantId.new_ok_iff.mp hnew).2
    · intro hvalid
      exact ⟨⟨tenant⟩, TenantId.new_ok_iff.mpr ⟨rfl, hvalid⟩⟩
  rw [hvalid, TenantId.valid_iff, RefusedTenant]
  simp only [h, not_and_or, not_not, Nat.not_le, false_or]

/-- A refused tenant is returned exactly off the texts that spell one. -/
theorem fromStr_refused_iff {s : String} {id : SpiffeId} :
    (SpiffeId.fromStr s = .ok id ∧ ¬ ∃ accepted, TenantId.new id.tenant = .ok accepted) ↔
      SpellsRefused s id := by
  constructor
  · rintro ⟨hparse, hrefused⟩
    obtain ⟨hs, hends, hslash⟩ := SpiffeId.fromStr_ok_iff.mp hparse
    exact ⟨hs, hends, hslash, (not_accepted_iff hslash).mp hrefused⟩
  · rintro ⟨hs, hends, hslash, hrefused⟩
    exact ⟨SpiffeId.fromStr_ok_iff.mpr ⟨hs, hends, hslash⟩, (not_accepted_iff hslash).mpr hrefused⟩

/-- The parser, the serde form and the two certificate functions return identities with
accepted tenants exactly where no text they parse spells a refused one. -/
theorem parsed_tenant_accepted_iff (s : String) (rustls : Rustls)
    (parseX509Certificate : Bytes → Option (List ParsedExtension)) (clock : Option Nat)
    (certDer : Bytes) (trustBundle : TrustBundle) :
    ((∀ id, SpiffeId.fromStr s = .ok id → ∃ accepted, TenantId.new id.tenant = .ok accepted) ↔
      ∀ id, ¬ SpellsRefused s id) ∧
    ((∀ id, SpiffeId.deserialize s = .ok id → ∃ accepted, TenantId.new id.tenant = .ok accepted) ↔
      ∀ id, ¬ SpellsRefused s id) ∧
    ((∀ id, extractSpiffeId parseX509Certificate certDer = .ok id →
        ∃ accepted, TenantId.new id.tenant = .ok accepted) ↔
      ∀ uri, NamedBy parseX509Certificate certDer uri → ∀ id, ¬ SpellsRefused uri id) ∧
    ((∀ id, validateSvid rustls parseX509Certificate clock certDer trustBundle = .ok id →
        ∃ accepted, TenantId.new id.tenant = .ok accepted) ↔
      (ChainVerified rustls clock certDer trustBundle →
        ∀ uri, NamedBy parseX509Certificate certDer uri → ∀ id,
          id.trustDomain = trustBundle.trustDomain → ¬ SpellsRefused uri id)) := by
  have hparser : ∀ text id, (SpiffeId.fromStr text = .ok id →
      ∃ accepted, TenantId.new id.tenant = .ok accepted) ↔ ¬ SpellsRefused text id := by
    intro text id
    rw [← fromStr_refused_iff, not_and, not_not]
  refine ⟨forall_congr' (hparser s), ?_, ?_, ?_⟩
  · simp only [SpiffeId.deserialize_ok_iff, hparser]
  · simp only [extractSpiffeId_ok_iff]
    constructor
    · intro h uri huri id
      exact (hparser uri id).mp fun hid => h id ⟨uri, huri, hid⟩
    · rintro h id ⟨uri, huri, hid⟩
      exact (hparser uri id).mpr (h uri huri id) hid
  · simp only [validateSvid_ok_iff, extractSpiffeId_ok_iff]
    constructor
    · intro h hchain uri huri id hdomain
      exact (hparser uri id).mp fun hid => h id ⟨hchain, ⟨uri, huri, hid⟩, hdomain⟩
    · rintro h id ⟨hchain, ⟨uri, huri, hid⟩, hdomain⟩
      exact (hparser uri id).mpr (h hchain uri huri id hdomain) hid

/-- An empty tenant parses. -/
theorem empty_tenant_parsed :
    ¬ ∀ (s : String) (id : SpiffeId), SpiffeId.fromStr s = .ok id →
      ∃ accepted, TenantId.new id.tenant = .ok accepted := by
  intro h
  obtain ⟨accepted, hnew⟩ := h "spiffe://td/ns//sa/db" ⟨"td", "", .sa, "db"⟩ (by decide)
  cases hnew

end Fleetos.Svid
