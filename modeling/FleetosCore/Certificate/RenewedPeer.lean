import FleetosCore.Certificate.ExtensionCodec
import FleetosCore.Certificate.Renewal
import FleetosCore.Identity.Fingerprint

/-!
# What a peer makes of a renewed leaf

The holder of a delegated key signs whatever request passes its checks, and a peer validates
the leaf, reads the role and the ordinal off it and routes by the fingerprint of the identity
and the role. The identity is the key's target on every leaf, whatever the request was. The
other readings are the key's as far as the readers are not led astray by the rest of the
certificate and the values survive their encodings.
-/

namespace Fleetos.Svid

open Text (utf8)

section

variable {rustls : Rustls} {parseX509Certificate : Bytes → Option (List ParsedExtension)}
  {clock : Option Nat} {certDer : Bytes} {trustBundle : TrustBundle} {id : SpiffeId}

/-- On a certificate that names an identity there is one error. -/
theorem validateSvid_error {e : SvidError}
    (hid : extractSpiffeId parseX509Certificate certDer = .ok id)
    (h : validateSvid rustls parseX509Certificate clock certDer trustBundle = .error e) :
    e = .validationFailed := by
  simp only [validateSvid, hid, Fallible.bind_error_iff, Fallible.okOr_error_iff,
    Fallible.throw_if_bind_error_iff, Fallible.ok_bind, Fallible.pure_ne_error, or_false,
    and_false] at h
  obtain hroots | ⟨_, -, ⟨-, rfl⟩ | ⟨_, -, ⟨-, rfl⟩ | ⟨-, -, rfl⟩⟩⟩ := h
  · obtain ⟨_, _, hadd⟩ := Fallible.foldlM_error hroots
    exact (Fallible.okOr_error_iff.mp hadd).2.symm
  · rfl
  · rfl
  · rfl

end

/-- The text read off a role's own value is the role's exactly when the length fits its prefix
and the reader's check passes. -/
theorem text_decodeRole_iff {role : WorkloadRole} :
    WorkloadRole.text (decodeRole (roleExtension role.asStr).content) = role.asStr ↔
      (utf8 role.asStr).length < 2 ^ 16 ∧ '\x00' ∉ role.asStr.toList := by
  rw [← decodeRole_roleExtension_iff]
  constructor
  · intro htext
    cases hdecode : decodeRole (roleExtension role.asStr).content with
    | some read =>
        rw [hdecode] at htext
        cases read
        exact congrArg some (congrArg WorkloadRole.mk htext)
    | none =>
        rw [hdecode] at htext
        have hempty : role.asStr = "" := htext.symm
        rw [decodeRole_roleExtension_iff.mpr (by rw [hempty]; decide)] at hdecode
        cases hdecode
  · intro hdecode
    rw [hdecode]
    rfl

/-- The role survives its encoding. -/
def DelegatedSigningKey.RoleFits (key : DelegatedSigningKey) : Prop :=
  ∀ role ∈ key.targetRole, (utf8 role.asStr).length < 2 ^ 16 ∧ '\x00' ∉ role.asStr.toList

/-- The ordinal survives its encoding. -/
def DelegatedSigningKey.OrdinalFits (key : DelegatedSigningKey) : Prop :=
  ∀ ordinal ∈ key.targetOrdinal, ordinal.toNat < 2 ^ 31

section

variable {key : DelegatedSigningKey}

theorem stampedReadings_role_iff :
    key.stampedReadings.role = key.targetRole ↔ key.RoleFits := by
  rw [DelegatedSigningKey.stampedReadings, DelegatedSigningKey.RoleFits]
  cases key.targetRole with
  | none => simp [Readings.decode]
  | some role =>
      simp only [Readings.decode, Option.map_some, Option.bind_some, Option.mem_def,
        Option.some.injEq, forall_eq']
      exact decodeRole_roleExtension_iff

theorem stampedReadings_text_iff :
    WorkloadRole.text key.stampedReadings.role = WorkloadRole.text key.targetRole ↔
      key.RoleFits := by
  rw [DelegatedSigningKey.stampedReadings, DelegatedSigningKey.RoleFits]
  cases key.targetRole with
  | none => simp [Readings.decode]
  | some role =>
      simp only [Readings.decode, Option.map_some, Option.bind_some, Option.mem_def,
        Option.some.injEq, forall_eq']
      exact text_decodeRole_iff

theorem stampedReadings_ordinal_iff :
    key.stampedReadings.ordinal = key.targetOrdinal ↔ key.OrdinalFits := by
  rw [DelegatedSigningKey.stampedReadings, DelegatedSigningKey.OrdinalFits]
  cases key.targetOrdinal with
  | none => simp [Readings.decode]
  | some ordinal =>
      simp only [Readings.decode, Option.map_some, Option.bind_some, Option.mem_def,
        Option.some.injEq, forall_eq']
      exact decodeOrdinal_ordinalExtension_iff

theorem stampedReadings_degraded : key.stampedReadings.degraded = true := rfl

end

/-- The fingerprint of an identity is fed the text of the role. -/
theorem fedBytes_role_iff (id : SpiffeId) (role role' : Option WorkloadRole) :
    IdentityFingerprint.fedBytes id role = IdentityFingerprint.fedBytes id role' ↔
      WorkloadRole.text role = WorkloadRole.text role' := by
  rw [IdentityFingerprint.fedBytes_eq, IdentityFingerprint.fedBytes_eq, List.append_right_inj,
    List.cons_inj_right]
  exact ⟨fun h => Text.utf8_injective h, fun h => congrArg utf8 h⟩

/-- A peer with a leaf that a delegated key signed, for any request. Validation returns the
key's target and nothing else, exactly if the chain verifies and the bundle is the target's
trust domain's, and has one error. Where the readers are undisturbed the leaf is read as
degraded, with the key's ordinal exactly if it is below 2^31, and with the key's role exactly if
that fits its encoding; only then is the peer's routing fingerprint fed as the key's scope. -/
theorem renewed_peer_view (rcgen : Rcgen) (base64 : Bytes → String)
    (parseX509Certificate : Bytes → Option (List ParsedExtension))
    (hreads : ReadsNames rcgen parseX509Certificate) (key : DelegatedSigningKey)
    (leaf : DelegatedLeaf rcgen base64 key) :
    (∀ (rustls : Rustls) (clock : Option Nat) (trustBundle : TrustBundle),
      let validated := validateSvid rustls parseX509Certificate clock leaf.der trustBundle
      (∀ id, validated = .ok id ↔ id = key.targetSvidId ∧
        key.targetSvidId.trustDomain = trustBundle.trustDomain ∧
        ChainVerified rustls clock leaf.der trustBundle) ∧
      ∀ e, validated = .error e → e = .validationFailed) ∧
    (leaf.certificate.ReadersUndisturbed →
      isDegraded leaf.der = true ∧
      (extractOrdinal leaf.der = key.targetOrdinal ↔ key.OrdinalFits) ∧
      (extractRole leaf.der = key.targetRole ↔ key.RoleFits) ∧
      (IdentityFingerprint.fedBytes key.targetSvidId (extractRole leaf.der) =
        IdentityFingerprint.fedBytes key.targetSvidId key.targetRole ↔ key.RoleFits)) := by
  have hid := leaf.extractSpiffeId_eq hreads
  refine ⟨fun rustls clock trustBundle => ⟨fun id => ?_, fun e he => validateSvid_error hid he⟩,
    fun hundisturbed => ?_⟩
  · rw [validateSvid_ok_iff, hid, Except.ok.injEq]
    constructor
    · rintro ⟨hchain, rfl, hdomain⟩
      exact ⟨rfl, hdomain, hchain⟩
    · rintro ⟨rfl, hdomain, hchain⟩
      exact ⟨hchain, rfl, hdomain⟩
  · have hreadings : readings leaf.der = key.stampedReadings := by
      rw [← leaf.structuralReadings_eq]
      exact leaf.certificate.readings_eq_iff.mpr hundisturbed
    rw [readings] at hreadings
    have hrole := congrArg Readings.role hreadings
    have hordinal := congrArg Readings.ordinal hreadings
    have hdegraded := congrArg Readings.degraded hreadings
    dsimp only at hrole hordinal hdegraded
    rw [fedBytes_role_iff, hrole, hordinal, hdegraded]
    exact ⟨stampedReadings_degraded, stampedReadings_ordinal_iff, stampedReadings_role_iff,
      stampedReadings_text_iff⟩

namespace Sample

def addRoot (store : List Bytes) (root : Bytes) : Option (List Bytes) :=
  if root = caCert.encode then some (root :: store) else none

/-- Trusts the certificate of the delegated key and knows its signature of the plain leaf. -/
def leafRustls : Rustls where
  RootCertStore := List Bytes
  ClientCertVerifier := List Bytes
  empty := []
  add := addRoot
  build store := if store = [] then none else some store
  verifyClientCert roots endEntity _ now :=
    roots.contains caCert.encode && endEntity == plainCert.encode && decide (1000 ≤ now) &&
      decide (now ≤ 1500)

theorem plainLeaf_chainVerified :
    ChainVerified leafRustls (some 1200) plainLeaf.der ⟨"td", [caCert.encode]⟩ := by
  have hroot : addRoot [] caCert.encode = some [caCert.encode] := by rw [addRoot, if_pos rfl]
  refine ⟨[caCert.encode], [caCert.encode], ?_, rfl, by decide +kernel⟩
  have hadd : leafRustls.add = addRoot := rfl
  have hempty : leafRustls.empty = [] := rfl
  rw [List.foldlM_cons, hadd, hempty, hroot]
  rfl

end Sample

/-- A peer validates the plain leaf within its window and routes it as the replica. -/
theorem renewed_peer_view_of_sample :
    validateSvid Sample.leafRustls Sample.parseX509Certificate (some 1200) Sample.plainLeaf.der
        ⟨"td", [Sample.caCert.encode]⟩ = .ok ⟨"td", "t", .sa, "db"⟩ ∧
      IdentityFingerprint.fedBytes ⟨"td", "t", .sa, "db"⟩ (extractRole Sample.plainLeaf.der) =
        IdentityFingerprint.fedBytes ⟨"td", "t", .sa, "db"⟩ (some ⟨"replica"⟩) := by
  obtain ⟨hvalidated, hread⟩ := renewed_peer_view Sample.rcgen Sample.base64
    Sample.parseX509Certificate Sample.readsNames Sample.key Sample.plainLeaf
  have hundisturbed : Sample.plainLeaf.certificate.ReadersUndisturbed := by
    rw [← Sample.plainLeaf.certificate.readings_eq_iff, Sample.plainLeaf.structuralReadings_eq]
    exact Sample.plainLeaf_readings
  obtain ⟨-, -, -, hrouted⟩ := hread hundisturbed
  refine ⟨((hvalidated Sample.leafRustls (some 1200) ⟨"td", [Sample.caCert.encode]⟩).1 _).mpr
    ⟨rfl, rfl, Sample.plainLeaf_chainVerified⟩, hrouted.mpr fun role hrole => ?_⟩
  obtain rfl := Option.some.inj hrole
  decide

end Fleetos.Svid
