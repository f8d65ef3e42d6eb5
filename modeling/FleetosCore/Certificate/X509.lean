import FleetosCore.Certificate.Reader

/-!
# Certificates and their structural reading

An X.509 v3 certificate as its fields, with its DER encoding. Contents octets of
the fields the readers have no business with (names, keys, signatures) are arbitrary
bytes here, so that every well-formed certificate is covered and more.

The structural reading looks up an entry of the extension list by its `extnID`. It
is compared with the byte scan for any decoder: the two agree exactly when the first
lookalike ahead of the entry, if there is one, decodes to the same thing.
-/

namespace Fleetos.Svid

structure Extension where
  /-- Contents octets of the object identifier. -/
  extnId : Bytes
  critical : Bool
  extnValue : Bytes
  deriving DecidableEq, Repr

namespace Extension

/-- The default `FALSE` is left out. -/
def criticalDer (e : Extension) : Bytes := if e.critical then Der.tlv 0x01 [0xFF] else []

def body (e : Extension) : Bytes :=
  Der.tlv 0x06 e.extnId ++ (e.criticalDer ++ Der.tlv 0x04 e.extnValue)

def encode (e : Extension) : Bytes := Der.tlv 0x30 e.body

/-- The octets ahead of the contents octets of `extnID`. -/
def lead (e : Extension) : Bytes :=
  0x30 :: (Der.length e.body.length ++ 0x06 :: Der.length e.extnId.length)

theorem encode_eq (e : Extension) :
    e.encode = e.lead ++ (e.extnId ++ (e.criticalDer ++ Der.tlv 0x04 e.extnValue)) := by
  rw [encode, Der.tlv, lead, body, Der.tlv]
  simp only [List.cons_append, List.append_assoc]

theorem critical_criticalDer (e : Extension) : Critical e.criticalDer := by
  rw [criticalDer]
  split
  · exact .present [0x01] [0xFF] (.short 0x01 (by decide))
  · exact .absent

end Extension

/-- Offset of the contents octets of the `extnID` equal to `oid`, and the value of that
entry, for an extension list that starts at `offset`. -/
def locate (oid : Bytes) : Nat → List Extension → Option (Nat × Bytes)
  | _, [] => none
  | offset, e :: es =>
      if e.extnId = oid then some (offset + e.lead.length, e.extnValue)
      else locate oid (offset + e.encode.length) es

theorem locate_eq_some {oid value : Bytes} {offset i : Nat} {es : List Extension}
    (h : locate oid offset es = some (i, value)) :
    ∃ before e after, es = before ++ e :: after ∧ e.extnId = oid ∧ e.extnValue = value ∧
      i = offset + (before.flatMap Extension.encode).length + e.lead.length := by
  induction es generalizing offset with
  | nil => cases h
  | cons e es ih =>
      rw [locate] at h
      split at h
      · rename_i hid
        obtain ⟨rfl, rfl⟩ := Prod.mk.inj (Option.some.inj h)
        exact ⟨[], e, es, rfl, hid, rfl, rfl⟩
      · obtain ⟨before, e', after, rfl, hid, hvalue, rfl⟩ := ih h
        refine ⟨e :: before, e', after, rfl, hid, hvalue, ?_⟩
        rw [List.flatMap_cons, List.length_append]
        omega

theorem locate_map_snd (oid : Bytes) (offset : Nat) (es : List Extension) :
    (locate oid offset es).map Prod.snd =
      (es.find? fun e => e.extnId = oid).map Extension.extnValue := by
  induction es generalizing offset with
  | nil => rfl
  | cons e es ih =>
      rw [locate]
      split
      · rename_i hid
        simp [hid]
      · rename_i hid
        rw [ih, List.find?_cons_of_neg (by simpa using hid)]

/-- The fields of a version 3 certificate; contents octets without tag and length. -/
structure X509 where
  serialNumber : Bytes
  signature : Bytes
  issuer : Bytes
  validity : Bytes
  subject : Bytes
  subjectPublicKeyInfo : Bytes
  issuerUniqueId : Option Bytes
  subjectUniqueId : Option Bytes
  extensions : List Extension
  signatureAlgorithm : Bytes
  signatureValue : Bytes
  /-- A definite length has at most 126 octets. -/
  encodable : ∀ e ∈ extensions, e.extnValue.length < 256 ^ 126

namespace X509

/-- The `TBSCertificate` fields ahead of the extensions. -/
def tbsHead (cert : X509) : Bytes :=
  [0xA0, 0x03, 0x02, 0x01, 0x02] ++ Der.tlv 0x02 cert.serialNumber ++
    Der.tlv 0x30 cert.signature ++ Der.tlv 0x30 cert.issuer ++ Der.tlv 0x30 cert.validity ++
    Der.tlv 0x30 cert.subject ++ Der.tlv 0x30 cert.subjectPublicKeyInfo ++
    (cert.issuerUniqueId.elim [] (Der.tlv 0x81)) ++ (cert.subjectUniqueId.elim [] (Der.tlv 0x82))

def extensionsDer (cert : X509) : Bytes := cert.extensions.flatMap Extension.encode

/-- The extension block is left out when there is no extension. -/
def tbsBody (cert : X509) : Bytes :=
  cert.tbsHead ++
    if cert.extensions = [] then [] else Der.tlv 0xA3 (Der.tlv 0x30 cert.extensionsDer)

def trailer (cert : X509) : Bytes :=
  Der.tlv 0x30 cert.signatureAlgorithm ++ Der.tlv 0x03 cert.signatureValue

def encode (cert : X509) : Bytes :=
  Der.tlv 0x30 (Der.tlv 0x30 cert.tbsBody ++ cert.trailer)

/-- The octets ahead of the first extension. -/
def lead (cert : X509) : Bytes :=
  0x30 :: (Der.length (Der.tlv 0x30 cert.tbsBody ++ cert.trailer).length ++
    0x30 :: (Der.length cert.tbsBody.length ++ (cert.tbsHead ++
      0xA3 :: (Der.length (Der.tlv 0x30 cert.extensionsDer).length ++
        0x30 :: Der.length cert.extensionsDer.length))))

theorem encode_eq {cert : X509} (h : cert.extensions ≠ []) :
    cert.encode = cert.lead ++ (cert.extensionsDer ++ cert.trailer) := by
  -- The lengths in front are the same on both sides; only what they count is unfolded.
  rw [encode, Der.tlv, lead]
  generalize Der.length (Der.tlv 0x30 cert.tbsBody ++ cert.trailer).length = outer
  rw [Der.tlv.eq_1 0x30 cert.tbsBody]
  generalize Der.length cert.tbsBody.length = inner
  rw [tbsBody, if_neg h, Der.tlv.eq_1 0xA3]
  generalize Der.length (Der.tlv 0x30 cert.extensionsDer).length = block
  simp only [Der.tlv, List.cons_append, List.append_assoc]

/-- The value of the entry whose `extnID` is `oid`. -/
def extensionValue (cert : X509) (oid : Bytes) : Option Bytes :=
  (cert.extensions.find? fun e => e.extnId = oid).map Extension.extnValue

/-- Where that entry stands in the encoding. -/
def entry (cert : X509) (oid : Bytes) : Option (Nat × Bytes) :=
  locate oid cert.lead.length cert.extensions

theorem entry_map_snd (cert : X509) (oid : Bytes) :
    (cert.entry oid).map Prod.snd = cert.extensionValue oid :=
  locate_map_snd oid _ _

/-- An entry splits the encoding at its `extnID`. -/
theorem entry_split {cert : X509} {oid value : Bytes} {offset : Nat}
    (h : cert.entry oid = some (offset, value)) :
    ∃ pre critical post, cert.encode =
        pre ++ (oid ++ (critical ++ 0x04 :: (Der.length value.length ++ (value ++ post)))) ∧
      pre.length = offset ∧ Critical critical ∧ value.length < 256 ^ 126 := by
  obtain ⟨before, e, after, hsplit, rfl, rfl, rfl⟩ := locate_eq_some h
  have hmem : e ∈ cert.extensions := by
    rw [hsplit]
    exact List.mem_append_right _ List.mem_cons_self
  refine ⟨cert.lead ++ (before.flatMap Extension.encode ++ e.lead), e.criticalDer,
    after.flatMap Extension.encode ++ cert.trailer, ?_, ?_, e.critical_criticalDer,
    cert.encodable e hmem⟩
  · rw [encode_eq (List.ne_nil_of_mem hmem), extensionsDer, hsplit, List.flatMap_append,
      List.flatMap_cons, Extension.encode_eq]
    simp only [Der.tlv, List.cons_append, List.append_assoc]
  · simp only [List.length_append]
    omega

/-- An entry of less than four gibioctets is itself a lookalike. -/
theorem lookalike_entry {cert : X509} {oid value : Bytes} {offset : Nat}
    (h : cert.entry oid = some (offset, value)) (hsmall : value.length < 256 ^ 4) :
    Lookalike cert.encode oid offset value := by
  obtain ⟨pre, critical, post, hencode, hoffset, hcritical, -⟩ := entry_split h
  exact ⟨pre, critical, _, post, hencode, hoffset, hcritical,
    Der.lengthOctets_length (by decide) hsmall⟩

/-- The scan for `oid` is not led astray, as far as `decode` can tell. With an entry the
scan can read, only lookalikes ahead of it count. -/
def Undisturbed {α : Type} (cert : X509) (oid : Bytes) (decode : Option Bytes → α) : Prop :=
  match cert.entry oid with
  | none =>
      ∀ i v, FirstLookalike cert.encode oid i v → decode (some v) = decode none
  | some (offset, value) =>
      if value.length < 256 ^ 4 then
        ∀ i < offset, ∀ v, FirstLookalike cert.encode oid i v →
          decode (some v) = decode (some value)
      else
        (∀ i v, FirstLookalike cert.encode oid i v → decode (some v) = decode (some value)) ∧
          ((∀ i v, ¬ Lookalike cert.encode oid i v) → decode none = decode (some value))

private theorem decode_scan_iff {α : Type} {der oid : Bytes} {decode : Option Bytes → α} {x : α} :
    decode (findOidExtension der oid) = x ↔
      (∀ i v, FirstLookalike der oid i v → decode (some v) = x) ∧
        ((∀ i v, ¬ Lookalike der oid i v) → decode none = x) := by
  cases hfind : findOidExtension der oid with
  | none =>
      have hnone := findOidExtension_eq_none_iff.mp hfind
      exact ⟨fun h => ⟨fun i v hv => absurd hv.here (hnone i v), fun _ => h⟩, fun h => h.2 hnone⟩
  | some v =>
      obtain ⟨i, hi⟩ := findOidExtension_eq_some_iff.mp hfind
      refine ⟨fun h => ⟨fun j w hw => ?_, fun hnone => absurd hi.here (hnone i v)⟩,
        fun h => h.1 i v hi⟩
      rw [← (hi.unique hw).2]
      exact h

/-- The scan and the structural reading decode alike exactly on undisturbed certificates. -/
theorem decode_findOidExtension_iff {α : Type} (cert : X509) (oid : Bytes)
    (decode : Option Bytes → α) :
    decode (findOidExtension cert.encode oid) = decode (cert.extensionValue oid) ↔
      cert.Undisturbed oid decode := by
  rw [← entry_map_snd, Undisturbed]
  cases hentry : cert.entry oid with
  | none =>
      simp only [Option.map_none, decode_scan_iff, implies_true, and_true]
  | some found =>
      obtain ⟨offset, value⟩ := found
      simp only [Option.map_some, decode_scan_iff]
      split
      · rename_i hsmall
        have hlook := lookalike_entry hentry hsmall
        constructor
        · rintro ⟨hfirst, -⟩ i - v hv
          exact hfirst i v hv
        · intro hahead
          refine ⟨fun i v hv => ?_, fun hnone => absurd hlook (hnone offset value)⟩
          rcases Nat.lt_trichotomy i offset with hlt | rfl | hgt
          · exact hahead i hlt v hv
          · rw [hv.here.unique hlook]
          · exact absurd hlook (hv.first offset hgt value)
      · exact Iff.rfl

end X509

/-- What the three readers say about a certificate. -/
structure Readings where
  role : Option WorkloadRole
  ordinal : Option UInt32
  degraded : Bool
  deriving DecidableEq, Repr

/-- What the three readers return on these bytes. -/
def readings (certDer : Bytes) : Readings :=
  ⟨extractRole certDer, extractOrdinal certDer, isDegraded certDer⟩

theorem readings_role (certDer : Bytes) : (readings certDer).role = extractRole certDer := rfl

/-- What the values of the three extensions decode to. -/
def Readings.decode (role ordinal degraded : Option Bytes) : Readings :=
  ⟨role.bind decodeRole, ordinal.bind decodeOrdinal, degraded.any decodeDegraded⟩

def fleetosOids : List Bytes := [roleOidBytes, degradedOidBytes, ordinalOidBytes]

/-- A certificate in which each FleetOS object identifier occurs at most once. -/
structure Certificate extends X509 where
  once : ∀ oid ∈ fleetosOids, (extensions.filter fun e => e.extnId = oid).length ≤ 1

namespace Certificate

/-- The entry of a FleetOS object identifier is unambiguous. -/
theorem extensionValue_eq_some_iff {cert : Certificate} {oid value : Bytes}
    (hoid : oid ∈ fleetosOids) :
    cert.extensionValue oid = some value ↔
      ∃ e ∈ cert.extensions, e.extnId = oid ∧ e.extnValue = value := by
  rw [X509.extensionValue, Option.map_eq_some_iff]
  constructor
  · rintro ⟨e, hfind, rfl⟩
    exact ⟨e, List.mem_of_find?_eq_some hfind, by simpa using List.find?_some hfind, rfl⟩
  · rintro ⟨e, hmem, hid, rfl⟩
    have he : e ∈ cert.extensions.filter fun e => e.extnId = oid :=
      List.mem_filter.mpr ⟨hmem, by simpa using hid⟩
    have hone := cert.once oid hoid
    rw [← List.head?_filter]
    obtain ⟨x, hx⟩ := List.length_eq_one_iff.mp
      (Nat.le_antisymm hone (List.length_pos_of_mem he))
    rw [hx] at he ⊢
    obtain rfl := List.mem_singleton.mp he
    exact ⟨e, rfl, rfl⟩

/-- The readings of the extension list. -/
def structuralReadings (cert : Certificate) : Readings :=
  .decode (cert.extensionValue roleOidBytes) (cert.extensionValue ordinalOidBytes)
    (cert.extensionValue degradedOidBytes)

/-- None of the three scans is led astray. -/
structure ReadersUndisturbed (cert : Certificate) : Prop where
  role : cert.Undisturbed roleOidBytes fun v => v.bind decodeRole
  ordinal : cert.Undisturbed ordinalOidBytes fun v => v.bind decodeOrdinal
  degraded : cert.Undisturbed degradedOidBytes fun v => v.any decodeDegraded

theorem readings_eq_iff (cert : Certificate) :
    readings cert.encode = cert.structuralReadings ↔ cert.ReadersUndisturbed := by
  have hrole := cert.decode_findOidExtension_iff roleOidBytes fun v => v.bind decodeRole
  have hordinal := cert.decode_findOidExtension_iff ordinalOidBytes fun v => v.bind decodeOrdinal
  have hdegraded := cert.decode_findOidExtension_iff degradedOidBytes fun v => v.any decodeDegraded
  rw [readings, structuralReadings, Readings.decode, Readings.mk.injEq]
  constructor
  · rintro ⟨hr, ho, hd⟩
    exact ⟨hrole.mp hr, hordinal.mp ho, hdegraded.mp hd⟩
  · rintro ⟨hr, ho, hd⟩
    exact ⟨hrole.mpr hr, hordinal.mpr ho, hdegraded.mpr hd⟩

end Certificate

end Fleetos.Svid
