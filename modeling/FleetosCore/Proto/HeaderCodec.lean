import FleetosCore.Proto.IdentityHeader

/-!
# Writing a header and reading it back

`identity_header::write_header` of `src/proto.rs` narrows both lengths and the frame
length with `as`. The frame length never exceeds the buffer, so the reader always gets
to the two inner lengths. Those are the real ones modulo 2^16 and 2^8, and a wrapped one
cuts its string short.

A cut inside a character is noticed, because the bytes before it are not UTF-8 any more.
A cut between two characters is not, and a shorter role or SVID comes back.
-/

namespace Fleetos.IdentityHeader

open Text (utf8 IsText)

/-- The bytes of an optional role. -/
def roleBytes (role : Option String) : Bytes := (role.map utf8).getD []

def writeHeader (svid : String) (role : Option String) : Bytes :=
  let svidBytes := utf8 svid
  let roleBytes := roleBytes role
  let headerLen := 1 + 2 + svidBytes.length + 1 + roleBytes.length
  Bytes.u32be (UInt32.ofNat headerLen) ++ [1] ++ Bytes.u16be (UInt16.ofNat svidBytes.length) ++
    svidBytes ++ [UInt8.ofNat roleBytes.length] ++ roleBytes

/-! ## What the reader makes of a written header -/

theorem roleBytes_eq (role : Option String) : roleBytes role = utf8 (role.getD "") := by
  cases role with
  | none => rfl
  | some r => rfl

/-- A role that is read is the text of the bytes its length announces. -/
theorem readRole_eq_some {svid s : String} {r : Option String} {roleLen : UInt8}
    {rest after : Bytes} (h : readRole svid (roleLen :: rest) = .ok (some (s, r), after)) :
    s = svid ∧ utf8 (r.getD "") = rest.take roleLen.toNat := by
  have hfits : roleLen.toNat ≤ rest.length := readRole_returns_iff.mp ⟨_, h⟩
  rw [readRole_of_fits hfits] at h
  split at h
  · cases h
  · rename_i role htext
    cases h
    rw [namedRole_getD]
    exact ⟨rfl, Text.fromUtf8_eq_some_iff.mp htext⟩

theorem exists_readRole_eq_some (svid : String) {roleLen : UInt8} {rest : Bytes}
    (hfits : roleLen.toNat ≤ rest.length) (htext : IsText (rest.take roleLen.toNat)) :
    ∃ r after, readRole svid (roleLen :: rest) = .ok (some (svid, r), after) := by
  obtain ⟨role, hrole⟩ := htext
  rw [readRole_of_fits hfits, Text.fromUtf8_eq_some_iff.mpr hrole]
  exact ⟨_, _, rfl⟩

section

variable (svid : String) (role : Option String)

/-- The SVID length as it is written. -/
def writtenSvidLen : Nat := (utf8 svid).length % 2 ^ 16

/-- The bytes that follow the SVID as it is read. -/
def afterSvid : Bytes :=
  (utf8 svid).drop (writtenSvidLen svid) ++
    UInt8.ofNat (roleBytes role).length :: roleBytes role

/-- What follows the frame length, the version and the SVID length. -/
def writtenTail : Bytes :=
  utf8 svid ++ UInt8.ofNat (roleBytes role).length :: roleBytes role

theorem writtenSvidLen_le : writtenSvidLen svid ≤ (utf8 svid).length := Nat.mod_le _ _

theorem drop_writeHeader : (writeHeader svid role).drop 4 =
    1 :: (Bytes.u16be (UInt16.ofNat (utf8 svid).length) ++ writtenTail svid role) := by
  simp [writeHeader, writtenTail, Bytes.u32be]

theorem writeHeader_length : (writeHeader svid role).length =
    8 + (utf8 svid).length + (roleBytes role).length := by
  simp only [writeHeader, List.length_append, Bytes.u32be_length, Bytes.u16be_length,
    List.length_singleton]
  omega

/-- The frame length is never larger than what was written. -/
theorem frameLen_writeHeader :
    4 + frameLen (writeHeader svid role) ≤ (writeHeader svid role).length := by
  have hlen : frameLen (writeHeader svid role) =
      (1 + 2 + (utf8 svid).length + 1 + (roleBytes role).length) % 2 ^ 32 := by
    simp only [writeHeader, Bytes.u32be, List.cons_append, frameLen, Bytes.readU32_toNat,
      UInt8.toNat_ofNat', UInt32.toNat_ofNat']
    omega
  rw [hlen, writeHeader_length]
  omega

/-- The reader gets past every length check and takes the SVID under its written length. -/
theorem readHeader_writeHeader :
    readHeader (writeHeader svid role) =
      match Text.fromUtf8 ((utf8 svid).take (writtenSvidLen svid)) with
      | none => .ok (none, writtenTail svid role)
      | some s => readRole s (afterSvid svid role) := by
  have hlen : (UInt16.ofNat (utf8 svid).length).toNat = writtenSvidLen svid :=
    UInt16.toNat_ofNat'
  have hle : writtenSvidLen svid ≤ (writtenTail svid role).length := by
    have := writtenSvidLen_le svid
    rw [writtenTail, List.length_append]
    omega
  have htake : (writtenTail svid role).take (writtenSvidLen svid) =
      (utf8 svid).take (writtenSvidLen svid) :=
    List.take_append_of_le_length (writtenSvidLen_le svid)
  have hdrop : (writtenTail svid role).drop (writtenSvidLen svid) = afterSvid svid role :=
    List.drop_append_of_le_length (writtenSvidLen_le svid)
  have hread := readHeader_of_fits (frameLen_writeHeader svid role) (drop_writeHeader svid role)
    (by rwa [hlen])
  rw [hlen, htake, hdrop] at hread
  exact hread

variable {svid role}

/-- A header that comes back is the text of the two cut strings. -/
theorem readHeader_writeHeader_eq_some {s : String} {r : Option String} {after : Bytes}
    (h : readHeader (writeHeader svid role) = .ok (some (s, r), after)) :
    utf8 s = (utf8 svid).take (writtenSvidLen svid) ∧
      ∃ roleLen rest, afterSvid svid role = roleLen :: rest ∧
        utf8 (r.getD "") = rest.take roleLen.toNat := by
  rw [readHeader_writeHeader] at h
  split at h
  · cases h
  · rename_i t htext
    cases htail : afterSvid svid role with
    | nil => simp [afterSvid] at htail
    | cons roleLen rest =>
        rw [htail] at h
        obtain ⟨rfl, hrole⟩ := readRole_eq_some h
        exact ⟨Text.fromUtf8_eq_some_iff.mp htext, roleLen, rest, rfl, hrole⟩

theorem exists_readHeader_writeHeader_eq_some {roleLen : UInt8} {rest : Bytes}
    (hsvid : IsText ((utf8 svid).take (writtenSvidLen svid)))
    (htail : afterSvid svid role = roleLen :: rest) (hfits : roleLen.toNat ≤ rest.length)
    (hrole : IsText (rest.take roleLen.toNat)) :
    ∃ s r after, readHeader (writeHeader svid role) = .ok (some (s, r), after) := by
  obtain ⟨s, hs⟩ := hsvid
  obtain ⟨r, after, hread⟩ := exists_readRole_eq_some s hfits hrole
  refine ⟨s, r, after, ?_⟩
  rw [readHeader_writeHeader, ← hs, Text.fromUtf8_utf8, htail]
  exact hread

end

/-! ## Which headers come back as they were written -/

/-- The SVID length wraps to a character boundary, and what follows is read as a role. -/
def SvidCut (svid : String) : Prop :=
  2 ^ 16 ≤ (utf8 svid).length ∧ IsText ((utf8 svid).take ((utf8 svid).length % 2 ^ 16)) ∧
    ∃ roleLen rest, (utf8 svid).drop ((utf8 svid).length % 2 ^ 16) = roleLen :: rest ∧
      IsText (rest.take roleLen.toNat)

/-- The role length wraps to a character boundary. -/
def RoleCut (role : Option String) : Prop :=
  2 ^ 8 ≤ (utf8 (role.getD "")).length ∧
    IsText ((utf8 (role.getD "")).take ((utf8 (role.getD "")).length % 2 ^ 8))

/-- What the reader returns for a written header, if anything, is what was written; an
empty role counts as none. -/
def ReadsBack (svid : String) (role : Option String) : Prop :=
  ∀ s r after, readHeader (writeHeader svid role) = .ok (some (s, r), after) →
    s = svid ∧ r.getD "" = role.getD ""

section

variable {svid : String} {role : Option String}

theorem isText_utf8 (s : String) : IsText (utf8 s) := ⟨s, rfl⟩

/-- With a short SVID only the role can be cut. -/
theorem afterSvid_of_short (role : Option String) (h : (utf8 svid).length < 2 ^ 16) :
    (utf8 svid).take (writtenSvidLen svid) = utf8 svid ∧
      afterSvid svid role = UInt8.ofNat (roleBytes role).length :: roleBytes role := by
  have hlen : writtenSvidLen svid = (utf8 svid).length := Nat.mod_eq_of_lt h
  rw [afterSvid, hlen, List.take_length, List.drop_length]
  exact ⟨rfl, rfl⟩

theorem readsBack_iff_of_short (h : (utf8 svid).length < 2 ^ 16) :
    ReadsBack svid role ↔ ¬ RoleCut role := by
  obtain ⟨hsvid, htail⟩ := afterSvid_of_short role h
  have hrole : (UInt8.ofNat (roleBytes role).length).toNat = (roleBytes role).length % 2 ^ 8 :=
    UInt8.toNat_ofNat'
  constructor
  · rintro hback ⟨hlong, hcut⟩
    rw [← roleBytes_eq] at hlong hcut
    obtain ⟨s, r, after, hread⟩ := exists_readHeader_writeHeader_eq_some
      (by rw [hsvid]; exact isText_utf8 svid) htail (by rw [hrole]; exact Nat.mod_le _ _)
      (by rwa [hrole])
    obtain ⟨-, roleLen, rest, htail', htext⟩ := readHeader_writeHeader_eq_some hread
    obtain ⟨rfl, rfl⟩ := List.cons.inj (htail.symm.trans htail')
    rw [(hback s r after hread).2, ← roleBytes_eq, hrole] at htext
    have hlength := congrArg List.length htext
    rw [List.length_take] at hlength
    omega
  · intro hwhole s r after hread
    obtain ⟨hs, roleLen, rest, htail', htext⟩ := readHeader_writeHeader_eq_some hread
    obtain ⟨rfl, rfl⟩ := List.cons.inj (htail.symm.trans htail')
    rw [hrole, roleBytes_eq] at htext
    have hshort : (utf8 (role.getD "")).length < 2 ^ 8 := by
      by_contra hlong
      exact hwhole ⟨Nat.le_of_not_lt hlong, _, htext⟩
    rw [Nat.mod_eq_of_lt hshort, List.take_length] at htext
    exact ⟨Text.utf8_injective (hs.trans hsvid), Text.utf8_injective htext⟩

/-- With a long SVID the role is looked for inside it: at least 2^16 bytes are left there,
and a role length is below 2^8. -/
theorem afterSvid_of_long (role : Option String) (h : 2 ^ 16 ≤ (utf8 svid).length) :
    ∃ roleLen rest more, (utf8 svid).drop (writtenSvidLen svid) = roleLen :: rest ∧
      afterSvid svid role = roleLen :: (rest ++ more) ∧ roleLen.toNat ≤ rest.length := by
  have hleft : 2 ^ 16 ≤ ((utf8 svid).drop (writtenSvidLen svid)).length := by
    rw [List.length_drop, writtenSvidLen]
    omega
  rw [afterSvid]
  cases hdrop : (utf8 svid).drop (writtenSvidLen svid) with
  | nil =>
      rw [hdrop] at hleft
      cases hleft
  | cons roleLen rest =>
      rw [hdrop, List.length_cons] at hleft
      have hbyte := roleLen.toNat_lt
      exact ⟨roleLen, rest, _, rfl, rfl, by omega⟩

/-- With a long SVID nothing comes back, or a shorter one does. -/
theorem readsBack_iff_of_long (h : 2 ^ 16 ≤ (utf8 svid).length) :
    ReadsBack svid role ↔ ¬ SvidCut svid := by
  obtain ⟨roleLen, rest, more, hdrop, htail, hfits⟩ := afterSvid_of_long role h
  have htake : (rest ++ more).take roleLen.toNat = rest.take roleLen.toNat :=
    List.take_append_of_le_length hfits
  constructor
  · rintro hback ⟨-, hcut, roleLen', rest', hdrop', hrole⟩
    obtain ⟨rfl, rfl⟩ := List.cons.inj (hdrop.symm.trans hdrop')
    obtain ⟨s, r, after, hread⟩ := exists_readHeader_writeHeader_eq_some hcut htail
      (by rw [List.length_append]; omega) (by rwa [htake])
    obtain ⟨hs, -⟩ := readHeader_writeHeader_eq_some hread
    rw [(hback s r after hread).1] at hs
    have hlength := congrArg List.length hs
    rw [List.length_take, writtenSvidLen] at hlength
    omega
  · intro hwhole s r after hread
    obtain ⟨hs, roleLen', rest', htail', hrole⟩ := readHeader_writeHeader_eq_some hread
    obtain ⟨rfl, rfl⟩ := List.cons.inj (htail.symm.trans htail')
    rw [htake] at hrole
    exact absurd ⟨h, ⟨s, hs⟩, roleLen, rest, hdrop, _, hrole⟩ hwhole

end

/-- The codec returns what was written exactly on the headers whose lengths do not wrap
to a character boundary. -/
theorem readsBack_iff (svid : String) (role : Option String) :
    ReadsBack svid role ↔
      ¬ SvidCut svid ∧ ¬ ((utf8 svid).length < 2 ^ 16 ∧ RoleCut role) := by
  by_cases h : (utf8 svid).length < 2 ^ 16
  · have hno : ¬ SvidCut svid := fun hcut => absurd hcut.1 (Nat.not_le.mpr h)
    rw [readsBack_iff_of_short h, and_iff_right hno, and_iff_right h]
  · have hno : ¬ ((utf8 svid).length < 2 ^ 16 ∧ RoleCut role) := fun hcut => h hcut.1
    rw [readsBack_iff_of_long (Nat.le_of_not_lt h), and_iff_left hno]

/-- A role of 256 bytes comes back as no role. -/
theorem long_role_read_as_none : ¬ ∀ svid role, ReadsBack svid role := by
  intro h
  have hlength : (utf8 (String.ofList (List.replicate 256 'a'))).length = 2 ^ 8 := by
    rw [Text.utf8_ofList_replicate (b := 0x61) (by decide), List.length_replicate]
    rfl
  have hsvid : (utf8 "").length < 2 ^ 16 := by decide
  refine (readsBack_iff_of_short hsvid).mp (h "" (some (String.ofList (List.replicate 256 'a'))))
    ⟨?_, ?_⟩
  · exact Nat.le_of_eq hlength.symm
  · rw [Option.getD_some, hlength]
    exact ⟨"", rfl⟩

end Fleetos.IdentityHeader
