import FleetosCore.Proto.HeaderCodec

/-!
# The header as a frame of a byte stream

`identity_header` of `src/proto.rs` puts one frame in front of a gRPC frame, and the
reader runs on the bytes that have arrived. `Outcome` lists what it can do with them:
wait for more, give up at the SVID or at the role, or take a whole frame.

The cursor is only where it was while the frame length is being waited for. Text that is
not UTF-8 is found after the cursor has moved, and a frame is as long as its two strings
are, whatever its frame length says. For written headers the three lengths agree, and a
stream of them is read back however it is cut.
-/

namespace Fleetos.IdentityHeader

open Text (utf8 IsText fromUtf8_eq_none_iff)

/-- What precedes the SVID: the frame length, a version and the length of the SVID. -/
def lead (declared : UInt32) (version : UInt8) (svidLen : UInt16) : Bytes :=
  Bytes.u32be declared ++ version :: Bytes.u16be svidLen

/-- A frame as it can lie in a buffer: its frame length and its version are free. -/
structure Frame where
  declared : UInt32
  version : UInt8
  svid : String
  role : String
  svid_fits : (utf8 svid).length < 2 ^ 16
  role_fits : (utf8 role).length < 2 ^ 8

namespace Frame

def bytes (f : Frame) : Bytes :=
  lead f.declared f.version (UInt16.ofNat (utf8 f.svid).length) ++
    (utf8 f.svid ++ UInt8.ofNat (utf8 f.role).length :: utf8 f.role)

/-- The identity the reader makes of a frame. -/
def header (f : Frame) : Header := (f.svid, namedRole f.role)

theorem bytes_length (f : Frame) :
    f.bytes.length = 8 + (utf8 f.svid).length + (utf8 f.role).length := by
  simp only [bytes, lead, List.length_append, List.length_cons, Bytes.u32be_length,
    Bytes.u16be_length]
  omega

end Frame

section

variable {declared : UInt32} {version roleLen : UInt8} {svidLen : UInt16}

@[simp] theorem lead_length : (lead declared version svidLen).length = 7 := rfl

@[simp] theorem frameLen_lead_append (rest : Bytes) :
    frameLen (lead declared version svidLen ++ rest) = declared.toNat := by
  have hread : Bytes.readU32 (UInt8.ofNat (declared.toNat / 2 ^ 24))
      (UInt8.ofNat (declared.toNat / 2 ^ 16)) (UInt8.ofNat (declared.toNat / 2 ^ 8))
      (UInt8.ofNat declared.toNat) = declared := Bytes.readU32_eq_iff.mpr rfl
  simp only [lead, Bytes.u32be, List.cons_append, frameLen, hread]

/-- Behind an accepted frame length the reader takes the announced SVID. -/
theorem readHeader_lead_append {svid rest : Bytes} (hlen : svid.length = svidLen.toNat)
    (haccepted : 4 + declared.toNat ≤ (lead declared version svidLen ++ (svid ++ rest)).length) :
    readHeader (lead declared version svidLen ++ (svid ++ rest)) =
      match Text.fromUtf8 svid with
      | none => .ok (none, svid ++ rest)
      | some s => readRole s rest := by
  have hframe : 4 + frameLen (lead declared version svidLen ++ (svid ++ rest)) ≤
      (lead declared version svidLen ++ (svid ++ rest)).length := by
    rwa [frameLen_lead_append]
  have hdrop : (lead declared version svidLen ++ (svid ++ rest)).drop 4 =
      version :: (Bytes.u16be svidLen ++ (svid ++ rest)) := by
    simp [lead, Bytes.u32be]
  have hfits : svidLen.toNat ≤ (svid ++ rest).length := by
    rw [List.length_append]
    omega
  have hread := readHeader_of_fits hframe hdrop hfits
  rw [← hlen, List.take_left, List.drop_left] at hread
  exact hread

/-- A role whose bytes are present, in front of anything. -/
theorem readRole_append {svid : String} {role rest : Bytes} (hlen : role.length = roleLen.toNat) :
    readRole svid (roleLen :: (role ++ rest)) =
      match Text.fromUtf8 role with
      | none => .ok (none, role ++ rest)
      | some r => .ok (some (svid, namedRole r), rest) := by
  have hfits : roleLen.toNat ≤ (role ++ rest).length := by
    rw [List.length_append]
    omega
  have hread := @readRole_of_fits svid _ _ hfits
  rw [← hlen, List.take_left, List.drop_left] at hread
  exact hread

end

/-! ## Every outcome of a call -/

/-- What a call returns and where it leaves the cursor. -/
inductive Outcome : Bytes → Option Header → Bytes → Prop where
  /-- Not all of the frame has arrived. -/
  | pending (buf : Bytes) (h : buf.length < 4 ∨ buf.length < 4 + frameLen buf) :
      Outcome buf none buf
  /-- The SVID is not text; the cursor stays in front of it. -/
  | svidGarbled (declared : UInt32) (version : UInt8) (svidLen : UInt16) (svid rest : Bytes)
      (hlen : svid.length = svidLen.toNat) (htext : ¬ IsText svid)
      (haccepted : 4 + declared.toNat ≤
        (lead declared version svidLen ++ (svid ++ rest)).length) :
      Outcome (lead declared version svidLen ++ (svid ++ rest)) none (svid ++ rest)
  /-- The role is not text; the cursor stays in front of it. -/
  | roleGarbled (declared : UInt32) (version : UInt8) (svid : String) (roleLen : UInt8)
      (role rest : Bytes) (hsvid : (utf8 svid).length < 2 ^ 16)
      (hlen : role.length = roleLen.toNat) (htext : ¬ IsText role)
      (haccepted : 4 + declared.toNat ≤
        (lead declared version (UInt16.ofNat (utf8 svid).length) ++
          (utf8 svid ++ roleLen :: (role ++ rest))).length) :
      Outcome
        (lead declared version (UInt16.ofNat (utf8 svid).length) ++
          (utf8 svid ++ roleLen :: (role ++ rest)))
        none (role ++ rest)
  /-- A whole frame is taken. -/
  | frame (f : Frame) (rest : Bytes) (haccepted : 4 + f.declared.toNat ≤ (f.bytes ++ rest).length) :
      Outcome (f.bytes ++ rest) (some f.header) rest

/-- A buffer of which the call returns anything but "wait" starts as a frame does. -/
theorem exists_eq_lead_append {buf : Bytes} (hfour : 4 ≤ buf.length)
    (hfits : PayloadFits (buf.drop 4)) :
    ∃ declared version svidLen svid rest, buf = lead declared version svidLen ++ (svid ++ rest) ∧
      svid.length = svidLen.toNat ∧ (¬ IsText svid ∨ RoleFits rest) := by
  match buf, hfour with
  | a :: b :: c :: d :: tail, _ =>
      rw [show (a :: b :: c :: d :: tail).drop 4 = tail from rfl] at hfits
      match tail, hfits with
      | version :: hi :: lo :: rest, hfits =>
          obtain ⟨hlen, hrole⟩ := hfits
          refine ⟨Bytes.readU32 a b c d, version, Bytes.readU16 hi lo,
            rest.take (Bytes.readU16 hi lo).toNat, rest.drop (Bytes.readU16 hi lo).toNat,
            ?_, ?_, ?_⟩
          · simp [lead, List.take_append_drop]
          · rw [List.length_take, Nat.min_eq_left hlen]
          · rwa [fromUtf8_eq_none_iff] at hrole

theorem RoleFits.exists_eq_cons_append {rest : Bytes} (h : RoleFits rest) :
    ∃ roleLen role after, rest = roleLen :: (role ++ after) ∧ role.length = roleLen.toNat := by
  cases rest with
  | nil => exact h.elim
  | cons roleLen rest =>
      have hle : roleLen.toNat ≤ rest.length := h
      refine ⟨roleLen, rest.take roleLen.toNat, rest.drop roleLen.toNat, ?_, ?_⟩
      · rw [List.take_append_drop]
      · rw [List.length_take, Nat.min_eq_left hle]

theorem Outcome.readHeader_eq {buf rest : Bytes} {result : Option Header}
    (h : Outcome buf result rest) : readHeader buf = .ok (result, rest) := by
  cases h with
  | pending _ hshort => exact readHeader_of_short hshort
  | svidGarbled declared version svidLen svid rest hlen htext haccepted =>
      rw [readHeader_lead_append hlen haccepted, fromUtf8_eq_none_iff.mpr htext]
  | roleGarbled declared version svid roleLen role rest hsvid hlen htext haccepted =>
      rw [readHeader_lead_append (Bytes.ofNat_length_toNat hsvid).symm haccepted,
        Text.fromUtf8_utf8]
      dsimp only
      rw [readRole_append hlen, fromUtf8_eq_none_iff.mpr htext]
  | frame f rest haccepted =>
      have hrole : (utf8 f.role).length = (UInt8.ofNat (utf8 f.role).length).toNat := by
        rw [UInt8.toNat_ofNat', Nat.mod_eq_of_lt f.role_fits]
      rw [Frame.bytes, List.append_assoc, List.append_assoc, List.cons_append] at haccepted ⊢
      rw [readHeader_lead_append (Bytes.ofNat_length_toNat f.svid_fits).symm haccepted,
        Text.fromUtf8_utf8]
      dsimp only
      rw [readRole_append hrole, Text.fromUtf8_utf8]
      rfl

/-- Text in place of the SVID: the role decides the outcome. -/
theorem exists_outcome_of_svid {declared : UInt32} {version : UInt8} {svid : String}
    {rest : Bytes} (hsvid : (utf8 svid).length < 2 ^ 16) (hrest : RoleFits rest)
    (haccepted : 4 + declared.toNat ≤
      (lead declared version (UInt16.ofNat (utf8 svid).length) ++ (utf8 svid ++ rest)).length) :
    ∃ result after, Outcome
      (lead declared version (UInt16.ofNat (utf8 svid).length) ++ (utf8 svid ++ rest))
      result after := by
  obtain ⟨roleLen, role, after, rfl, hlen⟩ := hrest.exists_eq_cons_append
  by_cases hrole : IsText role
  · obtain ⟨r, rfl⟩ := hrole
    have hfits : (utf8 r).length < 2 ^ 8 := hlen ▸ roleLen.toNat_lt
    obtain rfl : roleLen = UInt8.ofNat (utf8 r).length := by
      rw [hlen, UInt8.ofNat_toNat]
    let f : Frame := ⟨declared, version, svid, r, hsvid, hfits⟩
    have hbytes : lead declared version (UInt16.ofNat (utf8 svid).length) ++
        (utf8 svid ++ UInt8.ofNat (utf8 r).length :: (utf8 r ++ after)) = f.bytes ++ after := by
      simp [f, Frame.bytes]
    rw [hbytes] at haccepted ⊢
    exact ⟨_, _, .frame f after haccepted⟩
  · exact ⟨_, _, .roleGarbled declared version svid roleLen role after hsvid hlen hrole haccepted⟩

theorem HeaderFits.exists_outcome {buf : Bytes} (h : HeaderFits buf) :
    ∃ result rest, Outcome buf result rest := by
  by_cases hpending : buf.length < 4 ∨ buf.length < 4 + frameLen buf
  · exact ⟨none, buf, .pending buf hpending⟩
  obtain ⟨hfour, haccepted⟩ := not_or.mp hpending
  have hfits : PayloadFits (buf.drop 4) := (h.resolve_left hfour).resolve_left haccepted
  obtain ⟨declared, version, svidLen, svid, rest, rfl, hlen, hrest⟩ :=
    exists_eq_lead_append (Nat.le_of_not_lt hfour) hfits
  rw [frameLen_lead_append, Nat.not_lt] at haccepted
  by_cases hsvid : IsText svid
  · obtain ⟨s, rfl⟩ := hsvid
    have hrole : RoleFits rest := hrest.resolve_left (not_not_intro ⟨s, rfl⟩)
    have hshort : (utf8 s).length < 2 ^ 16 := hlen ▸ svidLen.toNat_lt
    obtain rfl : svidLen = UInt16.ofNat (utf8 s).length := by
      rw [hlen, UInt16.ofNat_toNat]
    exact exists_outcome_of_svid hshort hrole haccepted
  · exact ⟨_, _, .svidGarbled declared version svidLen svid rest hlen hsvid haccepted⟩

/-- `Outcome` leaves nothing out: a call that does not panic has one of these outcomes. -/
theorem readHeader_ok_iff {buf rest : Bytes} {result : Option Header} :
    readHeader buf = .ok (result, rest) ↔ Outcome buf result rest := by
  refine ⟨fun h => ?_, Outcome.readHeader_eq⟩
  obtain ⟨result', rest', houtcome⟩ := ((readHeader_returns_iff buf).mp ⟨_, h⟩).exists_outcome
  -- the call has one result, so this outcome is the one asked for
  obtain ⟨rfl, rfl⟩ := Prod.mk.inj (Except.ok.inj (houtcome.readHeader_eq.symm.trans h))
  exact houtcome

/-! ## How far a returned header moves the cursor -/

/-- The buffer starts with a frame, and the frame length is no larger than the buffer. -/
def StartsWith (buf : Bytes) (f : Frame) : Prop :=
  f.bytes <+: buf ∧ 4 + f.declared.toNat ≤ buf.length

/-- A returned header is what lies in the declared frame, and the cursor is behind it. -/
def ReadsDeclaredFrame (buf : Bytes) : Prop :=
  ∀ header rest, readHeader buf = .ok (some header, rest) →
    rest = buf.drop (4 + frameLen buf) ∧
      ∃ f : Frame, f.header = header ∧ buf.take (4 + frameLen buf) = f.bytes

theorem frameLen_bytes_append (f : Frame) (rest : Bytes) :
    frameLen (f.bytes ++ rest) = f.declared.toNat := by
  rw [Frame.bytes, List.append_assoc, frameLen_lead_append]

theorem readHeader_eq_some_iff {buf rest : Bytes} {header : Header} :
    readHeader buf = .ok (some header, rest) ↔
      ∃ f : Frame, buf = f.bytes ++ rest ∧ f.header = header ∧
        4 + f.declared.toNat ≤ buf.length := by
  rw [readHeader_ok_iff]
  constructor
  · intro h
    cases h with
    | frame f rest haccepted => exact ⟨f, rfl, rfl, haccepted⟩
  · rintro ⟨f, rfl, rfl, haccepted⟩
    exact .frame f rest haccepted

/-- The reader stays inside the declared frame exactly when the frame length is the one
the two strings need. -/
theorem readsDeclaredFrame_iff (buf : Bytes) :
    ReadsDeclaredFrame buf ↔ ∀ f : Frame, StartsWith buf f →
      f.declared.toNat = 4 + (utf8 f.svid).length + (utf8 f.role).length := by
  constructor
  · rintro hreads f ⟨⟨rest, rfl⟩, haccepted⟩
    obtain ⟨hrest, -⟩ := hreads f.header rest
      (readHeader_eq_some_iff.mpr ⟨f, rfl, rfl, haccepted⟩)
    have hlength := congrArg List.length hrest
    rw [frameLen_bytes_append, List.length_drop] at hlength
    rw [List.length_append, f.bytes_length] at hlength haccepted
    omega
  · rintro hdeclared header rest hread
    obtain ⟨f, rfl, rfl, haccepted⟩ := readHeader_eq_some_iff.mp hread
    have hlength : 4 + f.declared.toNat = f.bytes.length := by
      rw [f.bytes_length, hdeclared f ⟨List.prefix_append _ _, haccepted⟩]
      omega
    rw [frameLen_bytes_append, hlength, List.drop_left, List.take_left]
    exact ⟨rfl, f, rfl, rfl⟩

/-- One byte more than the two empty strings need: it is left for the gRPC frame. -/
theorem declared_byte_left_behind : ¬ ∀ buf : Bytes, ReadsDeclaredFrame buf := by
  intro h
  have hread : readHeader [0, 0, 0, 5, 1, 0, 0, 0, 0xff] = .ok (some ("", none), [0xff]) := by
    let f : Frame := ⟨5, 1, "", "", by decide, by decide⟩
    exact readHeader_eq_some_iff.mpr ⟨f, by decide, rfl, by decide⟩
  obtain ⟨hrest, -⟩ := h _ _ _ hread
  exact absurd hrest (by decide)

/-! ## What a refusal does to the cursor -/

/-- The bytes announced as the SVID are present and not text. -/
def SvidGarbled (buf : Bytes) : Prop :=
  ∃ (declared : UInt32) (version : UInt8) (svidLen : UInt16) (svid rest : Bytes),
    buf = lead declared version svidLen ++ (svid ++ rest) ∧ svid.length = svidLen.toNat ∧
      ¬ IsText svid ∧ 4 + declared.toNat ≤ buf.length

/-- The SVID is text, and the bytes announced as the role are present and not text. -/
def RoleGarbled (buf : Bytes) : Prop :=
  ∃ (declared : UInt32) (version : UInt8) (svid : String) (roleLen : UInt8) (role rest : Bytes),
    buf = lead declared version (UInt16.ofNat (utf8 svid).length) ++
        (utf8 svid ++ roleLen :: (role ++ rest)) ∧
      (utf8 svid).length < 2 ^ 16 ∧ role.length = roleLen.toNat ∧
      ¬ IsText role ∧ 4 + declared.toNat ≤ buf.length

/-- A refusal leaves the caller's slice as it was. -/
def RefusalKeepsCursor (buf : Bytes) : Prop :=
  ∀ rest, readHeader buf = .ok (none, rest) → rest = buf

/-- The cursor is kept exactly on the buffers whose announced strings are text. -/
theorem refusalKeepsCursor_iff (buf : Bytes) :
    RefusalKeepsCursor buf ↔ ¬ SvidGarbled buf ∧ ¬ RoleGarbled buf := by
  constructor
  · intro hkeeps
    constructor
    · rintro ⟨declared, version, svidLen, svid, rest, rfl, hlen, htext, haccepted⟩
      have hrest := hkeeps _ (readHeader_ok_iff.mpr
        (.svidGarbled declared version svidLen svid rest hlen htext haccepted))
      have hlength := congrArg List.length hrest
      rw [List.length_append, List.length_append, lead_length, List.length_append] at hlength
      omega
    · rintro ⟨declared, version, svid, roleLen, role, rest, rfl, hsvid, hlen, htext, haccepted⟩
      have hrest := hkeeps _ (readHeader_ok_iff.mpr
        (.roleGarbled declared version svid roleLen role rest hsvid hlen htext haccepted))
      have hlength := congrArg List.length hrest
      simp only [List.length_append, List.length_cons, lead_length] at hlength
      omega
  · rintro ⟨hsvidText, hroleText⟩ rest hread
    cases readHeader_ok_iff.mp hread with
    | pending _ _ => rfl
    | svidGarbled declared version svidLen svid rest hlen htext haccepted =>
        exact absurd ⟨declared, version, svidLen, svid, rest, rfl, hlen, htext, haccepted⟩
          hsvidText
    | roleGarbled declared version svid roleLen role rest hsvid hlen htext haccepted =>
        exact absurd ⟨declared, version, svid, roleLen, role, rest, rfl, hsvid, hlen, htext,
          haccepted⟩ hroleText

/-- A refusal that is no request for more bytes: seven of them are gone. -/
theorem garbled_svid_moves_cursor : ¬ ∀ buf : Bytes, RefusalKeepsCursor buf := by
  intro h
  have hgarbled : ¬ IsText [0xff] := fromUtf8_eq_none_iff.mp (by decide)
  have hread : readHeader [0, 0, 0, 5, 1, 0, 1, 0xff, 0] = .ok (none, [0xff, 0]) :=
    readHeader_ok_iff.mpr (.svidGarbled 5 1 1 [0xff] [0] rfl hgarbled (by decide))
  exact absurd (h _ _ hread) (by decide)

/-! ## A stream of written headers -/

/-- An identity whose strings fit their length fields. -/
structure Identity where
  svid : String
  role : Option String
  svid_fits : (utf8 svid).length ≤ 65535
  role_fits : (roleBytes role).length ≤ 255

namespace Identity

variable (identity : Identity)

def written : Bytes := writeHeader identity.svid identity.role

/-- The identity as it is read: an empty role is none. -/
def asRead : Header := (identity.svid, namedRole (identity.role.getD ""))

/-- The frame that is written: the frame length is the one its strings need. -/
def frame : Frame where
  declared := UInt32.ofNat (1 + 2 + (utf8 identity.svid).length + 1 +
    (roleBytes identity.role).length)
  version := 1
  svid := identity.svid
  role := identity.role.getD ""
  svid_fits := Nat.lt_succ_of_le identity.svid_fits
  role_fits := roleBytes_eq identity.role ▸ Nat.lt_succ_of_le identity.role_fits

theorem frame_bytes : identity.frame.bytes = identity.written := by
  simp only [Frame.bytes, frame, lead, written, writeHeader, roleBytes_eq, List.append_assoc,
    List.cons_append, List.nil_append]

theorem frame_declared : 4 + identity.frame.declared.toNat = identity.written.length := by
  have hsvid := identity.svid_fits
  have hrole := identity.role_fits
  rw [frame, UInt32.toNat_ofNat', written, writeHeader_length]
  omega

theorem frameLen_written : 4 + frameLen identity.written = identity.written.length := by
  have hlen := frameLen_bytes_append identity.frame []
  rw [List.append_nil, frame_bytes] at hlen
  rw [hlen, frame_declared]

/-- A written header is taken off the front of whatever follows it. -/
theorem readHeader_written_append (rest : Bytes) :
    readHeader (identity.written ++ rest) = .ok (some identity.asRead, rest) := by
  have haccepted : 4 + identity.frame.declared.toNat ≤ (identity.written ++ rest).length := by
    rw [frame_declared, List.length_append]
    exact Nat.le_add_right _ _
  exact readHeader_eq_some_iff.mpr ⟨identity.frame, by rw [frame_bytes], rfl, haccepted⟩

/-- As long as a byte of it is missing, the reader waits. -/
theorem readHeader_of_partial {arrived : Bytes} (hpart : arrived <+: identity.written)
    (hne : arrived ≠ identity.written) : readHeader arrived = .ok (none, arrived) := by
  have hlt : arrived.length < identity.written.length := by
    refine Nat.lt_of_le_of_ne hpart.length_le fun hlen => hne ?_
    exact hpart.eq_of_length hlen
  apply readHeader_of_short
  by_cases hfour : arrived.length < 4
  · exact .inl hfour
  · -- with its four bytes there, the frame length is the final one
    have hfirst : arrived.take 4 = identity.written.take 4 := by
      rw [List.prefix_iff_eq_take.mp hpart, List.take_take,
        Nat.min_eq_left (Nat.le_of_not_lt hfour)]
    have hframe : frameLen arrived = frameLen identity.written := by
      rw [← frameLen_take arrived, hfirst, frameLen_take]
    exact .inr (by rwa [hframe, frameLen_written])

end Identity

/-- Up to `n` headers off the front of the buffer, until one is refused. -/
def readHeaders : Nat → Buf (List Header)
  | 0 => pure []
  | n + 1 => do
      match ← readHeader with
      | none => return []
      | some header => return header :: (← readHeaders n)

/-- The bytes of a list of identities written one after the other. -/
def stream (identities : List Identity) : Bytes := identities.flatMap Identity.written

theorem readHeaders_succ_of_some {buf rest : Bytes} {header : Header} (n : Nat)
    (h : readHeader buf = .ok (some header, rest)) :
    readHeaders (n + 1) buf = (readHeaders n rest).map fun p => (header :: p.1, p.2) := by
  rw [readHeaders, run_bind_of_ok h]
  dsimp only
  cases hrest : readHeaders n rest with
  | error panic => simp [bind, StateT.bind, hrest, Except.bind, Except.map]
  | ok p =>
      rw [run_bind_of_ok hrest]
      rfl

theorem readHeaders_of_none {buf : Bytes} (n : Nat) (h : readHeader buf = .ok (none, buf)) :
    readHeaders n buf = .ok ([], buf) := by
  cases n with
  | zero => rfl
  | succ n =>
      rw [readHeaders, run_bind_of_ok h]
      rfl

/-- The loop takes the written headers in order and then goes on behind them. -/
theorem readHeaders_stream_append (identities : List Identity) (n : Nat) (rest : Bytes) :
    readHeaders (identities.length + n) (stream identities ++ rest) =
      (readHeaders n rest).map fun p => (identities.map Identity.asRead ++ p.1, p.2) := by
  induction identities with
  | nil =>
      rw [List.length_nil, Nat.zero_add]
      cases h : readHeaders n rest <;> simp [stream, h, Except.map]
  | cons identity identities ih =>
      have hbytes : stream (identity :: identities) ++ rest =
          identity.written ++ (stream identities ++ rest) := by
        simp [stream]
      rw [List.length_cons, Nat.add_right_comm, hbytes,
        readHeaders_succ_of_some _ (identity.readHeader_written_append _), ih]
      cases readHeaders n rest <;> simp [Except.map]

/-- Headers delimit themselves: one is taken exactly when all of it is there, whatever
follows, and a stream of them is read back, up to a last one that is still arriving. -/
theorem framing_incremental (identity : Identity) :
    (∀ rest, readHeader (identity.written ++ rest) = .ok (some identity.asRead, rest)) ∧
      (∀ arrived, arrived <+: identity.written → arrived ≠ identity.written →
        readHeader arrived = .ok (none, arrived)) ∧
      ∀ identities : List Identity,
        (∀ rest, readHeaders identities.length (stream identities ++ rest) =
          .ok (identities.map Identity.asRead, rest)) ∧
        ∀ arrived n, arrived <+: identity.written → arrived ≠ identity.written →
          readHeaders (identities.length + n) (stream identities ++ arrived) =
            .ok (identities.map Identity.asRead, arrived) := by
  refine ⟨identity.readHeader_written_append, fun _ => identity.readHeader_of_partial,
    fun identities => ⟨fun rest => ?_, fun arrived n hpart hne => ?_⟩⟩
  · have hread := readHeaders_stream_append identities 0 rest
    have hzero : readHeaders 0 rest = .ok ([], rest) := rfl
    rw [hzero, Nat.add_zero] at hread
    simpa [Except.map] using hread
  · rw [readHeaders_stream_append,
      readHeaders_of_none n (identity.readHeader_of_partial hpart hne)]
    simp [Except.map]

/-- An SVID of one byte and an empty role, of which three bytes have arrived. -/
theorem framing_of_three_bytes :
    readHeader [0, 0, 0] = .ok (none, [0, 0, 0]) ∧
      readHeaders 2 (stream [⟨"a", some "", by decide, by decide⟩] ++ [0, 0, 0]) =
        .ok ([("a", none)], [0, 0, 0]) := by
  let identity : Identity := ⟨"a", some "", by decide, by decide⟩
  have hpart : [0, 0, 0] <+: identity.written := by decide
  have hne : [0, 0, 0] ≠ identity.written := by decide
  obtain ⟨-, hwait, hstream⟩ := framing_incremental identity
  exact ⟨hwait _ hpart hne, (hstream [identity]).2 _ 1 hpart hne⟩

end Fleetos.IdentityHeader
