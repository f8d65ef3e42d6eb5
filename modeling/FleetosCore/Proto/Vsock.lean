import FleetosCore.Library.Bytes
import FleetosCore.Library.Fallible
import FleetosCore.Library.Stream

/-!
# Messages over vsock

`frame_msg` and `decode_msg` of `src/vsock_proto.rs`. The postcard crate is a parameter:
what the code relies on is that a serialized message is read back. The receiving side of a
connection is not part of the repository; `stripLength` is what the documentation leaves to
it, to read four bytes of length and to hand on that many bytes.

A receiver that does so never decodes anything but the messages that were sent, in their
order, whatever part of the stream has arrived.
-/

namespace Fleetos.Vsock

inductive PostcardError where
  | serializeBufferFull
  | other (code : Nat)
  deriving DecidableEq, Repr

/-- The serializer and the deserializer of one type of messages. -/
structure Postcard (T : Type) where
  toAllocvec : T → Except PostcardError Bytes
  fromBytes : Bytes → Except PostcardError T
  fromBytes_toAllocvec : ∀ {msg payload}, toAllocvec msg = .ok payload →
    fromBytes payload = .ok msg

def maxMessageBytes : Nat := 16 * 1024 * 1024

section

variable {T : Type} (postcard : Postcard T)

def frameMsg (msg : T) : Except PostcardError Bytes := do
  let payload ← postcard.toAllocvec msg
  if payload.length > maxMessageBytes then throw .serializeBufferFull
  let len := Bytes.u32le (UInt32.ofNat payload.length)
  return len ++ payload

def decodeMsg (payload : Bytes) : Except PostcardError T := postcard.fromBytes payload

end

/-! ## The receiver -/

/-- The payload of the first frame, once all of it has arrived. -/
def stripLength : Bytes → Option (Bytes × Bytes)
  | a :: b :: c :: d :: rest =>
      let len := (Bytes.readU32 d c b a).toNat
      if len ≤ rest.length then some (rest.take len, rest.drop len) else none
  | _ => none

theorem stripLength_progress {buf payload rest : Bytes}
    (h : stripLength buf = some (payload, rest)) : rest.length < buf.length := by
  rw [stripLength.eq_def] at h
  split at h
  · simp only at h
    split at h
    · obtain ⟨-, rfl⟩ := Prod.mk.inj (Option.some.inj h)
      rw [List.length_drop, List.length_cons, List.length_cons, List.length_cons, List.length_cons]
      omega
    · cases h
  · cases h

def framing : Framing UInt8 Bytes := ⟨stripLength, stripLength_progress⟩

theorem framing_take : framing.take = stripLength := rfl

theorem stripLength_u32le (n : UInt32) (rest : Bytes) :
    stripLength (Bytes.u32le n ++ rest) =
      if n.toNat ≤ rest.length then some (rest.take n.toNat, rest.drop n.toNat) else none := by
  have hread : Bytes.readU32 (UInt8.ofNat (n.toNat / 2 ^ 24)) (UInt8.ofNat (n.toNat / 2 ^ 16))
      (UInt8.ofNat (n.toNat / 2 ^ 8)) (UInt8.ofNat n.toNat) = n := Bytes.readU32_eq_iff.mpr rfl
  rw [Bytes.u32le, List.cons_append, List.cons_append, List.cons_append, List.cons_append,
    List.nil_append, stripLength, hread]

theorem stripLength_of_short {buf : Bytes} (h : buf.length < 4) : stripLength buf = none := by
  match buf with
  | [] | [_] | [_, _] | [_, _, _] => rfl
  | _ :: _ :: _ :: _ :: rest =>
      simp only [List.length_cons] at h
      omega

/-- A payload behind its exact length is one frame. -/
theorem frames_of_toNat_eq {len : UInt32} {payload : Bytes} (h : len.toNat = payload.length) :
    framing.Frames payload (Bytes.u32le len ++ payload) := by
  refine ⟨fun rest => ?_, fun part hpart hne => ?_⟩
  · rw [framing_take, List.append_assoc, stripLength_u32le, h, if_pos (by simp),
      List.take_left, List.drop_left]
  · rw [framing_take]
    obtain ⟨hlead, hproper⟩ | ⟨more, rfl, hmore⟩ := Framing.cut_of_append hpart
    · refine stripLength_of_short (Nat.lt_of_le_of_ne hlead.length_le fun hlen => ?_)
      exact hproper (hlead.eq_of_length hlen)
    · rw [stripLength_u32le, h, if_neg]
      intro hle
      exact hne (congrArg _ (hmore.eq_of_length_le hle))

section

variable {T : Type} {postcard : Postcard T}

/-- A message is framed exactly when it is serialized in at most 16 MiB; the cast of its
length loses nothing. -/
theorem frameMsg_ok_iff {msg : T} {framed : Bytes} :
    frameMsg postcard msg = .ok framed ↔ ∃ payload, ∃ len : UInt32,
      postcard.toAllocvec msg = .ok payload ∧ payload.length ≤ maxMessageBytes ∧
      len.toNat = payload.length ∧ framed = Bytes.u32le len ++ payload := by
  simp only [frameMsg, Fallible.bind_ok_iff, Fallible.throw_if_bind_ok_iff, Fallible.pure_ok_iff,
    gt_iff_lt, Nat.not_lt]
  constructor
  · rintro ⟨payload, hpayload, hshort, rfl⟩
    refine ⟨payload, UInt32.ofNat payload.length, hpayload, hshort, ?_, rfl⟩
    rw [UInt32.toNat_ofNat']
    exact Nat.mod_eq_of_lt (Nat.lt_of_le_of_lt hshort (by decide))
  · rintro ⟨payload, len, hpayload, hshort, hlen, rfl⟩
    exact ⟨payload, hpayload, hshort, by rw [← hlen, UInt32.ofNat_toNat]⟩

/-- What one frame brings to the receiver. -/
theorem frames_of_frameMsg {msg : T} {framed : Bytes} (h : frameMsg postcard msg = .ok framed) :
    ∃ payload, framing.Frames payload framed ∧ decodeMsg postcard payload = .ok msg := by
  obtain ⟨payload, len, hpayload, -, hlen, rfl⟩ := frameMsg_ok_iff.mp h
  exact ⟨payload, frames_of_toNat_eq hlen, postcard.fromBytes_toAllocvec hpayload⟩

/-- The frames of a sequence of messages, with the payloads the receiver gets. -/
theorem exists_items {msgs : List T} {framed : List Bytes}
    (h : msgs.mapM (frameMsg postcard) = .ok framed) :
    ∃ items : List (Bytes × Bytes), items.map Prod.snd = framed ∧
      items.length = msgs.length ∧ (∀ item ∈ items, framing.Frames item.1 item.2) ∧
      ∀ k, ((items.take k).map Prod.fst).mapM (decodeMsg postcard) = .ok (msgs.take k) := by
  induction msgs generalizing framed with
  | nil =>
      obtain rfl : [] = framed := by simpa using h
      refine ⟨[], rfl, rfl, by simp, fun k => ?_⟩
      rw [List.take_nil, List.take_nil]
      rfl
  | cons msg msgs ih =>
      simp only [List.mapM_cons, Fallible.bind_ok_iff, Fallible.pure_ok_iff] at h
      obtain ⟨first, hfirst, rest, hrest, rfl⟩ := h
      obtain ⟨items, hsnd, hlength, hframes, hdecoded⟩ := ih hrest
      obtain ⟨payload, hpayload, hmsg⟩ := frames_of_frameMsg hfirst
      refine ⟨(payload, first) :: items, by rw [List.map_cons, hsnd], by simp [hlength],
        List.forall_mem_cons.mpr ⟨hpayload, hframes⟩, fun k => ?_⟩
      cases k with
      | zero => rfl
      | succ k =>
          simp only [List.take_succ_cons, List.map_cons, List.mapM_cons, Fallible.bind_ok_iff,
            Fallible.pure_ok_iff]
          exact ⟨msg, hmsg, msgs.take k, hdecoded k, rfl⟩

end

/-- Exactly the messages serialized in at most 16 MiB are framed, behind their length.
Whatever part of a stream of framed messages has arrived, the receiver decodes a first
part of the messages and is left with less than the next frame; once all has arrived, it
has all the messages and nothing is left. -/
theorem stream_received {T : Type} (postcard : Postcard T) (msgs : List T) (framed : List Bytes)
    (hsent : msgs.mapM (frameMsg postcard) = .ok framed) (received : Bytes)
    (harrived : received <+: framed.flatten) :
    let drained := framing.drain received
    (∀ msg bytes, frameMsg postcard msg = .ok bytes ↔ ∃ payload, ∃ len : UInt32,
      postcard.toAllocvec msg = .ok payload ∧ payload.length ≤ maxMessageBytes ∧
      len.toNat = payload.length ∧ bytes = Bytes.u32le len ++ payload) ∧
    (∃ k ≤ msgs.length, drained.1.mapM (decodeMsg postcard) = .ok (msgs.take k) ∧
      received = (framed.take k).flatten ++ drained.2 ∧
      ∀ next, framed[k]? = some next → drained.2 <+: next ∧ drained.2 ≠ next) ∧
    (received = framed.flatten →
      drained.1.mapM (decodeMsg postcard) = .ok msgs ∧ drained.2 = []) := by
  obtain ⟨items, rfl, hlength, hframes, hdecoded⟩ := exists_items hsent
  obtain ⟨k, hk, hdrained, hreceived, hnext⟩ := Framing.drain_prefix hframes harrived
  intro drained
  have hdecode : drained.1.mapM (decodeMsg postcard) = .ok (msgs.take k) := by
    rw [show drained.1 = _ from hdrained, hdecoded k]
  refine ⟨fun _ _ => frameMsg_ok_iff, ⟨k, hlength ▸ hk, hdecode, ?_, ?_⟩, fun hall => ?_⟩
  · rw [← List.map_take]
    exact hreceived
  · intro next hat
    rw [List.getElem?_map, Option.map_eq_some_iff] at hat
    obtain ⟨item, hitem, rfl⟩ := hat
    exact hnext item hitem
  · have hdrain : drained = (items.map Prod.fst, []) := by
      rw [show drained = framing.drain received from rfl, hall, Framing.drain_flatten hframes]
    have hwhole := hdecoded items.length
    rw [List.take_length, hlength, List.take_length] at hwhole
    rw [hdrain]
    exact ⟨hwhole, rfl⟩

namespace Sample

structure VsockAttestationChallenge where
  protocolVersion : UInt32
  nonce : Bytes
  nonce_length : nonce.length = 32
  deriving DecidableEq

/-- Groups of seven bits, the low ones first; all but the last have the high bit set. -/
def varint : Nat → Nat → Bytes
  | 0, _ => []
  | groups + 1, n =>
      if n < 128 then [UInt8.ofNat n]
      else UInt8.ofNat (n % 128 + 128) :: varint groups (n / 128)

def readVarint : Nat → Bytes → Option (Nat × Bytes)
  | groups + 1, b :: rest =>
      if b.toNat < 128 then some (b.toNat, rest)
      else (readVarint groups rest).map fun read => (b.toNat - 128 + 128 * read.1, read.2)
  | _, _ => none

theorem readVarint_varint_of_lt {n : Nat} (h : n < 128) (groups : Nat) (rest : Bytes) :
    readVarint (groups + 1) (varint (groups + 1) n ++ rest) = some (n, rest) := by
  rw [varint, if_pos h, List.cons_append, readVarint,
    UInt8.toNat_ofNat_of_lt' (Nat.lt_trans h (by decide)), if_pos h]
  rfl

theorem readVarint_varint {groups n : Nat} (h : n < 128 ^ (groups + 1)) (rest : Bytes) :
    readVarint (groups + 1) (varint (groups + 1) n ++ rest) = some (n, rest) := by
  induction groups generalizing n with
  | zero => exact readVarint_varint_of_lt h 0 rest
  | succ groups ih =>
      by_cases hsmall : n < 128
      · exact readVarint_varint_of_lt hsmall (groups + 1) rest
      · have hbyte : (UInt8.ofNat (n % 128 + 128)).toNat = n % 128 + 128 :=
          UInt8.toNat_ofNat_of_lt' (Nat.add_lt_add_right (Nat.mod_lt n (by decide)) 128)
        have hrest : n / 128 < 128 ^ (groups + 1) :=
          Nat.div_lt_of_lt_mul (by rwa [Nat.mul_comm, ← Nat.pow_succ])
        rw [varint, if_neg hsmall, List.cons_append, readVarint, hbyte, if_neg (by omega),
          ih hrest, Option.map_some]
        congr 2
        omega

/-- Octets behind the fields are not looked at. -/
def fromBytes (payload : Bytes) : Except PostcardError VsockAttestationChallenge :=
  match readVarint 5 payload with
  | none => .error (.other 0)
  | some (version, rest) =>
      if h : version < 2 ^ 32 ∧ (rest.take 32).length = 32 then
        .ok ⟨UInt32.ofNat version, rest.take 32, h.2⟩
      else .error (.other 1)

/-- The format of postcard for a challenge: a varint, and an array without a length. -/
def postcard : Postcard VsockAttestationChallenge where
  toAllocvec msg := .ok (varint 5 msg.protocolVersion.toNat ++ msg.nonce)
  fromBytes := fromBytes
  fromBytes_toAllocvec := by
    rintro ⟨version, nonce, hnonce⟩ payload h
    obtain rfl := Except.ok.inj h
    have hversion : version.toNat < 2 ^ 32 := version.toNat_lt
    have hread : readVarint 5 (varint 5 version.toNat ++ nonce) = some (version.toNat, nonce) :=
      readVarint_varint (Nat.lt_trans hversion (by decide)) nonce
    have htake : nonce.take 32 = nonce := List.take_of_length_le (Nat.le_of_eq hnonce)
    simp only [fromBytes, hread, htake, hversion, hnonce, and_self, dite_true, UInt32.ofNat_toNat]

def challenge (octet : UInt8) : VsockAttestationChallenge :=
  ⟨1, List.replicate 32 octet, List.length_replicate⟩

def frame (octet : UInt8) : Bytes := [33, 0, 0, 0, 1] ++ List.replicate 32 octet

end Sample

/-- Two challenges, of which the second has not arrived in full. -/
theorem stream_received_of_two :
    (framing.drain (Sample.frame 0xAA ++ [33, 0, 0, 0, 1, 0xBB])).1.mapM
      (decodeMsg Sample.postcard) = .ok [Sample.challenge 0xAA] := by
  obtain ⟨-, ⟨k, -, hdecoded, hreceived, hnext⟩, -⟩ := stream_received Sample.postcard
    [Sample.challenge 0xAA, Sample.challenge 0xBB] [Sample.frame 0xAA, Sample.frame 0xBB]
    (by decide) (Sample.frame 0xAA ++ [33, 0, 0, 0, 1, 0xBB]) (by decide)
  have hlength := congrArg List.length hreceived
  rw [List.length_append, List.length_append] at hlength
  have hone : k = 1 := by
    match k with
    | 0 =>
        have hshort := (hnext _ rfl).1.length_le
        simp [Sample.frame] at hlength hshort
        omega
    | 1 => rfl
    | k + 2 =>
        simp [Sample.frame] at hlength
        omega
  rw [hdecoded, hone]
  rfl

end Fleetos.Vsock
