import FleetosCore.Library.Cursor
import FleetosCore.Library.Text

/-!
# The out-of-band identity header

`identity_header::read_header` of `src/proto.rs`: a 4-byte frame length, then
`[version: 1] [svid_len: 2] [svid] [role_len: 1] [role]`, read from the caller's
slice. The slice is the state; it stays wherever the code left it, also when the
result is `None`. Reads of the `bytes` crate and slice expressions panic when too
few bytes remain, and a panic is an outcome of its own here.

The frame length is compared with the buffer and with nothing else. The bytes
after it are read under the two inner lengths, so whether a read is in bounds
depends on those and on the size of the whole buffer.
-/

namespace Fleetos.IdentityHeader

/-- A read outside the remaining bytes: `Buf::get_*`/`advance`, or a slice. -/
inductive Panic where
  | advance
  | slice
  deriving DecidableEq, Repr

abbrev Buf (α : Type) : Type := Cursor Panic α

/-- A header: the SVID and the optional role. -/
abbrev Header : Type := String × Option String

namespace Buf

def remaining : Buf Nat := fun buf => .ok (buf.length, buf)

/-- `buf.advance(n)`. -/
def advance (n : Nat) : Buf Unit := fun buf =>
  if buf.length < n then .error .advance else .ok ((), buf.drop n)

/-- `&buf[..n]`; the cursor does not move. -/
def slice (n : Nat) : Buf Bytes := fun buf =>
  if buf.length < n then .error .slice else .ok (buf.take n, buf)

def getU8 : Buf UInt8 := fun buf =>
  match buf with
  | a :: rest => .ok (a, rest)
  | _ => .error .advance

def getU16 : Buf UInt16 := fun buf =>
  match buf with
  | a :: b :: rest => .ok (Bytes.readU16 a b, rest)
  | _ => .error .advance

end Buf

/-- The big-endian frame length in the first four bytes. -/
def frameLen : Bytes → Nat
  | a :: b :: c :: d :: _ => (Bytes.readU32 a b c d).toNat
  | _ => 0

/-- The reads after the SVID: its role length and role. -/
def readRole (svid : String) : Buf (Option Header) := do
  let roleLen := (← Buf.getU8).toNat
  if roleLen > 0 then
    let roleBytes ← Buf.slice roleLen
    match Text.fromUtf8 roleBytes with
    | none => return none
    | some r =>
        Buf.advance roleLen
        return some (svid, some r)
  else
    return some (svid, none)

/-- The reads after the frame length was accepted. -/
def readPayload : Buf (Option Header) := do
  Buf.advance 4
  let _version ← Buf.getU8
  let svidLen := (← Buf.getU16).toNat
  let svidBytes ← Buf.slice svidLen
  match Text.fromUtf8 svidBytes with
  | none => return none
  | some svid =>
      Buf.advance svidLen
      readRole svid

def readHeader : Buf (Option Header) := do
  if (← Buf.remaining) < 4 then return none
  let len := frameLen (← Buf.slice 4)
  if (← Buf.remaining) < 4 + len then return none
  readPayload

/-! ## Which buffers are read without a panic -/

/-- The role length is present and the role it announces is in the buffer. -/
def RoleFits : Bytes → Prop
  | roleLen :: rest => roleLen.toNat ≤ rest.length
  | [] => False

/-- Version and SVID length are present, the SVID is in the buffer, and so is the
role when the SVID is text and the code goes on to read it. -/
def PayloadFits : Bytes → Prop
  | _version :: hi :: lo :: rest =>
      (Bytes.readU16 hi lo).toNat ≤ rest.length ∧
        (Text.fromUtf8 (rest.take (Bytes.readU16 hi lo).toNat) = none ∨
          RoleFits (rest.drop (Bytes.readU16 hi lo).toNat))
  | _ => False

/-- The buffer is refused as too short for its frame length, or its payload fits. -/
def HeaderFits (buf : Bytes) : Prop :=
  buf.length < 4 ∨ buf.length < 4 + frameLen buf ∨ PayloadFits (buf.drop 4)

/-- The program returns, with `Some` or `None`, instead of panicking. -/
def Returns {α : Type} (m : Buf α) (buf : Bytes) : Prop := ∃ result, m buf = .ok result

@[simp] theorem returns_pure {α : Type} (x : α) (buf : Bytes) : Returns (pure x) buf :=
  ⟨(x, buf), rfl⟩

/-- A read that succeeds hands its result and cursor to the continuation. -/
theorem run_bind_of_ok {α β : Type} {m : Buf α} {f : α → Buf β} {buf rest : Bytes} {x : α}
    (h : m buf = .ok (x, rest)) : (m >>= f) buf = f x rest := by
  simp only [bind, StateT.bind, h, Except.bind]

theorem returns_bind_of_ok {α β : Type} {m : Buf α} {f : α → Buf β} {buf rest : Bytes} {x : α}
    (h : m buf = .ok (x, rest)) : Returns (m >>= f) buf ↔ Returns (f x) rest := by
  rw [Returns, run_bind_of_ok h, Returns]

/-- A read that panics ends the program. -/
theorem not_returns_bind_of_error {α β : Type} {m : Buf α} {f : α → Buf β} {buf : Bytes}
    {p : Panic} (h : m buf = .error p) : ¬Returns (m >>= f) buf := by
  simp [Returns, bind, StateT.bind, h, Except.bind]

theorem slice_of_le {n : Nat} {buf : Bytes} (h : n ≤ buf.length) :
    Buf.slice n buf = .ok (buf.take n, buf) := by
  rw [Buf.slice, if_neg (Nat.not_lt.mpr h)]

theorem slice_of_lt {n : Nat} {buf : Bytes} (h : buf.length < n) :
    Buf.slice n buf = .error .slice := by
  rw [Buf.slice, if_pos h]

theorem advance_of_le {n : Nat} {buf : Bytes} (h : n ≤ buf.length) :
    Buf.advance n buf = .ok ((), buf.drop n) := by
  rw [Buf.advance, if_neg (Nat.not_lt.mpr h)]

/-- A slice followed by its use: the bound of the slice is the only obligation. -/
theorem returns_slice_bind_iff {β : Type} {n : Nat} {f : Bytes → Buf β} {buf : Bytes} :
    Returns (Buf.slice n >>= f) buf ↔ n ≤ buf.length ∧ Returns (f (buf.take n)) buf := by
  by_cases h : n ≤ buf.length
  · simp only [returns_bind_of_ok (slice_of_le h), h, true_and]
  · simp only [not_returns_bind_of_error (slice_of_lt (Nat.lt_of_not_le h)), h, false_and]

theorem readRole_returns_iff {svid : String} {buf : Bytes} :
    Returns (readRole svid) buf ↔ RoleFits buf := by
  cases buf with
  | nil =>
      have hget : Buf.getU8 [] = .error .advance := rfl
      simp only [readRole, not_returns_bind_of_error hget, RoleFits]
  | cons roleLen rest =>
      have hget : Buf.getU8 (roleLen :: rest) = .ok (roleLen, rest) := rfl
      rw [readRole, returns_bind_of_ok hget, RoleFits]
      dsimp only
      split
      · -- a non-empty role: the slice is the only read that can fail
        rw [returns_slice_bind_iff, and_iff_left_iff_imp]
        intro hfits
        cases Text.fromUtf8 (rest.take roleLen.toNat) with
        | none => exact returns_pure none rest
        | some r => exact (returns_bind_of_ok (advance_of_le hfits)).mpr (returns_pure _ _)
      · simp only [returns_pure, true_iff]
        omega

theorem readPayload_returns_iff {buf : Bytes} (hlen : 4 ≤ buf.length) :
    Returns readPayload buf ↔ PayloadFits (buf.drop 4) := by
  rw [readPayload, returns_bind_of_ok (advance_of_le hlen)]
  match buf.drop 4 with
  | [] =>
      have hget : Buf.getU8 [] = .error .advance := rfl
      simp only [not_returns_bind_of_error hget, PayloadFits]
  | [version] =>
      have hversion : Buf.getU8 [version] = .ok (version, []) := rfl
      have hget : Buf.getU16 [] = .error .advance := rfl
      rw [returns_bind_of_ok hversion]
      simp only [not_returns_bind_of_error hget, PayloadFits]
  | [version, hi] =>
      have hversion : Buf.getU8 [version, hi] = .ok (version, [hi]) := rfl
      have hget : Buf.getU16 [hi] = .error .advance := rfl
      rw [returns_bind_of_ok hversion]
      simp only [not_returns_bind_of_error hget, PayloadFits]
  | version :: hi :: lo :: rest =>
      have hversion : Buf.getU8 (version :: hi :: lo :: rest) = .ok (version, hi :: lo :: rest) :=
        rfl
      have hget : Buf.getU16 (hi :: lo :: rest) = .ok (Bytes.readU16 hi lo, rest) := rfl
      rw [returns_bind_of_ok hversion, returns_bind_of_ok hget, returns_slice_bind_iff,
        PayloadFits]
      refine and_congr_right fun hfits => ?_
      cases Text.fromUtf8 (rest.take (Bytes.readU16 hi lo).toNat) with
      | none => simp
      | some svid =>
          simp only [returns_bind_of_ok (advance_of_le hfits), readRole_returns_iff,
            reduceCtorEq, false_or]

theorem frameLen_take (buf : Bytes) : frameLen (buf.take 4) = frameLen buf := by
  match buf with
  | [] => rfl
  | [_] => rfl
  | [_, _] => rfl
  | [_, _, _] => rfl
  | _ :: _ :: _ :: _ :: _ => rfl

/-- `read_header` returns exactly on the buffers it refuses as too short and on
those that really hold the lengths and strings its payload announces. -/
theorem readHeader_returns_iff (buf : Bytes) : Returns readHeader buf ↔ HeaderFits buf := by
  have hremaining : Buf.remaining buf = .ok (buf.length, buf) := rfl
  rw [HeaderFits, readHeader, returns_bind_of_ok hremaining]
  split
  · rename_i hshort
    simp [hshort]
  · rename_i hlong
    have hlen : 4 ≤ buf.length := Nat.le_of_not_lt hlong
    rw [returns_slice_bind_iff, frameLen_take, returns_bind_of_ok hremaining]
    split
    · rename_i hframe
      simp [hlen, hframe]
    · rename_i hframe
      simp only [readPayload_returns_iff hlen, hlen, hlong, hframe, true_and, false_or]

/-- A role text as it is returned: the empty one is no role. -/
def namedRole (role : String) : Option String := if role = "" then none else some role

@[simp] theorem namedRole_getD (role : String) : (namedRole role).getD "" = role := by
  rw [namedRole]
  split
  · rename_i hempty
    exact hempty.symm
  · rfl

/-- With its bytes present, the role decides: text is consumed, anything else is refused
with the cursor in front of it. -/
theorem readRole_of_fits {svid : String} {roleLen : UInt8} {rest : Bytes}
    (hfits : roleLen.toNat ≤ rest.length) :
    readRole svid (roleLen :: rest) =
      match Text.fromUtf8 (rest.take roleLen.toNat) with
      | none => .ok (none, rest)
      | some role => .ok (some (svid, namedRole role), rest.drop roleLen.toNat) := by
  have hget : Buf.getU8 (roleLen :: rest) = .ok (roleLen, rest) := rfl
  rw [readRole, run_bind_of_ok hget]
  split
  · rename_i hpos
    rw [run_bind_of_ok (slice_of_le hfits)]
    cases htext : Text.fromUtf8 (rest.take roleLen.toNat) with
    | none => rfl
    | some role =>
        have hne : role ≠ "" := by
          rintro rfl
          have hlength := congrArg List.length (Text.fromUtf8_eq_some_iff.mp htext)
          rw [List.length_take, Nat.min_eq_left hfits] at hlength
          exact absurd hlength (Nat.ne_of_lt hpos)
        dsimp only
        rw [run_bind_of_ok (advance_of_le hfits), namedRole, if_neg hne]
        rfl
  · rename_i hzero
    have hempty : Text.fromUtf8 [] = some "" := Text.fromUtf8_eq_some_iff.mpr rfl
    rw [Nat.eq_zero_of_not_pos hzero, List.take_zero, hempty]
    rfl

/-- Behind an accepted frame length, with its bytes present, the SVID decides. -/
theorem readHeader_of_fits {buf rest : Bytes} {version : UInt8} {svidLen : UInt16}
    (hframe : 4 + frameLen buf ≤ buf.length)
    (hdrop : buf.drop 4 = version :: (Bytes.u16be svidLen ++ rest))
    (hfits : svidLen.toNat ≤ rest.length) :
    readHeader buf =
      match Text.fromUtf8 (rest.take svidLen.toNat) with
      | none => .ok (none, rest)
      | some svid => readRole svid (rest.drop svidLen.toNat) := by
  have hfour : 4 ≤ buf.length := by omega
  have hremaining : Buf.remaining buf = .ok (buf.length, buf) := rfl
  have hversion : ∀ after, Buf.getU8 (version :: after) = .ok (version, after) := fun _ => rfl
  have hsvidLen : ∀ after, Buf.getU16 (Bytes.u16be svidLen ++ after) = .ok (svidLen, after) := by
    intro after
    have hread : Bytes.readU16 (UInt8.ofNat (svidLen.toNat / 256)) (UInt8.ofNat svidLen.toNat) =
        svidLen := Bytes.readU16_eq_iff.mpr rfl
    simp only [Bytes.u16be, List.cons_append, List.nil_append, Buf.getU16, hread]
  rw [readHeader, run_bind_of_ok hremaining, if_neg (by omega), run_bind_of_ok (slice_of_le hfour),
    frameLen_take, run_bind_of_ok hremaining, if_neg (by omega), readPayload,
    run_bind_of_ok (advance_of_le hfour), hdrop, run_bind_of_ok (hversion _),
    run_bind_of_ok (hsvidLen _), run_bind_of_ok (slice_of_le hfits)]
  cases Text.fromUtf8 (rest.take svidLen.toNat) with
  | none => rfl
  | some svid =>
      dsimp only
      rw [run_bind_of_ok (advance_of_le hfits)]

/-- A buffer that is too short for its frame length is refused untouched. -/
theorem readHeader_of_short {buf : Bytes} (h : buf.length < 4 ∨ buf.length < 4 + frameLen buf) :
    readHeader buf = .ok (none, buf) := by
  have hremaining : Buf.remaining buf = .ok (buf.length, buf) := rfl
  rw [readHeader, run_bind_of_ok hremaining]
  split
  · rfl
  · rename_i hlong
    have hfour : 4 ≤ buf.length := Nat.le_of_not_lt hlong
    rw [run_bind_of_ok (slice_of_le hfour), frameLen_take, run_bind_of_ok hremaining,
      if_pos (h.resolve_left hlong)]
    rfl

/-- A frame length of zero: the version byte is read past the end. -/
theorem readHeader_panics_on_empty_frame : ¬∀ buf : Bytes, Returns readHeader buf := by
  intro claim
  obtain ⟨result, h⟩ := claim [0, 0, 0, 0]
  cases h

end Fleetos.IdentityHeader
