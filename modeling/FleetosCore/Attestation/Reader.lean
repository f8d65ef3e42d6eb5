import FleetosCore.Attestation.Pcr
import FleetosCore.Library.Cursor

/-!
# The quote verifier's big-endian reader

`Reader` of `src/attestation/quote.rs`: a bounds-checked walk over marshaled TPM
structures. Every failure is `VerificationFailed`, so the walks below are
specified by what they accept. Each rule says that a read accepts exactly the
big-endian encoding of the value it returns.
-/

namespace Fleetos.Attestation

abbrev Reader (α : Type) : Type := Cursor AttestError α

namespace Reader

def take (n : Nat) : Reader Bytes := Cursor.take .verificationFailed n

def skip (n : Nat) : Reader Unit := do
  let _ ← take n
  return ()

def u8 : Reader UInt8 := do
  match ← take 1 with
  | [a] => return a
  | _ => throw .verificationFailed

def u16 : Reader UInt16 := do
  match ← take 2 with
  | [a, b] => return Bytes.readU16 a b
  | _ => throw .verificationFailed

def u32 : Reader UInt32 := do
  match ← take 4 with
  | [a, b, c, d] => return Bytes.readU32 a b c d
  | _ => throw .verificationFailed

/-- `return Err(VerificationFailed)` unless the condition holds. -/
def require (condition : Prop) [Decidable condition] : Reader Unit :=
  Cursor.check .verificationFailed condition

open Cursor (Reads)

theorem reads_take (n : Nat) : Reads (take n) (fun b x => b = x ∧ x.length = n) :=
  Reads.take _ n

theorem reads_require (condition : Prop) [Decidable condition] :
    Reads (require condition) (fun b _ => b = [] ∧ condition) :=
  Reads.check _ condition

theorem reads_skip (n : Nat) : Reads (skip n) (fun b _ => b.length = n) := by
  refine (Reads.bind (reads_take n) (fun _ => Reads.pure ())).consequence fun b x => ?_
  constructor
  · rintro ⟨_, b₁, _, rfl, ⟨rfl, hlen⟩, rfl, _⟩
    simpa using hlen
  · intro hlen
    exact ⟨b, b, [], by simp, ⟨rfl, hlen⟩, rfl, rfl⟩

/-- A fixed-width read: the decoder sees exactly `width` bytes and succeeds on
all of them, so the result is characterized by any inverse encoding. -/
private theorem reads_fixed {α : Type} {width : Nat} {decode : Bytes → Reader α}
    {encode : α → Bytes}
    (spec : ∀ bs : Bytes, bs.length = width →
      ∃ x, decode bs = pure x ∧ ∀ y, x = y ↔ bs = encode y)
    (length : ∀ y, (encode y).length = width) :
    Reads (take width >>= decode) (fun b y => b = encode y) := by
  intro bs y rest
  rw [Cursor.bind_ok_iff]
  constructor
  · rintro ⟨_, middle, htake, hdecode⟩
    obtain ⟨taken, rfl, rfl, hlen⟩ := (reads_take width _ _ _).mp htake
    obtain ⟨z, hz, hiff⟩ := spec taken hlen
    rw [hz] at hdecode
    obtain ⟨rfl, rfl⟩ := Prod.mk.inj (Except.ok.inj hdecode)
    exact ⟨taken, rfl, (hiff z).mp rfl⟩
  · rintro ⟨_, rfl, rfl⟩
    refine ⟨encode y, rest, (reads_take width _ _ _).mpr ⟨_, rfl, rfl, length y⟩, ?_⟩
    obtain ⟨z, hz, hiff⟩ := spec (encode y) (length y)
    rw [hz, (hiff y).mpr rfl]
    rfl

theorem reads_u8 : Reads u8 (fun b x => b = [x]) := by
  refine reads_fixed ?_ (fun _ => rfl)
  intro bs hlen
  obtain ⟨a, rfl⟩ := List.length_eq_one_iff.mp hlen
  exact ⟨a, rfl, fun y => by simp⟩

theorem reads_u16 : Reads u16 (fun b x => b = Bytes.u16be x) := by
  refine reads_fixed ?_ Bytes.u16be_length
  intro bs hlen
  obtain ⟨a, b, rfl⟩ := List.length_eq_two.mp hlen
  exact ⟨Bytes.readU16 a b, rfl, fun y => Bytes.readU16_eq_iff⟩

theorem reads_u32 : Reads u32 (fun b x => b = Bytes.u32be x) := by
  refine reads_fixed ?_ Bytes.u32be_length
  intro bs hlen
  match bs, hlen with
  | [a, b, c, d], _ => exact ⟨Bytes.readU32 a b c d, rfl, fun y => Bytes.readU32_eq_iff⟩

/-- A field under a two-byte length, as the walks read it. -/
def sized : Reader Bytes := do
  let n ← u16
  take n.toNat

/-- The same without its contents. -/
def skipSized : Reader Unit := do
  let n ← u16
  skip n.toNat

theorem sized16_of_length {size : UInt16} {field : Bytes} (h : field.length = size.toNat) :
    Bytes.u16be size ++ field = Bytes.sized16 field := by
  rw [Bytes.sized16, h, UInt16.ofNat_toNat]

theorem length_lt_of_size {size : UInt16} {field : Bytes} (h : field.length = size.toNat) :
    field.length < 2 ^ 16 := by
  rw [h]
  exact size.toNat_lt

theorem reads_sized :
    Reads sized (fun b field => b = Bytes.sized16 field ∧ field.length < 2 ^ 16) := by
  refine (Reads.bind reads_u16 fun n => reads_take n.toNat).consequence fun b field => ?_
  constructor
  · rintro ⟨n, _, _, rfl, rfl, rfl, hlen⟩
    exact ⟨sized16_of_length hlen, length_lt_of_size hlen⟩
  · rintro ⟨rfl, hlt⟩
    exact ⟨_, _, field, rfl, rfl, rfl, (Bytes.ofNat_length_toNat hlt).symm⟩

theorem reads_skipSized :
    Reads skipSized (fun b _ => ∃ field : Bytes, b = Bytes.sized16 field ∧
      field.length < 2 ^ 16) := by
  refine (Reads.bind reads_u16 fun n => reads_skip n.toNat).consequence fun b _ => ?_
  constructor
  · rintro ⟨n, _, field, rfl, rfl, hlen⟩
    exact ⟨field, sized16_of_length hlen, length_lt_of_size hlen⟩
  · rintro ⟨field, rfl, hlt⟩
    exact ⟨_, _, field, rfl, rfl, (Bytes.ofNat_length_toNat hlt).symm⟩

end Reader

end Fleetos.Attestation
