import FleetosCore.Attestation.AkPublic
import FleetosCore.Attestation.QuoteTrust

/-!
# The point of an ECC attestation key

`verify_ecdsa_p256` of `src/attestation/quote.rs` puts the two coordinates of a parsed
key behind the octet `04` and has the `p256` crate decode the result, which takes 64
octets and splits them in the middle. The coordinates come with lengths of their own and
are not padded, so the split is between them only when both have 32 octets.
-/

namespace Fleetos.Attestation

/-- The `p256` crate on uncompressed points: 64 octets, split in the middle, that are
the coordinates of a curve point. -/
structure P256Crates extends SignatureCrates where
  onCurve : Nat → Nat → Bool
  fromSec1Bytes_uncompressed : ∀ point : Bytes, fromSec1Bytes ([0x04] ++ point) =
    if point.length = 64 ∧
        onCurve (bigUintFromBytesBe (point.take 32)) (bigUintFromBytesBe (point.drop 32)) then
      some (bigUintFromBytesBe (point.take 32), bigUintFromBytesBe (point.drop 32))
    else none

section

variable (crates : P256Crates) (x y : Bytes)

/-- The key that the signature check decodes from the coordinates. -/
def decodedKey : Option (Nat × Nat) := crates.fromSec1Bytes ([0x04] ++ x ++ y)

/-- The check takes the signature under this key and no other. -/
theorem verifyEcdsaP256_ok_iff_decodedKey {quoteBytes sig : Bytes} :
    verifyEcdsaP256 crates.toSignatureCrates x y quoteBytes sig = .ok () ↔
      ∃ vk, decodedKey crates x y = some vk ∧ crates.ecdsaVerify vk quoteBytes sig :=
  verifyEcdsaP256_ok_iff

/-- The point with these two coordinates, when there is one. -/
def pointOf : Option (Nat × Nat) :=
  if crates.onCurve (bigUintFromBytesBe x) (bigUintFromBytesBe y) then
    some (bigUintFromBytesBe x, bigUintFromBytesBe y)
  else none

/-- Coordinates that fit are decoded as they are, and longer ones are refused. -/
def KeyIsPoint : Prop :=
  (x.length ≤ 32 ∧ y.length ≤ 32 → decodedKey crates x y = pointOf crates x y) ∧
    (32 < x.length ∨ 32 < y.length → decodedKey crates x y = none)

/-- The two lengths are right, or nothing is decoded and there is nothing to decode. -/
def WellDivided : Prop :=
  (x.length ≤ 32 ∧ y.length ≤ 32 → x.length = 32 ∧ y.length = 32 ∨
      crates.onCurve (bigUintFromBytesBe x) (bigUintFromBytesBe y) = false) ∧
    (32 < x.length ∨ 32 < y.length → x.length + y.length ≠ 64 ∨
      crates.onCurve (bigUintFromBytesBe ((x ++ y).take 32))
        (bigUintFromBytesBe ((x ++ y).drop 32)) = false)

end

section

variable {crates : P256Crates} {x y : Bytes}

theorem decodedKey_eq : decodedKey crates x y =
    if x.length + y.length = 64 then pointOf crates ((x ++ y).take 32) ((x ++ y).drop 32)
    else none := by
  rw [decodedKey, List.append_assoc, crates.fromSec1Bytes_uncompressed, List.length_append,
    pointOf]
  by_cases hlen : x.length + y.length = 64
  · simp only [hlen, true_and, if_true]
  · simp only [hlen, false_and, if_false]

theorem decodedKey_of_32 (hx : x.length = 32) (hy : y.length = 32) :
    decodedKey crates x y = pointOf crates x y := by
  rw [decodedKey_eq, if_pos (by omega), ← hx, List.take_left, List.drop_left]

theorem pointOf_eq_none_iff : pointOf crates x y = none ↔
    crates.onCurve (bigUintFromBytesBe x) (bigUintFromBytesBe y) = false := by
  rw [pointOf]
  split
  · rename_i hcurve
    simp [hcurve]
  · rename_i hcurve
    simpa using hcurve

theorem keyIsPoint_iff_wellDivided : KeyIsPoint crates x y ↔ WellDivided crates x y := by
  refine and_congr (forall_congr' fun hshort => ?_) (forall_congr' fun hlong => ?_)
  · by_cases hlen : x.length = 32 ∧ y.length = 32
    · simp only [decodedKey_of_32 hlen.1 hlen.2, hlen, and_self, true_or]
    · rw [decodedKey_eq, if_neg (by omega), or_iff_right hlen, ← pointOf_eq_none_iff]
      exact eq_comm
  · by_cases hlen : x.length + y.length = 64
    · rw [decodedKey_eq, if_pos hlen, or_iff_right (not_not_intro hlen), pointOf_eq_none_iff]
    · rw [decodedKey_eq, if_neg hlen]
      exact ⟨fun _ => .inl hlen, fun _ => rfl⟩

end

/-- The verification key of every parsed ECC key is its point exactly when the
coordinates in the bytes are well divided. -/
theorem parsed_key_is_point_iff (crates : P256Crates) (bytes : Bytes) :
    (∀ x y, parseAkPublic bytes = .ok (.ecc x y) → KeyIsPoint crates x y) ↔
      ∀ (area : AkArea) (rest x y : Bytes), bytes = area.bytes ++ rest →
        area.fields.material = .ecc x y → WellDivided crates x y := by
  constructor
  · rintro h area rest x y rfl hmaterial
    refine keyIsPoint_iff_wellDivided.mp (h x y ?_)
    exact parseAkPublic_ok_iff.mpr ⟨area, rest, rfl, hmaterial.symm⟩
  · intro h x y hparse
    obtain ⟨area, rest, hbytes, hmaterial⟩ := parseAkPublic_ok_iff.mp hparse
    exact keyIsPoint_iff_wellDivided.mpr (h area rest x y hbytes hmaterial.symm)

/-! ## A coordinate of 31 octets -/

namespace P256

def fieldPrime : Nat := 2 ^ 256 - 2 ^ 224 + 2 ^ 192 + 2 ^ 96 - 1

def coefficientB : Nat := 0x5ac635d8aa3a93e7b3ebbd55769886bc651d06b0cc53b0f63bce3c3e27d2604b

/-- The curve equation, with coefficient -3 of `x`. -/
def onCurve (x y : Nat) : Bool :=
  x < fieldPrime && y < fieldPrime &&
    (y ^ 2 + 3 * x) % fieldPrime == (x ^ 3 + coefficientB) % fieldPrime

/-- Decodes the points of the curve; no signature is checked here. -/
def crates : P256Crates where
  rsaPublicKey _ _ := false
  rsaVerify _ _ _ _ := false
  ecdsaVerify _ _ _ := false
  onCurve := onCurve
  fromSec1Bytes
    | 0x04 :: point =>
        if point.length = 64 ∧
            onCurve (bigUintFromBytesBe (point.take 32)) (bigUintFromBytesBe (point.drop 32)) then
          some (bigUintFromBytesBe (point.take 32), bigUintFromBytesBe (point.drop 32))
        else none
    | _ => none
  fromSec1Bytes_uncompressed _ := rfl

/-- The coordinates of a point; the first starts with a zero octet, which is left out. -/
def shortX : Bytes := [0x01] ++ List.replicate 29 0x00 ++ [0x08]

def fullY : Bytes :=
  [0x3c, 0x17, 0xb9, 0xc8, 0xfe, 0x44, 0x46, 0x77, 0xb7, 0xf9, 0xc7, 0xe6, 0xcc, 0xd9, 0x85,
    0x7a, 0x7a, 0x28, 0x21, 0x72, 0x10, 0x2d, 0x84, 0x03, 0x15, 0x9c, 0x25, 0x2d, 0x8f, 0x4b,
    0x21, 0x50]

theorem onCurve_short :
    crates.onCurve (bigUintFromBytesBe shortX) (bigUintFromBytesBe fullY) = true := by
  decide +kernel

/-- An ECDSA key on P-256 with this point. -/
def shortKey : AkArea :=
  ⟨tpmAlgSha256, 0x00050072, [],
    .ecc (.hash tpmAlgEcdsa tpmAlgSha256 (by decide)) 0x0003 .null shortX fullY (by decide)
      (by decide), emptyPolicy_lt⟩

end P256

/-- A key on the curve is refused because one of its coordinates is short. -/
theorem short_coordinate_refused :
    ¬ ∀ (crates : P256Crates) (bytes x y : Bytes),
      parseAkPublic bytes = .ok (.ecc x y) → KeyIsPoint crates x y := by
  intro h
  have hparse : parseAkPublic P256.shortKey.bytes = .ok (.ecc P256.shortX P256.fullY) :=
    parseAkPublic_ok_iff.mpr ⟨P256.shortKey, [], (List.append_nil _).symm, rfl⟩
  have hpoint := h P256.crates _ _ _ hparse
  obtain ⟨hdivided, -⟩ := keyIsPoint_iff_wellDivided.mp hpoint
  rcases hdivided (by decide) with hlen | hcurve
  · exact absurd hlen (by decide)
  · rw [P256.onCurve_short] at hcurve
    cases hcurve

end Fleetos.Attestation
