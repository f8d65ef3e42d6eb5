import FleetosCore.Library.Bytes
import FleetosCore.Library.Fallible

/-!
# PCR values, PCR policies and constant-time comparison

The pure part of `src/attestation.rs`: the canonical PCR model, the policy check
over a submitted list of register values, and the byte comparison both this
check and the quote verifier use. Nothing here reads a quote; a policy is
compared with the submitted list alone.
-/

namespace Fleetos.Attestation

inductive AttestError where
  | quoteGenerationFailed
  | verificationFailed
  | policyMismatch
  | invalidJoinToken
  deriving DecidableEq, Repr

/-- A single PCR register value. `hashAlgorithm` is the TPMI_ALG_HASH selector. -/
structure PcrValue where
  index : UInt8
  hashAlgorithm : UInt16
  digest : Bytes
  deriving DecidableEq, Repr

/-- The register values a node must present. An empty policy mandates none. -/
structure PcrPolicy where
  expectedPcrs : List PcrValue
  deriving DecidableEq, Repr

/-- The lookup both the policy check and the quote binding perform: the first
submitted entry for a register of a bank. -/
def findPcr (submitted : List PcrValue) (index : UInt8) (hashAlgorithm : UInt16) :
    Option PcrValue :=
  submitted.find? fun p => p.index == index && p.hashAlgorithm == hashAlgorithm

/-- OR of the XORs of corresponding bytes, after an early length test. -/
def ctEq (a b : Bytes) : Bool :=
  if a.length ≠ b.length then false
  else (a.zip b).foldl (fun acc p => acc ||| (p.1 ^^^ p.2)) 0 == 0

def verifyPcrPolicy (submitted : List PcrValue) (policy : PcrPolicy) :
    Except AttestError Unit :=
  forM policy.expectedPcrs fun expected =>
    match findPcr submitted expected.index expected.hashAlgorithm with
    | none => throw .policyMismatch
    | some found =>
        if !ctEq found.digest expected.digest then throw .policyMismatch else pure ()

/-- The accumulator only gains bits: it ends at zero exactly when it starts at
zero and no pair differs. -/
private theorem foldl_xor_eq_zero_iff (pairs : List (UInt8 × UInt8)) (acc : UInt8) :
    pairs.foldl (fun acc p => acc ||| (p.1 ^^^ p.2)) acc = 0 ↔
      acc = 0 ∧ ∀ p ∈ pairs, p.1 = p.2 := by
  induction pairs generalizing acc with
  | nil => simp
  | cons p pairs ih =>
      simp only [List.foldl_cons, ih, UInt8.or_eq_zero_iff, UInt8.xor_eq_zero_iff,
        List.mem_cons, forall_eq_or_imp, and_assoc]

private theorem forall_zip_eq_iff {a b : Bytes} (hlen : a.length = b.length) :
    (∀ p ∈ a.zip b, p.1 = p.2) ↔ a = b := by
  induction a generalizing b with
  | nil =>
      cases b with
      | nil => simp
      | cons => simp at hlen
  | cons x a ih =>
      cases b with
      | nil => simp at hlen
      | cons y b =>
          simp only [List.length_cons, Nat.add_right_cancel_iff] at hlen
          simp only [List.zip_cons_cons, List.mem_cons, forall_eq_or_imp, ih hlen,
            List.cons.injEq]

/-- The comparison is exact equality, for all lengths. -/
theorem ctEq_iff (a b : Bytes) : ctEq a b = true ↔ a = b := by
  simp only [ctEq]
  split
  · rename_i hne
    simp only [Bool.false_eq_true, false_iff]
    rintro rfl
    exact hne rfl
  · rename_i hlen
    simp only [ne_eq, Decidable.not_not] at hlen
    rw [beq_iff_eq, foldl_xor_eq_zero_iff, forall_zip_eq_iff hlen]
    simp

@[simp] theorem ctEq_eq_decide (a b : Bytes) : ctEq a b = decide (a = b) := by
  rw [Bool.eq_iff_iff, ctEq_iff, decide_eq_true_iff]

theorem findPcr_some {submitted : List PcrValue} {index : UInt8} {hashAlgorithm : UInt16}
    {found : PcrValue} (h : findPcr submitted index hashAlgorithm = some found) :
    found ∈ submitted ∧ found.index = index ∧ found.hashAlgorithm = hashAlgorithm := by
  refine ⟨List.mem_of_find?_eq_some h, ?_⟩
  simpa using List.find?_some h

/-- The policy passes exactly when every mandated register is found and matches. -/
theorem verifyPcrPolicy_ok_iff {submitted : List PcrValue} {policy : PcrPolicy} :
    verifyPcrPolicy submitted policy = .ok () ↔
      ∀ expected ∈ policy.expectedPcrs, ∃ found,
        findPcr submitted expected.index expected.hashAlgorithm = some found ∧
          found.digest = expected.digest := by
  simp only [verifyPcrPolicy, Fallible.forM_ok_iff]
  refine forall₂_congr fun expected _ => ?_
  cases hfound : findPcr submitted expected.index expected.hashAlgorithm with
  | none => simp
  | some found =>
      by_cases hdigest : found.digest = expected.digest
      · simp [hdigest]
      · simp [hdigest]

end Fleetos.Attestation
