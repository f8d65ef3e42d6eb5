import FleetosCore.Attestation.Pcr

/-!
# The register map behind a PCR policy

`verify_pcr_policy` of `src/attestation.rs` walks the expected registers in order and
looks each one up in the submitted list. The submitted list enters as a map from
registers to digests, the first entry of a register being its value, and the policy as
a set of demands on that map.

Everything a policy check can be asked (another order, a longer policy, more submitted
entries) is answered on the map. The error is the same for a missing register and for
a wrong digest, so a refused policy has one result.
-/

namespace Fleetos.Attestation

variable {submitted other more : List PcrValue} {policy : PcrPolicy}

/-- Two values of one register: same index, same bank. -/
def PcrValue.SameRegister (p q : PcrValue) : Prop :=
  p.index = q.index ∧ p.hashAlgorithm = q.hashAlgorithm

/-- The first submitted entry of the register that `expected` is about. -/
def FirstEntry (submitted : List PcrValue) (expected found : PcrValue) : Prop :=
  ∃ before after, submitted = before ++ found :: after ∧ found.SameRegister expected ∧
    ∀ p ∈ before, ¬ p.SameRegister expected

theorem findPcr_eq_some_iff_firstEntry {expected found : PcrValue} :
    findPcr submitted expected.index expected.hashAlgorithm = some found ↔
      FirstEntry submitted expected found := by
  have htest : ∀ p : PcrValue, (p.index == expected.index &&
      p.hashAlgorithm == expected.hashAlgorithm) = true ↔ p.SameRegister expected := by
    intro p
    rw [Bool.and_eq_true, beq_iff_eq, beq_iff_eq, PcrValue.SameRegister]
  rw [findPcr, List.find?_eq_some_iff_append, htest]
  constructor
  · rintro ⟨hfound, before, after, rfl, hbefore⟩
    refine ⟨before, after, rfl, hfound, fun p hp hsame => ?_⟩
    have hfalse := hbefore p hp
    rw [(htest p).mpr hsame] at hfalse
    cases hfalse
  · rintro ⟨before, after, rfl, hfound, hbefore⟩
    refine ⟨hfound, before, after, rfl, fun p hp => ?_⟩
    rw [Bool.not_eq_true', Bool.eq_false_iff, ne_eq, htest]
    exact hbefore p hp

/-! ## The map and the demands on it -/

/-- The digest of a register: that of its first entry. -/
def registers (submitted : List PcrValue) (index : UInt8) (hashAlgorithm : UInt16) :
    Option Bytes :=
  (findPcr submitted index hashAlgorithm).map PcrValue.digest

/-- Every expected register has the expected digest. -/
def Satisfies (map : UInt8 → UInt16 → Option Bytes) (policy : PcrPolicy) : Prop :=
  ∀ expected ∈ policy.expectedPcrs,
    map expected.index expected.hashAlgorithm = some expected.digest

theorem verifyPcrPolicy_ok_iff_satisfies :
    verifyPcrPolicy submitted policy = .ok () ↔ Satisfies (registers submitted) policy := by
  rw [verifyPcrPolicy_ok_iff, Satisfies]
  refine forall₂_congr fun expected _ => ?_
  rw [registers, Option.map_eq_some_iff]

/-- A policy that does not pass is refused, and in one way. -/
theorem verifyPcrPolicy_error_iff :
    verifyPcrPolicy submitted policy = .error .policyMismatch ↔
      ¬ Satisfies (registers submitted) policy := by
  rw [← verifyPcrPolicy_ok_iff_satisfies]
  constructor
  · intro herror hok
    rw [herror] at hok
    cases hok
  · intro hrefused
    cases hresult : verifyPcrPolicy submitted policy with
    | ok => exact absurd hresult hrefused
    | error e =>
        obtain ⟨expected, -, hstep⟩ := Fallible.forM_error_mem hresult
        split at hstep
        · cases hstep
          rfl
        · split at hstep
          · cases hstep
            rfl
          · cases hstep

/-- The result is a function of what the policy demands of the map. -/
theorem verifyPcrPolicy_congr {policy' : PcrPolicy}
    (h : Satisfies (registers submitted) policy ↔ Satisfies (registers other) policy') :
    verifyPcrPolicy submitted policy = verifyPcrPolicy other policy' := by
  by_cases hpasses : Satisfies (registers submitted) policy
  · rw [verifyPcrPolicy_ok_iff_satisfies.mpr hpasses,
      verifyPcrPolicy_ok_iff_satisfies.mpr (h.mp hpasses)]
  · rw [verifyPcrPolicy_error_iff.mpr hpasses,
      verifyPcrPolicy_error_iff.mpr fun hother => hpasses (h.mpr hother)]

theorem satisfies_append_iff {map : UInt8 → UInt16 → Option Bytes}
    {expected demanded : List PcrValue} :
    Satisfies map ⟨expected ++ demanded⟩ ↔
      Satisfies map ⟨expected⟩ ∧ Satisfies map ⟨demanded⟩ := by
  simp only [Satisfies, List.forall_mem_append]

/-- An entry that is there stays the first one when more are appended. -/
theorem registers_append {index : UInt8} {hashAlgorithm : UInt16} {digest : Bytes}
    (h : registers submitted index hashAlgorithm = some digest) :
    registers (submitted ++ more) index hashAlgorithm = some digest := by
  obtain ⟨found, hfound, rfl⟩ := Option.map_eq_some_iff.mp h
  rw [registers, findPcr, List.find?_append]
  rw [findPcr] at hfound
  rw [hfound]
  rfl

theorem registers_eq_of_firstEntry {expected found : PcrValue}
    (h : FirstEntry submitted expected found) :
    registers submitted expected.index expected.hashAlgorithm = some found.digest := by
  rw [registers, findPcr_eq_some_iff_firstEntry.mpr h]
  rfl

theorem Satisfies.append (h : Satisfies (registers submitted) policy) :
    Satisfies (registers (submitted ++ more)) policy :=
  fun expected hmem => registers_append (h expected hmem)

/-- A wrong digest stays wrong: what is appended comes after it. -/
theorem not_satisfies_append {expected found : PcrValue} (hmem : expected ∈ policy.expectedPcrs)
    (hfound : FirstEntry submitted expected found) (hdigest : found.digest ≠ expected.digest) :
    ¬ Satisfies (registers (submitted ++ more)) policy := by
  intro h
  have hentry := h expected hmem
  rw [registers_append (registers_eq_of_firstEntry hfound)] at hentry
  exact hdigest (Option.some.inj hentry)

/-- No map has two digests for a register. -/
theorem not_satisfies_of_conflict {map : UInt8 → UInt16 → Option Bytes} {p q : PcrValue}
    (hp : p ∈ policy.expectedPcrs) (hq : q ∈ policy.expectedPcrs) (hsame : p.SameRegister q)
    (hdigest : p.digest ≠ q.digest) : ¬ Satisfies map policy := by
  intro h
  have hfirst := h p hp
  rw [hsame.1, hsame.2, h q hq] at hfirst
  exact hdigest (Option.some.inj hfirst).symm

/-- The policy check depends on the register map only. It passes when the first entry of
every expected register has the expected digest, whatever the order and the repetitions
in the policy; it passes for two lists of demands together when it does for each; and
appended entries change neither a passed check nor a mismatch. -/
theorem verifyPcrPolicy_depends_on_registers (submitted : List PcrValue) (policy : PcrPolicy) :
    (∀ a b, ctEq a b = true ↔ a = b) ∧
    (verifyPcrPolicy submitted policy = .ok () ↔
      ∀ expected ∈ policy.expectedPcrs, ∃ found, FirstEntry submitted expected found ∧
        found.digest = expected.digest) ∧
    (∀ other, registers other = registers submitted →
      verifyPcrPolicy other policy = verifyPcrPolicy submitted policy) ∧
    (∀ policy' : PcrPolicy,
      (∀ expected, expected ∈ policy'.expectedPcrs ↔ expected ∈ policy.expectedPcrs) →
      verifyPcrPolicy submitted policy' = verifyPcrPolicy submitted policy) ∧
    (∀ policy' : PcrPolicy,
      verifyPcrPolicy submitted ⟨policy.expectedPcrs ++ policy'.expectedPcrs⟩ = .ok () ↔
        verifyPcrPolicy submitted policy = .ok () ∧
          verifyPcrPolicy submitted policy' = .ok ()) ∧
    (∀ more, verifyPcrPolicy submitted policy = .ok () →
      verifyPcrPolicy (submitted ++ more) policy = .ok ()) ∧
    (∀ more, ∀ expected ∈ policy.expectedPcrs, ∀ found, FirstEntry submitted expected found →
      found.digest ≠ expected.digest →
      verifyPcrPolicy (submitted ++ more) policy = .error .policyMismatch) ∧
    (∀ p ∈ policy.expectedPcrs, ∀ q ∈ policy.expectedPcrs, p.SameRegister q →
      p.digest ≠ q.digest → verifyPcrPolicy submitted policy = .error .policyMismatch) := by
  refine ⟨ctEq_iff, ?_, ?_, ?_, ?_, ?_, ?_, ?_⟩
  · simp only [verifyPcrPolicy_ok_iff, findPcr_eq_some_iff_firstEntry]
  · intro other hmap
    exact verifyPcrPolicy_congr (by rw [hmap])
  · intro policy' hmem
    refine verifyPcrPolicy_congr ?_
    simp only [Satisfies, hmem]
  · intro policy'
    simp only [verifyPcrPolicy_ok_iff_satisfies, satisfies_append_iff]
  · intro more hok
    rw [verifyPcrPolicy_ok_iff_satisfies] at hok ⊢
    exact hok.append
  · intro more expected hmem found hfound hdigest
    exact verifyPcrPolicy_error_iff.mpr (not_satisfies_append hmem hfound hdigest)
  · intro p hp q hq hsame hdigest
    exact verifyPcrPolicy_error_iff.mpr (not_satisfies_of_conflict hp hq hsame hdigest)

/-- The two values of register 7 that the cases below submit and expect. -/
def Sample.pcr7 (digest : Bytes) : PcrValue := ⟨7, 0x000B, digest⟩

/-- The first value of a register decides, a second one does not repair a mismatch, and
nothing passes a policy that expects both. -/
theorem second_value_ignored :
    verifyPcrPolicy ([Sample.pcr7 [0xAA]] ++ [Sample.pcr7 [0xBB]]) ⟨[Sample.pcr7 [0xAA]]⟩ =
      .ok () ∧
    verifyPcrPolicy ([Sample.pcr7 [0xAA]] ++ [Sample.pcr7 [0xBB]]) ⟨[Sample.pcr7 [0xBB]]⟩ =
      .error .policyMismatch ∧
    verifyPcrPolicy [Sample.pcr7 [0xAA]] ⟨[Sample.pcr7 [0xAA], Sample.pcr7 [0xBB]]⟩ =
      .error .policyMismatch := by
  refine ⟨?_, ?_, ?_⟩
  · obtain ⟨-, -, -, -, -, happend, -, -⟩ := verifyPcrPolicy_depends_on_registers
      [Sample.pcr7 [0xAA]] ⟨[Sample.pcr7 [0xAA]]⟩
    exact happend _ (by decide)
  · obtain ⟨-, -, -, -, -, -, hmismatch, -⟩ := verifyPcrPolicy_depends_on_registers
      [Sample.pcr7 [0xAA]] ⟨[Sample.pcr7 [0xBB]]⟩
    exact hmismatch _ _ List.mem_cons_self (Sample.pcr7 [0xAA])
      ⟨[], [], rfl, ⟨rfl, rfl⟩, by simp⟩ (by decide)
  · obtain ⟨-, -, -, -, -, -, -, hconflict⟩ := verifyPcrPolicy_depends_on_registers
      [Sample.pcr7 [0xAA]] ⟨[Sample.pcr7 [0xAA], Sample.pcr7 [0xBB]]⟩
    exact hconflict _ List.mem_cons_self _ (List.mem_cons_of_mem _ List.mem_cons_self)
      ⟨rfl, rfl⟩ (by decide)

end Fleetos.Attestation
