import FleetosCore.Attestation.QuoteTrust
import Mathlib.Data.Nat.Bitwise

/-!
# What the PCR binding checks

`verify_pcr_binding` of `src/attestation/quote.rs` against its own statement of purpose:
the selected registers in ascending order, the first submitted entry of each, one hash
over their digests. The bitmap is read as bits of numbers here, and the order of the
registers is not that of the loops but the ascending one.

The submitted list enters through the lookups of the selected registers and through
nothing else. Lists that agree on those get the same result, error included.
-/

namespace Fleetos.Attestation

/-- Bit `bit` of a bitmap byte is bit `bit` of the number. -/
theorem bitSet_eq_testBit (bitmapByte : UInt8) {bit : Nat} (h : bit < 8) :
    bitSet bitmapByte bit = bitmapByte.toNat.testBit bit := by
  have hmask : (1 <<< UInt8.ofNat bit : UInt8).toNat = 2 ^ bit := by
    have hpow : 2 ^ bit < 2 ^ 8 := Nat.pow_lt_pow_right (by decide) h
    have hshift : bit % 2 ^ 8 % 8 = bit := by omega
    rw [UInt8.toNat_shiftLeft, UInt8.toNat_ofNat', hshift, Nat.shiftLeft_eq, UInt8.toNat_one,
      Nat.one_mul, Nat.mod_eq_of_lt hpow]
  have hand : (bitmapByte &&& (1 <<< UInt8.ofNat bit)).toNat =
      (bitmapByte.toNat.testBit bit).toNat * 2 ^ bit := by
    rw [UInt8.toNat_and, hmask, Nat.and_two_pow]
  rw [bitSet, Bool.eq_iff_iff, bne_iff_ne, ne_eq, ← UInt8.toNat_inj, hand]
  cases bitmapByte.toNat.testBit bit with
  | false => simp
  | true => simp

/-- The register's bit is set: byte `i / 8` of the bitmap, bit `i % 8`. -/
def BitOf (bitmap : Bytes) (i : Nat) : Prop :=
  ∃ bitmapByte, bitmap[i / 8]? = some bitmapByte ∧ bitmapByte.toNat.testBit (i % 8) = true

theorem selects_iff_bitOf {bitmap : Bytes} {i : Nat} :
    selects bitmap i = true ↔ BitOf bitmap i := by
  rw [selects, Option.any_eq_true]
  refine exists_congr fun bitmapByte => and_congr_right fun _ => ?_
  rw [bitSet_eq_testBit bitmapByte (Nat.mod_lt i (by decide))]

/-- The registers of a selection, each once and in ascending order. -/
structure Ascending (bitmap : Bytes) (indices : List UInt8) : Prop where
  sorted : indices.Pairwise (· < ·)
  mem_iff : ∀ i, i ∈ indices ↔ BitOf bitmap i.toNat

theorem ascending_selectedIndices {bitmap : Bytes} (hle : bitmap.length ≤ 4) :
    Ascending bitmap (selectedIndices bitmap) where
  sorted := selectedIndices_sorted hle
  mem_iff i := by rw [mem_selectedIndices hle, selects_iff_bitOf]

/-- There is one ascending list of the selected registers. -/
theorem Ascending.eq {bitmap : Bytes} {indices others : List UInt8} (h : Ascending bitmap indices)
    (h' : Ascending bitmap others) : indices = others := by
  have hnodup : ∀ {l : List UInt8}, l.Pairwise (· < ·) → l.Nodup := fun hsorted =>
    hsorted.imp fun hlt heq => by
      rw [heq, UInt8.lt_iff_toNat_lt] at hlt
      exact Nat.lt_irrefl _ hlt
  have hperm : indices.Perm others := by
    rw [List.perm_ext_iff_of_nodup (hnodup h.sorted) (hnodup h'.sorted)]
    intro i
    rw [h.mem_iff, h'.mem_iff]
  refine List.Perm.eq_of_pairwise (fun i j _ _ hij hji => ?_) h.sorted h'.sorted hperm
  rw [UInt8.lt_iff_toNat_lt] at hij hji
  omega

/-! ## The check as it is documented -/

/-- The quote opens with a structure of a supported bank; the first submitted entry of
each selected register has the bank's digest size; and the bank's hash of these digests,
in ascending order, is the quoted one. -/
def DigestChecked (sha : Sha2) (quoteBytes : Bytes) (submitted : List PcrValue) : Prop :=
  ∃ (a : QuoteAttest) (kind : HashKind) (indices : List UInt8) (entries : List PcrValue),
    a.Opens quoteBytes ∧ hashKindOf a.hashAlg = some kind ∧ Ascending a.bitmap indices ∧
      List.Forall₂ (fun i pv => findPcr submitted i a.hashAlg = some pv ∧
        pv.digest.length = kind.size) indices entries ∧
      sha.hashWith kind (entries.map PcrValue.digest).flatten = a.pcrDigest

/-- The entries of a list of registers, when each is submitted. -/
theorem exists_entries {submitted : List PcrValue} {hashAlg : UInt16} {size : Nat}
    {indices : List UInt8} (h : ∀ i ∈ indices, Submits submitted hashAlg size i) :
    ∃ entries, List.Forall₂ (fun i pv => findPcr submitted i hashAlg = some pv ∧
      pv.digest.length = size) indices entries := by
  induction indices with
  | nil => exact ⟨[], .nil⟩
  | cons i indices ih =>
      obtain ⟨pv, hpv⟩ := h i List.mem_cons_self
      obtain ⟨entries, hentries⟩ := ih fun j hj => h j (List.mem_cons_of_mem _ hj)
      exact ⟨pv :: entries, .cons hpv hentries⟩

theorem submits_of_entries {submitted : List PcrValue} {hashAlg : UInt16} {size : Nat}
    {indices : List UInt8} {entries : List PcrValue}
    (h : List.Forall₂ (fun i pv => findPcr submitted i hashAlg = some pv ∧
      pv.digest.length = size) indices entries) :
    (∀ i ∈ indices, Submits submitted hashAlg size i) ∧
      indices.map (submittedDigest submitted hashAlg) = entries.map PcrValue.digest := by
  induction h with
  | nil => simp
  | cons hpv _ ih =>
      obtain ⟨hsubmits, hdigests⟩ := ih
      refine ⟨List.forall_mem_cons.mpr ⟨⟨_, hpv⟩, hsubmits⟩, ?_⟩
      rw [List.map_cons, List.map_cons, hdigests, submittedDigest, hpv.1]
      rfl

theorem verifyPcrBinding_ok_iff_digestChecked {sha : Sha2} {quoteBytes : Bytes}
    {submitted : List PcrValue} :
    verifyPcrBinding sha quoteBytes submitted = .ok () ↔
      DigestChecked sha quoteBytes submitted := by
  rw [verifyPcrBinding_ok_iff]
  constructor
  · rintro ⟨a, kind, hopens, hkind, hsubmits, hhash⟩
    obtain ⟨entries, hentries⟩ := exists_entries hsubmits
    refine ⟨a, kind, _, entries, hopens, hkind, ascending_selectedIndices a.bitmap_le, hentries,
      ?_⟩
    rw [← (submits_of_entries hentries).2]
    exact hhash
  · rintro ⟨a, kind, indices, entries, hopens, hkind, hascending, hentries, hhash⟩
    obtain rfl := hascending.eq (ascending_selectedIndices a.bitmap_le)
    obtain ⟨hsubmits, hdigests⟩ := submits_of_entries hentries
    refine ⟨a, kind, hopens, hkind, hsubmits, ?_⟩
    rw [boundBytes, hdigests]
    exact hhash

/-! ## What of the submitted list matters -/

/-- The loop reads a list only through the lookups it makes. -/
theorem foldlM_boundDigest_congr {submitted other : List PcrValue} {hashAlg : UInt16} {size : Nat}
    {indices : List UInt8}
    (h : ∀ i ∈ indices, findPcr submitted i hashAlg = findPcr other i hashAlg) (start : Bytes) :
    indices.foldlM (fun concat idx => do
        return concat ++ (← boundDigest submitted hashAlg size idx)) start =
      indices.foldlM (fun concat idx => do
        return concat ++ (← boundDigest other hashAlg size idx)) start := by
  induction indices generalizing start with
  | nil => rfl
  | cons i indices ih =>
      have hfirst : boundDigest submitted hashAlg size i = boundDigest other hashAlg size i := by
        rw [boundDigest, boundDigest, h i List.mem_cons_self]
      rw [List.foldlM_cons, List.foldlM_cons, hfirst]
      refine bind_congr fun concat => ?_
      exact ih (fun j hj => h j (List.mem_cons_of_mem _ hj)) concat

/-- Lists with the same first entries of the selected registers get the same result. -/
theorem verifyPcrBinding_congr {sha : Sha2} {quoteBytes : Bytes} {submitted other : List PcrValue}
    (h : ∀ a : QuoteAttest, a.Opens quoteBytes → ∀ i ∈ selectedIndices a.bitmap,
      findPcr submitted i a.hashAlg = findPcr other i a.hashAlg) :
    verifyPcrBinding sha quoteBytes submitted = verifyPcrBinding sha quoteBytes other := by
  rw [verifyPcrBinding, verifyPcrBinding]
  cases hwalk : attestWalk quoteBytes with
  | error e => rfl
  | ok result =>
      obtain ⟨⟨hashAlg, bitmap, digest⟩, rest⟩ := result
      obtain ⟨_, rfl, a, rfl, ha⟩ := (reads_attestWalk _ _ _).mp hwalk
      obtain ⟨rfl, rfl, rfl⟩ : hashAlg = a.hashAlg ∧ bitmap = a.bitmap ∧
          digest = a.pcrDigest := by
        simpa using ha
      simp only [Fallible.ok_bind]
      cases hashKindOf a.hashAlg with
      | none => rfl
      | some kind =>
          dsimp only
          rw [foldlM_boundDigest_congr (h a ⟨rest, rfl⟩)]

/-- No two entries are for the same register of the same bank. -/
def DistinctKeys (submitted : List PcrValue) : Prop :=
  submitted.Pairwise fun p q => (p.index, p.hashAlgorithm) ≠ (q.index, q.hashAlgorithm)

/-- Without duplicates a lookup is membership. -/
theorem findPcr_eq_some_iff {submitted : List PcrValue} (h : DistinctKeys submitted)
    {index : UInt8} {hashAlgorithm : UInt16} {pv : PcrValue} :
    findPcr submitted index hashAlgorithm = some pv ↔
      pv ∈ submitted ∧ pv.index = index ∧ pv.hashAlgorithm = hashAlgorithm := by
  refine ⟨findPcr_some, ?_⟩
  induction submitted with
  | nil => simp
  | cons first submitted ih =>
      obtain ⟨hfirst, hrest⟩ := List.pairwise_cons.mp h
      rintro ⟨hmem, rfl, rfl⟩
      rw [findPcr, List.find?_cons]
      rcases List.mem_cons.mp hmem with rfl | hmem
      · simp
      · have hother : (first.index == pv.index && first.hashAlgorithm == pv.hashAlgorithm) =
            false := by
          have hne := hfirst pv hmem
          rw [ne_eq, Prod.mk.injEq] at hne
          simpa [Bool.and_eq_false_iff, ← not_and_or] using hne
        rw [hother]
        exact ih hrest ⟨hmem, rfl, rfl⟩

theorem findPcr_perm {submitted other : List PcrValue} (hperm : submitted.Perm other)
    (hdistinct : DistinctKeys submitted) (index : UInt8) (hashAlgorithm : UInt16) :
    findPcr submitted index hashAlgorithm = findPcr other index hashAlgorithm := by
  have hdistinct' : DistinctKeys other :=
    hperm.pairwise hdistinct fun hne => hne.symm
  ext pv
  rw [findPcr_eq_some_iff hdistinct, findPcr_eq_some_iff hdistinct', hperm.mem_iff]

/-- The binding is the digest check, and of the submitted list it reads the selected
registers only: reordering distinct entries changes nothing, nor does adding or removing
entries that the quote does not cover. -/
theorem verifyPcrBinding_exact (sha : Sha2) (quoteBytes : Bytes) (submitted : List PcrValue) :
    (verifyPcrBinding sha quoteBytes submitted = .ok () ↔
      DigestChecked sha quoteBytes submitted) ∧
    (∀ other, submitted.Perm other → DistinctKeys submitted →
      verifyPcrBinding sha quoteBytes other = verifyPcrBinding sha quoteBytes submitted) ∧
    (∀ other, (∀ a : QuoteAttest, a.Opens quoteBytes →
        other.filter (a.Covers ·) = submitted.filter (a.Covers ·)) →
      verifyPcrBinding sha quoteBytes other = verifyPcrBinding sha quoteBytes submitted) := by
  refine ⟨verifyPcrBinding_ok_iff_digestChecked, ?_, ?_⟩
  · intro other hperm hdistinct
    refine verifyPcrBinding_congr fun a _ i _ => ?_
    exact (findPcr_perm hperm hdistinct i a.hashAlg).symm
  · intro other hfilter
    refine verifyPcrBinding_congr fun a hopens i hi => ?_
    have hselected : selects a.bitmap i.toNat = true := (mem_selectedIndices a.bitmap_le).mp hi
    rw [← findPcr_filter_covers hselected, hfilter a hopens, findPcr_filter_covers hselected]

/-- The sample quote with an entry it does not cover, in either order. -/
theorem sampleQuote_binding_indifferent :
    verifyPcrBinding sampleSha2 sampleAttest.encode [unquotedPcr12, samplePcr0] =
        verifyPcrBinding sampleSha2 sampleAttest.encode [samplePcr0, unquotedPcr12] ∧
      verifyPcrBinding sampleSha2 sampleAttest.encode [samplePcr0] =
        verifyPcrBinding sampleSha2 sampleAttest.encode [samplePcr0, unquotedPcr12] := by
  have hexact := verifyPcrBinding_exact sampleSha2 sampleAttest.encode [samplePcr0, unquotedPcr12]
  refine ⟨hexact.2.1 _ (List.Perm.swap _ _ _) ?_, hexact.2.2 _ fun a hopens => ?_⟩
  · exact List.pairwise_pair.mpr (by decide)
  · have hsample : sampleAttest.Opens sampleAttest.encode := ⟨[], (List.append_nil _).symm⟩
    rw [QuoteAttest.opens_unique hopens hsample]
    decide

end Fleetos.Attestation
