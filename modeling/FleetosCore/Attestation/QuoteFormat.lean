import FleetosCore.Attestation.Quote
import Mathlib.Data.List.Induction
import Mathlib.Data.List.Sort

/-!
# The signed structure behind the quote walk

`QuoteAttest` is the TPMS_ATTEST of a single-bank quote as data, with the bounds
its wire form needs. `encode` is its marshaled form. The walk of the verifier
accepts exactly the byte strings that start with such an encoding, and the
encoding determines the structure, so "the field of the quote" below is not a
convention about offsets but the field of the one structure the bytes denote.

The PCR binding is then characterized without mentioning the walk: which
registers the bitmap selects, in which order, and what is hashed.
-/

namespace Fleetos.Attestation

/-- A marshaled TPMS_ATTEST of type TPM_ST_ATTEST_QUOTE with one PCR selection.
`clock` holds clockInfo and firmwareVersion, which no check interprets. -/
structure QuoteAttest where
  qualifiedSigner : Bytes
  extraData : Bytes
  clock : Bytes
  hashAlg : UInt16
  bitmap : Bytes
  pcrDigest : Bytes
  qualifiedSigner_lt : qualifiedSigner.length < 2 ^ 16
  extraData_lt : extraData.length < 2 ^ 16
  clock_length : clock.length = 25
  bitmap_pos : 0 < bitmap.length
  bitmap_le : bitmap.length ≤ 4
  pcrDigest_lt : pcrDigest.length < 2 ^ 16

namespace QuoteAttest

def encode (a : QuoteAttest) : Bytes :=
  tpmGeneratedMagic ++ (Bytes.u16be tpmStAttestQuote ++ (Bytes.sized16 a.qualifiedSigner ++
    (Bytes.sized16 a.extraData ++ (a.clock ++ (Bytes.u32be 1 ++ (Bytes.u16be a.hashAlg ++
      ([UInt8.ofNat a.bitmap.length] ++ (a.bitmap ++ Bytes.sized16 a.pcrDigest))))))))

/-- The bytes start with the encoding of `a`; anything may follow. -/
def Opens (a : QuoteAttest) (quoteBytes : Bytes) : Prop :=
  ∃ rest, quoteBytes = a.encode ++ rest

private theorem bitmap_size_toNat (a : QuoteAttest) :
    (UInt8.ofNat a.bitmap.length).toNat = a.bitmap.length := by
  rw [UInt8.toNat_ofNat']
  exact Nat.mod_eq_of_lt (Nat.lt_of_le_of_lt a.bitmap_le (by decide))

/-- One byte string denotes at most one structure. -/
theorem opens_unique {a b : QuoteAttest} {quoteBytes : Bytes}
    (ha : a.Opens quoteBytes) (hb : b.Opens quoteBytes) : a = b := by
  obtain ⟨r, rfl⟩ := ha
  obtain ⟨r', h⟩ := hb
  simp only [encode, List.append_assoc, List.append_cancel_left_eq] at h
  obtain ⟨hqs, h⟩ := Bytes.sized16_inj a.qualifiedSigner_lt b.qualifiedSigner_lt h
  obtain ⟨hed, h⟩ := Bytes.sized16_inj a.extraData_lt b.extraData_lt h
  obtain ⟨hclock, h⟩ := List.append_inj h (a.clock_length.trans b.clock_length.symm)
  obtain ⟨halg, h⟩ := List.append_inj (List.append_cancel_left h) (by simp)
  obtain ⟨hsize, h⟩ := List.append_inj h (by simp)
  have hlen : a.bitmap.length = b.bitmap.length := by
    have := congrArg UInt8.toNat (List.cons.inj hsize).1
    rwa [bitmap_size_toNat, bitmap_size_toNat] at this
  obtain ⟨hbitmap, h⟩ := List.append_inj h hlen
  obtain ⟨hdigest, _⟩ := Bytes.sized16_inj a.pcrDigest_lt b.pcrDigest_lt h
  have halg' := Bytes.u16be_injective halg
  cases a
  cases b
  simp_all

end QuoteAttest

open Cursor (Reads)
open Reader

private theorem attestHeader_eq :
    attestHeader = (do
      let magic ← take 4
      require (magic = tpmGeneratedMagic)
      let typ ← u16
      require (typ = tpmStAttestQuote)
      skipSized
      skipSized
      skip 17
      skip 8) := by
  simp only [attestHeader, skipSized, bind_assoc]

private theorem reads_attestHeader :
    Reads attestHeader (fun b _ => ∃ qs ed clock : Bytes, qs.length < 2 ^ 16 ∧
      ed.length < 2 ^ 16 ∧ clock.length = 25 ∧
      b = tpmGeneratedMagic ++ (Bytes.u16be tpmStAttestQuote ++
        (Bytes.sized16 qs ++ (Bytes.sized16 ed ++ clock)))) := by
  rw [attestHeader_eq]
  refine (Reads.bind (reads_take 4) fun magic =>
    Reads.bind (reads_require (magic = tpmGeneratedMagic)) fun _ =>
    Reads.bind reads_u16 fun typ =>
    Reads.bind (reads_require (typ = tpmStAttestQuote)) fun _ =>
    Reads.bind reads_skipSized fun _ => Reads.bind reads_skipSized fun _ =>
    Reads.bind (reads_skip 17) fun _ => reads_skip 8).consequence fun b x => ?_
  constructor
  · rintro ⟨_, _, _, rfl, ⟨rfl, -⟩, _, _, _, rfl, ⟨rfl, rfl⟩, _, _, _, rfl, rfl,
      _, _, _, rfl, ⟨rfl, rfl⟩, _, _, _, rfl, ⟨qs, rfl, hqs⟩, _, _, _, rfl, ⟨ed, rfl, hed⟩,
      _, clockInfo, firmware, rfl, hclock, hfirmware⟩
    exact ⟨qs, ed, clockInfo ++ firmware, hqs, hed, by simp [hclock, hfirmware], rfl⟩
  · rintro ⟨qs, ed, clock, hqs, hed, hclock, rfl⟩
    refine ⟨_, _, _, rfl, ⟨rfl, rfl⟩, (), [], _, rfl, ⟨rfl, rfl⟩, _, _, _, rfl, rfl,
      (), [], _, rfl, ⟨rfl, rfl⟩, (), _, _, rfl, ⟨qs, rfl, hqs⟩, (), _, _, rfl, ⟨ed, rfl, hed⟩,
      (), clock.take 17, clock.drop 17, (List.take_append_drop 17 clock).symm, ?_, ?_⟩
    · simp [hclock]
    · simp [hclock]

private theorem reads_attestSelection :
    Reads attestSelection (fun b x => 0 < x.2.length ∧ x.2.length ≤ 4 ∧
      b = Bytes.u32be 1 ++ (Bytes.u16be x.1 ++ ([UInt8.ofNat x.2.length] ++ x.2))) := by
  refine (Reads.bind reads_u32 fun count => Reads.bind (reads_require (count = 1)) fun _ =>
    Reads.bind reads_u16 fun hashAlg => Reads.bind reads_u8 fun sizeofSelect =>
    Reads.bind (reads_require (¬(sizeofSelect.toNat = 0 ∨ sizeofSelect.toNat > 4))) fun _ =>
    Reads.bind (reads_take sizeofSelect.toNat) fun selectBitmap =>
    Reads.pure (hashAlg, selectBitmap)).consequence fun b x => ?_
  obtain ⟨alg, bitmap⟩ := x
  dsimp only
  constructor
  · rintro ⟨_, _, _, rfl, rfl, _, _, _, rfl, ⟨rfl, rfl⟩, hashAlg, _, _, rfl, rfl,
      size, _, _, rfl, rfl, _, _, _, rfl, ⟨rfl, hsize⟩, taken, _, _, rfl, ⟨rfl, hlen⟩, rfl, hx⟩
    obtain ⟨rfl, rfl⟩ := Prod.mk.inj hx
    refine ⟨by omega, by omega, ?_⟩
    simp [hlen]
  · rintro ⟨hpos, hle, rfl⟩
    have hsize : (UInt8.ofNat bitmap.length).toNat = bitmap.length := by
      rw [UInt8.toNat_ofNat']
      exact Nat.mod_eq_of_lt (Nat.lt_of_le_of_lt hle (by decide))
    exact ⟨1, _, _, rfl, rfl, (), [], _, rfl, ⟨rfl, rfl⟩, alg, _, _, rfl, rfl,
      UInt8.ofNat bitmap.length, [UInt8.ofNat bitmap.length], bitmap, rfl, rfl,
      (), [], bitmap, rfl, ⟨rfl, by omega⟩, bitmap, bitmap, [], by simp,
      ⟨rfl, hsize.symm⟩, rfl, rfl⟩

/-- The walk accepts exactly the encodings of quote structures, and returns the
selection and digest of the structure it has read. -/
theorem reads_attestWalk :
    Reads attestWalk
      (fun b x => ∃ a : QuoteAttest, b = a.encode ∧ x = (a.hashAlg, a.bitmap, a.pcrDigest)) := by
  have hwalk : attestWalk = (do
      attestHeader
      let selection ← attestSelection
      let pcrDigest ← sized
      return (selection.1, selection.2, pcrDigest)) := by
    simp only [attestWalk, sized, bind_assoc]
  rw [hwalk]
  refine (Reads.bind reads_attestHeader fun _ => Reads.bind reads_attestSelection fun selection =>
    Reads.bind reads_sized fun pcrDigest =>
    Reads.pure (selection.1, selection.2, pcrDigest)).consequence fun b x => ?_
  constructor
  · rintro ⟨_, _, _, rfl, ⟨qs, ed, clock, hqs, hed, hclock, rfl⟩, ⟨hashAlg, bitmap⟩, _, _, rfl,
      ⟨hpos, hle, rfl⟩, digest, _, _, rfl, ⟨rfl, hdigest⟩, rfl, rfl⟩
    refine ⟨⟨qs, ed, clock, hashAlg, bitmap, _, hqs, hed, hclock, hpos, hle, hdigest⟩, ?_, rfl⟩
    simp only [QuoteAttest.encode, List.append_assoc, List.append_nil]
  · rintro ⟨a, rfl, rfl⟩
    refine ⟨(), _, Bytes.u32be 1 ++ (Bytes.u16be a.hashAlg ++ ([UInt8.ofNat a.bitmap.length] ++
        (a.bitmap ++ Bytes.sized16 a.pcrDigest))), ?_,
      ⟨a.qualifiedSigner, a.extraData, a.clock, a.qualifiedSigner_lt, a.extraData_lt,
        a.clock_length, rfl⟩, (a.hashAlg, a.bitmap), _, Bytes.sized16 a.pcrDigest, ?_,
      ⟨a.bitmap_pos, a.bitmap_le, rfl⟩, a.pcrDigest, _, [], (List.append_nil _).symm,
      ⟨rfl, a.pcrDigest_lt⟩, rfl, rfl⟩
    · simp only [QuoteAttest.encode, List.append_assoc]
    · simp only [List.append_assoc]

/-! ## Which registers are hashed, and in which order -/

/-- Bit `i` of a select bitmap: byte `i / 8`, bit `i % 8`. -/
def selects (bitmap : Bytes) (i : Nat) : Bool := bitmap[i / 8]?.any (bitSet · (i % 8))

/-- The nested loops over bytes and bits enumerate the set bits in ascending order. -/
theorem selectedIndices_eq (bitmap : Bytes) :
    selectedIndices bitmap =
      ((List.range (bitmap.length * 8)).filter (selects bitmap)).map UInt8.ofNat := by
  induction bitmap using List.reverseRecOn with
  | nil => rfl
  | append_singleton bitmap last ih =>
      have hold : ∀ i ∈ List.range (bitmap.length * 8),
          selects (bitmap ++ [last]) i = selects bitmap i := by
        intro i hi
        have hi' := List.mem_range.mp hi
        rw [selects, selects, List.getElem?_append_left (by omega)]
      have hnew : ∀ bit ∈ List.range 8,
          (selects (bitmap ++ [last]) ∘ (bitmap.length * 8 + ·)) bit = bitSet last bit := by
        intro bit hbit
        have hbit' := List.mem_range.mp hbit
        have hdiv : (bitmap.length * 8 + bit) / 8 = bitmap.length := by omega
        have hmod : (bitmap.length * 8 + bit) % 8 = bit := by omega
        simp [selects, hdiv, hmod]
      have hrange : List.range ((bitmap ++ [last]).length * 8) =
          List.range (bitmap.length * 8) ++
            (List.range 8).map (bitmap.length * 8 + ·) := by
        rw [← List.range_add]
        congr 1
        simp only [List.length_append, List.length_singleton]
        omega
      rw [hrange, List.filter_append, List.map_append, List.filter_congr hold, ← ih,
        List.filter_map, List.filter_congr hnew]
      simp only [selectedIndices, List.zipIdx_append, List.flatMap_append]
      congr 1
      simp only [List.zipIdx_cons, List.zipIdx_nil, List.flatMap_cons, List.flatMap_nil,
        List.append_nil, Nat.zero_add, ← List.filterMap_eq_map,
        ← List.filterMap_eq_filter, List.filterMap_filterMap]
      refine List.filterMap_congr fun bit _ => ?_
      by_cases hset : bitSet last bit = true
      · simp [hset, Option.guard]
      · simp [hset, Option.guard]

theorem selects_lt {bitmap : Bytes} {i : Nat} (h : selects bitmap i = true) :
    i < bitmap.length * 8 := by
  simp only [selects, Option.any_eq_true] at h
  obtain ⟨_, hget, _⟩ := h
  have := (List.getElem?_eq_some_iff.mp hget).1
  omega

/-- With at most four bitmap bytes no index is truncated by the cast to `u8`. -/
theorem mem_selectedIndices {bitmap : Bytes} (hle : bitmap.length ≤ 4) {i : UInt8} :
    i ∈ selectedIndices bitmap ↔ selects bitmap i.toNat = true := by
  simp only [selectedIndices_eq, List.mem_map, List.mem_filter, List.mem_range]
  constructor
  · rintro ⟨n, ⟨hlt, hsel⟩, rfl⟩
    rwa [UInt8.toNat_ofNat', Nat.mod_eq_of_lt (by omega)]
  · intro hsel
    exact ⟨i.toNat, ⟨selects_lt hsel, hsel⟩, UInt8.ofNat_toNat⟩

theorem selectedIndices_sorted {bitmap : Bytes} (hle : bitmap.length ≤ 4) :
    (selectedIndices bitmap).Pairwise (· < ·) := by
  rw [selectedIndices_eq, List.pairwise_map]
  refine List.Pairwise.imp_of_mem ?_ (List.Pairwise.filter _ List.pairwise_lt_range)
  intro m n hm hn hlt
  have hm' := List.mem_range.mp (List.mem_filter.mp hm).1
  have hn' := List.mem_range.mp (List.mem_filter.mp hn).1
  rw [UInt8.lt_iff_toNat_lt, UInt8.toNat_ofNat', UInt8.toNat_ofNat',
    Nat.mod_eq_of_lt (by omega), Nat.mod_eq_of_lt (by omega)]
  exact hlt

/-- The digest submitted for a register: that of the first matching entry. -/
def submittedDigest (submitted : List PcrValue) (hashAlg : UInt16) (idx : UInt8) : Bytes :=
  ((findPcr submitted idx hashAlg).map PcrValue.digest).getD []

/-- A list submits a register when its first matching entry has the bank's size. -/
def Submits (submitted : List PcrValue) (hashAlg : UInt16) (size : Nat) (idx : UInt8) : Prop :=
  ∃ pv, findPcr submitted idx hashAlg = some pv ∧ pv.digest.length = size

theorem boundDigest_ok_iff {submitted : List PcrValue} {hashAlg : UInt16} {size : Nat}
    {idx : UInt8} :
    boundDigest submitted hashAlg size idx = .ok (submittedDigest submitted hashAlg idx) ↔
      Submits submitted hashAlg size idx := by
  simp only [boundDigest, submittedDigest, Submits]
  cases findPcr submitted idx hashAlg with
  | none => simp
  | some pv =>
      by_cases hsize : pv.digest.length = size
      · simp [hsize]
      · simp [hsize]

theorem eq_submittedDigest_of_boundDigest {submitted : List PcrValue} {hashAlg : UInt16}
    {size : Nat} {idx : UInt8} {d : Bytes}
    (h : boundDigest submitted hashAlg size idx = .ok d) :
    d = submittedDigest submitted hashAlg idx := by
  simp only [boundDigest, submittedDigest] at h ⊢
  cases hfind : findPcr submitted idx hashAlg with
  | none => simp [hfind] at h
  | some pv =>
      rw [hfind] at h
      dsimp only at h
      split at h
      · simp at h
      · simpa using (Fallible.pure_ok_iff.mp h).symm

private theorem mapM_boundDigest_ok_iff {submitted : List PcrValue} {hashAlg : UInt16}
    {size : Nat} {selected : List UInt8} {blocks : List Bytes} :
    selected.mapM (boundDigest submitted hashAlg size) = .ok blocks ↔
      (∀ i ∈ selected, Submits submitted hashAlg size i) ∧
        blocks = selected.map (submittedDigest submitted hashAlg) := by
  constructor
  · intro h
    have hsubmits : ∀ i ∈ selected, Submits submitted hashAlg size i := by
      intro i hi
      obtain ⟨d, hd⟩ := Fallible.mapM_ok_mem h i hi
      obtain rfl := eq_submittedDigest_of_boundDigest hd
      exact boundDigest_ok_iff.mp hd
    refine ⟨hsubmits, ?_⟩
    have hall := Fallible.mapM_ok_map_iff.mpr fun i hi => boundDigest_ok_iff.mpr (hsubmits i hi)
    exact Except.ok.inj (h.symm.trans hall)
  · rintro ⟨hsubmits, rfl⟩
    exact Fallible.mapM_ok_map_iff.mpr fun i hi => boundDigest_ok_iff.mpr (hsubmits i hi)

/-- The bytes the verifier hashes for a quote structure and a submitted list. -/
def boundBytes (a : QuoteAttest) (submitted : List PcrValue) : Bytes :=
  ((selectedIndices a.bitmap).map (submittedDigest submitted a.hashAlg)).flatten

/-- The bytes open with a quote structure of a supported bank, every selected register
is submitted with the bank's digest size, and the hash of their digests in ascending
order is the signed one. -/
def PcrsBound (sha : Sha2) (quoteBytes : Bytes) (submitted : List PcrValue) : Prop :=
  ∃ (a : QuoteAttest) (kind : HashKind), a.Opens quoteBytes ∧
    hashKindOf a.hashAlg = some kind ∧
    (∀ i ∈ selectedIndices a.bitmap, Submits submitted a.hashAlg kind.size i) ∧
    sha.hashWith kind (boundBytes a submitted) = a.pcrDigest

theorem verifyPcrBinding_ok_iff {sha : Sha2} {quoteBytes : Bytes} {submitted : List PcrValue} :
    verifyPcrBinding sha quoteBytes submitted = .ok () ↔ PcrsBound sha quoteBytes submitted := by
  simp only [verifyPcrBinding, Fallible.bind_ok_iff]
  constructor
  · rintro ⟨⟨⟨hashAlg, bitmap, digest⟩, rest⟩, hwalk, hmatch⟩
    obtain ⟨_, rfl, a, rfl, ha⟩ := (reads_attestWalk _ _ _).mp hwalk
    obtain ⟨rfl, rfl, rfl⟩ : hashAlg = a.hashAlg ∧ bitmap = a.bitmap ∧ digest = a.pcrDigest := by
      simpa using ha
    dsimp only at hmatch
    split at hmatch
    · simp at hmatch
    · rename_i kind hkind
      obtain ⟨concat, hloop, hcheck⟩ := Fallible.bind_ok_iff.mp hmatch
      obtain ⟨blocks, hblocks, rfl⟩ := Fallible.foldlM_append_ok_iff.mp hloop
      obtain ⟨hsubmits, rfl⟩ := mapM_boundDigest_ok_iff.mp hblocks
      refine ⟨a, kind, ⟨rest, rfl⟩, hkind, hsubmits, ?_⟩
      simpa [boundBytes] using Fallible.throw_if_ok_iff.mp hcheck
  · rintro ⟨a, kind, ⟨rest, rfl⟩, hkind, hsubmits, hhash⟩
    refine ⟨((a.hashAlg, a.bitmap, a.pcrDigest), rest),
      (reads_attestWalk _ _ _).mpr ⟨_, rfl, a, rfl, rfl⟩, ?_⟩
    dsimp only
    rw [hkind]
    refine Fallible.bind_ok_iff.mpr ⟨boundBytes a submitted, ?_, by simp [hhash]⟩
    exact Fallible.foldlM_append_ok_iff.mpr
      ⟨_, mapM_boundDigest_ok_iff.mpr ⟨hsubmits, rfl⟩, rfl⟩

end Fleetos.Attestation
