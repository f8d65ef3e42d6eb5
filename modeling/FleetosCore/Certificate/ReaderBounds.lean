import FleetosCore.Certificate.Reader
import FleetosCore.Library.Checked
import FleetosCore.Library.Fallible

/-!
# The certificate readers stay in their bounds

The readers of `FleetosCore.Certificate.Reader` once more, as the machine runs them:
every index and slice can panic, and every sum of offsets is one of 64-bit words. The
bytes come from a peer, so every length in them is a lie until it has been compared with
what is there.

The two versions agree on every slice, which is why nothing else has to look at offsets.
A length takes at most four octets and an offset is that of an octet of the slice when
something is added to it, so the sums stay far below the word.
-/

namespace Fleetos.Svid.Bounded

open Checked (Panic)

/-- A slice of bytes. The language keeps every slice at `isize::MAX` bytes or below. -/
structure Slice where
  bytes : Bytes
  length_lt : bytes.length < 2 ^ 63

def parseDerLength (bytes : Bytes) : Except Panic (Option (Nat × Nat)) := do
  if bytes.isEmpty then return none
  let b ← Checked.index bytes 0
  if b < 0x80 then
    return some (b.toNat, 1)
  else
    let n := (b &&& 0x7f).toNat
    if n = 0 ∨ n > 4 then return none
    if bytes.length < (← Checked.add 1 n) then return none
    let len ← (List.range' 1 n).foldlM
      (fun len i => do return ((len <<< 8) % 2 ^ 64) ||| (← Checked.index bytes i).toNat) 0
    return some (len, ← Checked.add 1 n)

def parseDerTlv (bytes : Bytes) (expectedTag : UInt8) : Except Panic (Option Bytes) := do
  if bytes.isEmpty then return none
  if (← Checked.index bytes 0) ≠ expectedTag then return none
  match ← parseDerLength (← Checked.sliceFrom bytes 1) with
  | none => return none
  | some (len, consumed) =>
      let valStart ← Checked.add 1 consumed
      if (← Checked.add valStart len) > bytes.length then return none
      return some (← Checked.slice bytes valStart (← Checked.add valStart len))

/-- `j < cert_der.len() && cert_der[j] == tag`. -/
def tagAt (certDer : Bytes) (j : Nat) (tag : UInt8) : Except Panic Bool := do
  if j < certDer.length then return (← Checked.index certDer j) == tag
  return false

/-- The offset past an optional BOOLEAN at `j`; `none` when its length is unreadable. -/
def skipCritical (certDer : Bytes) (j : Nat) : Except Panic (Option Nat) := do
  if ← tagAt certDer j 0x01 then
    match ← parseDerLength (← Checked.sliceFrom certDer (← Checked.add j 1)) with
    | some (len, consumed) =>
        return some (← Checked.add j (← Checked.add (← Checked.add 1 consumed) len))
    | none => return none
  else
    return some j

/-- The value of an OCTET STRING at `j`. -/
def octetStringAt (certDer : Bytes) (j : Nat) : Except Panic (Option Bytes) := do
  if ← tagAt certDer j 0x04 then
    match ← parseDerLength (← Checked.sliceFrom certDer (← Checked.add j 1)) with
    | some (len, consumed) =>
        let valStart ← Checked.add (← Checked.add j 1) consumed
        if (← Checked.add valStart len) ≤ certDer.length then
          return some (← Checked.slice certDer valStart (← Checked.add valStart len))
        else
          return none
    | none => return none
  else
    return none

def matchAt (certDer oid : Bytes) (i : Nat) : Except Panic (Option Bytes) := do
  if oid.isPrefixOf (← Checked.sliceFrom certDer i) then
    match ← skipCritical certDer (← Checked.add i oid.length) with
    | some j => octetStringAt certDer j
    | none => return none
  else
    return none

def findOidExtension (certDer oid : Bytes) : Except Panic (Option Bytes) := do
  if certDer.length < oid.length then return none
  let last ← Checked.sub certDer.length oid.length
  (List.range (last + 1)).findSomeM? (matchAt certDer oid)

def decodeRole (val : Bytes) : Except Panic (Option WorkloadRole) := do
  let stringBytes ← match ← parseDerTlv val 0x0C with
    | some bytes => pure (some bytes)
    | none => parseDerTlv val 0x13
  match stringBytes with
  | none => return none
  | some stringBytes =>
      match Text.fromUtf8 stringBytes with
      | none => return none
      | some roleStr => return (WorkloadRole.tryFrom roleStr).toOption

def decodeOrdinal (val : Bytes) : Except Panic (Option UInt32) := do
  match ← parseDerTlv val 0x02 with
  | none => return none
  | some intBytes =>
      if intBytes.length > 4 then return none
      return some (intBytes.foldl (fun result byte => (result <<< 8) ||| byte.toUInt32) 0)

def decodeDegraded (val : Bytes) : Except Panic Bool := do
  match ← parseDerTlv val 0x01 with
  | none => return false
  | some boolBytes =>
      if boolBytes.isEmpty then return false
      return (← Checked.index boolBytes 0) != 0

def extractRole (certDer : Slice) : Except Panic (Option WorkloadRole) := do
  match ← findOidExtension certDer.bytes roleOidBytes with
  | none => return none
  | some val => decodeRole val

def extractOrdinal (certDer : Slice) : Except Panic (Option UInt32) := do
  match ← findOidExtension certDer.bytes ordinalOidBytes with
  | none => return none
  | some val => decodeOrdinal val

def isDegraded (certDer : Slice) : Except Panic Bool := do
  match ← findOidExtension certDer.bytes degradedOidBytes with
  | none => return false
  | some val => decodeDegraded val

/-! ## Lengths -/

/-- No bit leaves the word while there are at most seven octets. -/
theorem foldl_word_eq {digits : Bytes} {len k : Nat} (hlen : len < 256 ^ k)
    (hk : k + digits.length ≤ 7) :
    digits.foldl (fun len x => ((len <<< 8) % 2 ^ 64) ||| x.toNat) len =
      digits.foldl (fun len x => (len <<< 8) ||| x.toNat) len := by
  induction digits generalizing len k with
  | nil => rfl
  | cons b digits ih =>
      have hb := b.toNat_lt
      rw [List.length_cons] at hk
      have hword : 256 ^ (k + 1) ≤ 256 ^ 7 := Nat.pow_le_pow_right (by decide) (by omega)
      rw [Nat.pow_succ] at hword
      have hshift : (len <<< 8) % 2 ^ 64 = len <<< 8 := by
        rw [Nat.shiftLeft_eq]
        exact Nat.mod_eq_of_lt (by omega)
      have hnext : (len <<< 8) ||| b.toNat < 256 ^ (k + 1) := by
        rw [← Nat.shiftLeft_add_eq_or_of_lt hb, Nat.shiftLeft_eq, Nat.pow_succ]
        omega
      rw [List.foldl_cons, List.foldl_cons, hshift]
      exact ih hnext (by omega)

/-- The loop over the length octets stays inside the bytes and inside the word. -/
theorem foldlM_index (before digits after : Bytes) (h : digits.length ≤ 7) :
    (List.range' before.length digits.length).foldlM
        (fun len i => do
          return ((len <<< 8) % 2 ^ 64) ||| (← Checked.index (before ++ (digits ++ after)) i).toNat)
        0 =
      .ok (digits.foldl (fun len x => (len <<< 8) ||| x.toNat) 0) := by
  have hzero : 0 < 256 ^ 0 := Nat.one_pos
  rw [← foldl_word_eq hzero (by omega)]
  exact Fallible.foldlM_indices Checked.index_append
    (fun len x => ((len <<< 8) % 2 ^ 64) ||| x.toNat) before digits after 0

theorem parseDerLength_eq (bytes : Bytes) :
    parseDerLength bytes = .ok (Svid.parseDerLength bytes) := by
  cases bytes with
  | nil => rfl
  | cons b rest =>
      have hfirst : Checked.index (b :: rest) 0 = .ok b := rfl
      have hn : (b &&& 0x7f).toNat < 256 := (b &&& 0x7f).toNat_lt
      have hadd : Checked.add 1 (b &&& 0x7f).toNat = .ok (1 + (b &&& 0x7f).toNat) :=
        Checked.add_of_lt (by omega)
      rw [parseDerLength, Svid.parseDerLength, hfirst]
      simp only [List.isEmpty_cons, Bool.false_eq_true, if_false, Fallible.ok_bind, hadd]
      by_cases hshort : b < 0x80
      · rw [if_pos hshort, if_pos hshort]
        rfl
      · rw [if_neg hshort, if_neg hshort]
        by_cases hform : (b &&& 0x7f).toNat = 0 ∨ (b &&& 0x7f).toNat > 4
        · rw [if_pos hform, if_pos (or_assoc.mp (.inl hform))]
          rfl
        · rw [if_neg hform]
          by_cases hcut : (b :: rest).length < 1 + (b &&& 0x7f).toNat
          · rw [if_pos hcut, if_pos (or_assoc.mp (.inr hcut))]
            rfl
          · have htake : (rest.take (b &&& 0x7f).toNat).length = (b &&& 0x7f).toNat := by
              rw [List.length_cons] at hcut
              rw [List.length_take]
              omega
            have hloop := foldlM_index [b] (rest.take (b &&& 0x7f).toNat)
              (rest.drop (b &&& 0x7f).toNat) (by omega)
            rw [List.take_append_drop, htake, List.length_singleton, List.singleton_append]
              at hloop
            rw [if_neg hcut, hloop, if_neg fun h => (or_assoc.mpr h).elim hform hcut]
            rfl

/-- A length is below 2^32 and takes at most five octets. -/
theorem parseDerLength_bounds {bytes : Bytes} {len consumed : Nat}
    (h : Svid.parseDerLength bytes = some (len, consumed)) :
    len < 2 ^ 32 ∧ consumed ≤ 5 ∧ consumed ≤ bytes.length := by
  obtain ⟨l, rest, rfl, hl, rfl⟩ := parseDerLength_eq_some_iff.mp h
  have hbounds := hl.bounds (by decide)
  rw [List.length_append]
  omega

/-! ## Values and offsets -/

theorem parseDerTlv_eq (bytes : Bytes) (expectedTag : UInt8) :
    parseDerTlv bytes expectedTag = .ok (Svid.parseDerTlv bytes expectedTag) := by
  cases bytes with
  | nil => rfl
  | cons tag rest =>
      have hfirst : Checked.index (tag :: rest) 0 = .ok tag := rfl
      have hfrom : Checked.sliceFrom (tag :: rest) 1 = .ok rest :=
        Checked.sliceFrom_of_le (by simp)
      rw [parseDerTlv, Svid.parseDerTlv, hfirst, hfrom]
      simp only [List.isEmpty_cons, Bool.false_eq_true, if_false, Fallible.ok_bind,
        parseDerLength_eq]
      by_cases htag : tag = expectedTag
      · rw [if_neg (not_not_intro htag), if_neg (not_not_intro htag)]
        cases hlength : Svid.parseDerLength rest with
        | none => rfl
        | some found =>
            obtain ⟨len, consumed⟩ := found
            obtain ⟨hlen, hconsumed, -⟩ := parseDerLength_bounds hlength
            simp only [Checked.add_of_lt (show 1 + consumed < 2 ^ 64 by omega),
              Checked.add_of_lt (show 1 + consumed + len < 2 ^ 64 by omega), Fallible.ok_bind]
            by_cases hfits : 1 + consumed + len > (tag :: rest).length
            · rw [if_pos hfits, if_pos hfits]
              rfl
            · rw [if_neg hfits, if_neg hfits, Checked.slice_of_le (by omega) (by omega),
                Nat.add_sub_cancel_left]
              rfl
      · rw [if_pos htag, if_pos htag]
        rfl

theorem tagAt_eq (certDer : Bytes) (j : Nat) (tag : UInt8) :
    tagAt certDer j tag = .ok (decide (certDer[j]? = some tag)) := by
  rw [tagAt]
  by_cases hj : j < certDer.length
  · have hget : certDer[j]? = some (certDer.get ⟨j, hj⟩) := List.getElem?_eq_getElem hj
    rw [if_pos hj, Checked.index_of_getElem? hget, Fallible.ok_bind, hget]
    simp only [Option.some.injEq]
    rfl
  · rw [if_neg hj, List.getElem?_eq_none (Nat.not_lt.mp hj)]
    rfl

section

variable {certDer : Bytes} (hslice : certDer.length < 2 ^ 63)
include hslice

theorem skipCritical_eq (j : Nat) :
    skipCritical certDer j = .ok (Svid.skipCritical certDer j) := by
  rw [skipCritical, Svid.skipCritical, tagAt_eq]
  by_cases htag : certDer[j]? = some 0x01
  · have hlt : j < certDer.length := (List.getElem?_eq_some_iff.mp htag).1
    have hfrom : Checked.sliceFrom certDer (j + 1) = .ok (certDer.drop (j + 1)) :=
      Checked.sliceFrom_of_le hlt
    simp only [htag, decide_true, if_true, Fallible.ok_bind,
      Checked.add_of_lt (show j + 1 < 2 ^ 64 by omega), hfrom, parseDerLength_eq]
    cases hlength : Svid.parseDerLength (certDer.drop (j + 1)) with
    | none => rfl
    | some found =>
        obtain ⟨len, consumed⟩ := found
        obtain ⟨hlen, hconsumed, -⟩ := parseDerLength_bounds hlength
        simp only [Checked.add_of_lt (show 1 + consumed < 2 ^ 64 by omega),
          Checked.add_of_lt (show 1 + consumed + len < 2 ^ 64 by omega),
          Checked.add_of_lt (show j + (1 + consumed + len) < 2 ^ 64 by omega), Fallible.ok_bind]
        rfl
  · simp only [htag, decide_false, Bool.false_eq_true, if_false, Fallible.ok_bind]
    rfl

theorem octetStringAt_eq (j : Nat) :
    octetStringAt certDer j = .ok (Svid.octetStringAt certDer j) := by
  rw [octetStringAt, Svid.octetStringAt, tagAt_eq]
  by_cases htag : certDer[j]? = some 0x04
  · have hlt : j < certDer.length := (List.getElem?_eq_some_iff.mp htag).1
    have hfrom : Checked.sliceFrom certDer (j + 1) = .ok (certDer.drop (j + 1)) :=
      Checked.sliceFrom_of_le hlt
    simp only [htag, decide_true, if_true, Fallible.ok_bind,
      Checked.add_of_lt (show j + 1 < 2 ^ 64 by omega), hfrom, parseDerLength_eq]
    cases hlength : Svid.parseDerLength (certDer.drop (j + 1)) with
    | none => rfl
    | some found =>
        obtain ⟨len, consumed⟩ := found
        obtain ⟨hlen, hconsumed, -⟩ := parseDerLength_bounds hlength
        simp only [Checked.add_of_lt (show j + 1 + consumed < 2 ^ 64 by omega),
          Checked.add_of_lt (show j + 1 + consumed + len < 2 ^ 64 by omega), Fallible.ok_bind]
        by_cases hfits : j + 1 + consumed + len ≤ certDer.length
        · rw [if_pos hfits, if_pos hfits, Checked.slice_of_le (by omega) hfits,
            Nat.add_sub_cancel_left]
          rfl
        · rw [if_neg hfits, if_neg hfits]
          rfl
  · simp only [htag, decide_false, Bool.false_eq_true, if_false, Fallible.ok_bind]
    rfl

theorem matchAt_eq {oid : Bytes} {i : Nat} (hi : i + oid.length ≤ certDer.length) :
    matchAt certDer oid i = .ok (Svid.matchAt certDer oid i) := by
  have hfrom : Checked.sliceFrom certDer i = .ok (certDer.drop i) :=
    Checked.sliceFrom_of_le (by omega)
  rw [matchAt, Svid.matchAt, hfrom, Fallible.ok_bind,
    Checked.add_of_lt (show i + oid.length < 2 ^ 64 by omega)]
  simp only [Fallible.ok_bind, skipCritical_eq hslice]
  by_cases hoid : oid.isPrefixOf (certDer.drop i) = true
  · rw [if_pos hoid, if_pos hoid]
    cases Svid.skipCritical certDer (i + oid.length) with
    | none => rfl
    | some j => exact octetStringAt_eq hslice j
  · rw [if_neg hoid, if_neg hoid]
    rfl

/-- The scan reads what the unchecked one reads, at every offset it tries. -/
theorem findOidExtension_eq (oid : Bytes) :
    findOidExtension certDer oid = .ok (Svid.findOidExtension certDer oid) := by
  rw [findOidExtension, Svid.findOidExtension]
  by_cases hshort : certDer.length < oid.length
  · rw [if_pos hshort, if_pos hshort]
    rfl
  · rw [if_neg hshort, if_neg hshort, Checked.sub_of_le (Nat.not_lt.mp hshort),
      Fallible.ok_bind]
    apply Fallible.findSomeM?_of_ok
    intro i hi
    have hlast := List.mem_range.mp hi
    exact matchAt_eq hslice (by omega)

end

/-! ## The three readers -/

theorem decodeRole_eq (val : Bytes) : decodeRole val = .ok (Svid.decodeRole val) := by
  rw [decodeRole, Svid.decodeRole]
  simp only [parseDerTlv_eq, Fallible.ok_bind]
  cases Svid.parseDerTlv val 0x0C with
  | none =>
      simp only [Option.none_or]
      cases Svid.parseDerTlv val 0x13 with
      | none => rfl
      | some stringBytes =>
          dsimp only
          cases Text.fromUtf8 stringBytes <;> rfl
  | some stringBytes =>
      simp only [pure_bind, Option.some_or]
      cases Text.fromUtf8 stringBytes <;> rfl

theorem decodeOrdinal_eq (val : Bytes) : decodeOrdinal val = .ok (Svid.decodeOrdinal val) := by
  rw [decodeOrdinal, Svid.decodeOrdinal, parseDerTlv_eq, Fallible.ok_bind]
  cases Svid.parseDerTlv val 0x02 with
  | none => rfl
  | some intBytes =>
      dsimp only
      split <;> rfl

theorem decodeDegraded_eq (val : Bytes) : decodeDegraded val = .ok (Svid.decodeDegraded val) := by
  rw [decodeDegraded, Svid.decodeDegraded, parseDerTlv_eq, Fallible.ok_bind]
  cases Svid.parseDerTlv val 0x01 with
  | none => rfl
  | some boolBytes =>
      cases boolBytes with
      | nil => rfl
      | cons b rest => rfl

/-- A part of the bytes that stands right behind the length octets that declare it. -/
def DeclaredSlice (bytes value : Bytes) : Prop :=
  ∃ before l after, bytes = before ++ (l ++ (value ++ after)) ∧
    Der.LengthOctets 4 l value.length

theorem declaredSlice_of_parseDerTlv {bytes value : Bytes} {tag : UInt8}
    (h : Svid.parseDerTlv bytes tag = some value) : DeclaredSlice bytes value := by
  obtain ⟨l, after, rfl, hl⟩ := parseDerTlv_eq_some_iff.mp h
  exact ⟨[tag], l, after, rfl, hl⟩

theorem declaredSlice_of_findOidExtension {certDer oid value : Bytes}
    (h : Svid.findOidExtension certDer oid = some value) : DeclaredSlice certDer value := by
  obtain ⟨i, hfirst⟩ := findOidExtension_eq_some_iff.mp h
  obtain ⟨pre, critical, l, post, rfl, -, -, hl⟩ := hfirst.here
  refine ⟨pre ++ (oid ++ (critical ++ [0x04])), l, post, ?_, hl⟩
  simp only [List.append_assoc, List.singleton_append]

/-- The readers return on every slice, with what the readers without bounds return, and
every value they take out of the bytes stands there behind its declared length. -/
theorem readers_stay_in_bounds (certDer : Slice) :
    (extractRole certDer = .ok (Svid.extractRole certDer.bytes) ∧
      extractOrdinal certDer = .ok (Svid.extractOrdinal certDer.bytes) ∧
      isDegraded certDer = .ok (Svid.isDegraded certDer.bytes)) ∧
    (∀ bytes, ∃ length, parseDerLength bytes = .ok length) ∧
    (∀ bytes tag, ∃ found, parseDerTlv bytes tag = .ok found ∧
      ∀ value ∈ found, DeclaredSlice bytes value) ∧
    ∀ oid, ∃ found, findOidExtension certDer.bytes oid = .ok found ∧
      ∀ value ∈ found, DeclaredSlice certDer.bytes value := by
  have hfind := findOidExtension_eq certDer.length_lt
  refine ⟨⟨?_, ?_, ?_⟩, ?_, ?_, ?_⟩
  · rw [extractRole, Svid.extractRole, hfind, Fallible.ok_bind]
    cases Svid.findOidExtension certDer.bytes roleOidBytes with
    | none => rfl
    | some val => exact decodeRole_eq val
  · rw [extractOrdinal, Svid.extractOrdinal, hfind, Fallible.ok_bind]
    cases Svid.findOidExtension certDer.bytes ordinalOidBytes with
    | none => rfl
    | some val => exact decodeOrdinal_eq val
  · rw [isDegraded, Svid.isDegraded, hfind, Fallible.ok_bind]
    cases Svid.findOidExtension certDer.bytes degradedOidBytes with
    | none => rfl
    | some val => exact decodeDegraded_eq val
  · exact fun bytes => ⟨_, parseDerLength_eq bytes⟩
  · exact fun bytes tag => ⟨_, parseDerTlv_eq bytes tag, fun value => declaredSlice_of_parseDerTlv⟩
  · exact fun oid => ⟨_, hfind oid, fun value => declaredSlice_of_findOidExtension⟩

end Fleetos.Svid.Bounded
