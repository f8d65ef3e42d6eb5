import FleetosCore.Identity.Spiffe
import FleetosCore.Library.Der

/-!
# Reading FleetOS extensions out of certificate bytes

`parse_der_length`, `parse_der_tlv`, `find_oid_extension` and the three readers
`extract_role`, `extract_ordinal` and `is_degraded` of `src/spiffe.rs`. The
certificate is never parsed: every offset of the raw bytes is tried for the OID's
contents octets, and the first one followed by an optional BOOLEAN and an OCTET
STRING wins.

`Lookalike` says declaratively which bytes win at an offset. The scan is then the
first lookalike, and nothing below this module needs the scanning loop again.
-/

namespace Fleetos.Svid

open Der (foldl_shift_eq_beNat and_mask_toNat)

def fleetosIanaPen : Nat := 66561

def roleOidArc : List Nat := [1, 3, 6, 1, 4, 1, fleetosIanaPen, 1, 1]
def degradedOidArc : List Nat := [1, 3, 6, 1, 4, 1, fleetosIanaPen, 1, 2]
def ordinalOidArc : List Nat := [1, 3, 6, 1, 4, 1, fleetosIanaPen, 1, 3]

def roleOidBytes : Bytes := [0x2B, 0x06, 0x01, 0x04, 0x01, 0x84, 0x88, 0x01, 0x01, 0x01]
def degradedOidBytes : Bytes := [0x2B, 0x06, 0x01, 0x04, 0x01, 0x84, 0x88, 0x01, 0x01, 0x02]
def ordinalOidBytes : Bytes := [0x2B, 0x06, 0x01, 0x04, 0x01, 0x84, 0x88, 0x01, 0x01, 0x03]

/-- The writers' arcs and the readers' bytes are the same object identifiers. -/
theorem oidOctets_arcs :
    Der.oidOctets roleOidArc = roleOidBytes ∧ Der.oidOctets degradedOidArc = degradedOidBytes ∧
      Der.oidOctets ordinalOidArc = ordinalOidBytes := by
  decide

/-! ## The source's DER helpers -/

/-- The length and the number of octets it took. -/
def parseDerLength : Bytes → Option (Nat × Nat)
  | [] => none
  | b :: rest =>
      if b < 0x80 then
        some (b.toNat, 1)
      else
        let n := (b &&& 0x7f).toNat
        -- Indefinite, longer than four octets, or cut off.
        if n = 0 ∨ n > 4 ∨ (b :: rest).length < 1 + n then none
        else some ((rest.take n).foldl (fun len x => (len <<< 8) ||| x.toNat) 0, 1 + n)

def parseDerTlv (bytes : Bytes) (expectedTag : UInt8) : Option Bytes :=
  match bytes with
  | [] => none
  | tag :: rest =>
      if tag ≠ expectedTag then none
      else
        match parseDerLength rest with
        | none => none
        | some (len, consumed) =>
            let valStart := 1 + consumed
            if valStart + len > bytes.length then none
            else some ((bytes.drop valStart).take len)

/-- The offset past an optional BOOLEAN at `j`; `none` when its length is unreadable. -/
def skipCritical (certDer : Bytes) (j : Nat) : Option Nat :=
  if certDer[j]? = some 0x01 then
    match parseDerLength (certDer.drop (j + 1)) with
    | some (len, consumed) => some (j + (1 + consumed + len))
    | none => none
  else
    some j

/-- The value of an OCTET STRING at `j`. -/
def octetStringAt (certDer : Bytes) (j : Nat) : Option Bytes :=
  if certDer[j]? = some 0x04 then
    match parseDerLength (certDer.drop (j + 1)) with
    | some (len, consumed) =>
        let valStart := j + 1 + consumed
        if valStart + len ≤ certDer.length then some ((certDer.drop valStart).take len) else none
    | none => none
  else
    none

/-- One round of the scan: what it returns at offset `i`, or `none` to go on. -/
def matchAt (certDer oid : Bytes) (i : Nat) : Option Bytes :=
  if oid.isPrefixOf (certDer.drop i) then
    match skipCritical certDer (i + oid.length) with
    | some j => octetStringAt certDer j
    | none => none
  else
    none

def findOidExtension (certDer oid : Bytes) : Option Bytes :=
  if certDer.length < oid.length then none
  else (List.range (certDer.length - oid.length + 1)).findSome? (matchAt certDer oid)

/-! ## The three readers -/

/-- A UTF8String or PrintableString holding a valid role. -/
def decodeRole (val : Bytes) : Option WorkloadRole :=
  match (parseDerTlv val 0x0C).or (parseDerTlv val 0x13) with
  | none => none
  | some stringBytes =>
      match Text.fromUtf8 stringBytes with
      | none => none
      | some roleStr => (WorkloadRole.tryFrom roleStr).toOption

/-- An INTEGER of at most four octets. -/
def decodeOrdinal (val : Bytes) : Option UInt32 :=
  match parseDerTlv val 0x02 with
  | none => none
  | some intBytes =>
      if intBytes.length > 4 then none
      else some (intBytes.foldl (fun result byte => (result <<< 8) ||| byte.toUInt32) 0)

/-- A BOOLEAN whose first octet is not zero. -/
def decodeDegraded (val : Bytes) : Bool :=
  match parseDerTlv val 0x01 with
  | some (b :: _) => b != 0
  | _ => false

def extractRole (certDer : Bytes) : Option WorkloadRole :=
  (findOidExtension certDer roleOidBytes).bind decodeRole

def extractOrdinal (certDer : Bytes) : Option UInt32 :=
  (findOidExtension certDer ordinalOidBytes).bind decodeOrdinal

def isDegraded (certDer : Bytes) : Bool :=
  (findOidExtension certDer degradedOidBytes).any decodeDegraded

/-! ## What the scan accepts -/

theorem parseDerLength_eq_some_iff {s : Bytes} {len consumed : Nat} :
    parseDerLength s = some (len, consumed) ↔
      ∃ l rest, s = l ++ rest ∧ Der.LengthOctets 4 l len ∧ l.length = consumed := by
  constructor
  · intro h
    cases s with
    | nil => cases h
    | cons b rest =>
        simp only [parseDerLength] at h
        split at h
        · rename_i hshort
          obtain ⟨rfl, rfl⟩ := Prod.mk.inj (Option.some.inj h)
          exact ⟨[b], rest, rfl, .short b (UInt8.lt_iff_toNat_lt.mp hshort), rfl⟩
        · rename_i hlong
          have hge : 0x80 ≤ b.toNat := Nat.le_of_not_lt fun hlt =>
            hlong (UInt8.lt_iff_toNat_lt.mpr hlt)
          split at h
          · cases h
          · rename_i hvalid
            obtain ⟨rfl, rfl⟩ := Prod.mk.inj (Option.some.inj h)
            rw [and_mask_toNat hge] at hvalid ⊢
            simp only [List.length_cons, not_or] at hvalid
            have htake : (rest.take (b.toNat - 0x80)).length = b.toNat - 0x80 := by
              rw [List.length_take]
              omega
            refine ⟨b :: rest.take (b.toNat - 0x80), rest.drop (b.toNat - 0x80), ?_, ?_, ?_⟩
            · rw [List.cons_append, List.take_append_drop]
            · rw [foldl_shift_eq_beNat]
              exact .long b _ (by omega) (by omega) (by omega)
            · rw [List.length_cons, htake]
              omega
  · rintro ⟨l, rest, rfl, hl, rfl⟩
    cases hl with
    | short b hb =>
        simp only [List.singleton_append, parseDerLength]
        rw [if_pos (UInt8.lt_iff_toNat_lt.mpr hb)]
        rfl
    | long b digits hb hpos hlimit =>
        have hnot : ¬ b < 0x80 := fun hlt => by
          have := UInt8.lt_iff_toNat_lt.mp hlt
          rw [hb] at this
          exact absurd this (by simp)
        simp only [List.cons_append, parseDerLength]
        rw [if_neg hnot, and_mask_toNat (by omega), hb, Nat.add_sub_cancel_left,
          if_neg (by simp only [List.length_cons, List.length_append]; omega),
          foldl_shift_eq_beNat, List.take_left, List.length_cons, Nat.add_comm]

/-- A length within four octets is read back with the octets it takes. -/
theorem parseDerLength_append {l : Bytes} {len : Nat} (h : Der.LengthOctets 4 l len)
    (rest : Bytes) : parseDerLength (l ++ rest) = some (len, l.length) :=
  parseDerLength_eq_some_iff.mpr ⟨l, rest, rfl, h, rfl⟩

private theorem getElem?_append_length (pre s : Bytes) : (pre ++ s)[pre.length]? = s.head? := by
  rw [List.getElem?_append_right (Nat.le_refl _), Nat.sub_self, List.head?_eq_getElem?]

/-- A value is read exactly off the octets that start with its tag and length. -/
theorem parseDerTlv_eq_some_iff {bytes v : Bytes} {tag : UInt8} :
    parseDerTlv bytes tag = some v ↔
      ∃ l post, bytes = tag :: (l ++ (v ++ post)) ∧ Der.LengthOctets 4 l v.length := by
  cases bytes with
  | nil => simp [parseDerTlv]
  | cons first rest =>
      simp only [parseDerTlv, List.cons.injEq]
      constructor
      · intro h
        split at h
        · cases h
        · rename_i htag
          split at h
          · cases h
          · rename_i len consumed hlen
            obtain ⟨l, tail, rfl, hl, rfl⟩ := parseDerLength_eq_some_iff.mp hlen
            split at h
            · cases h
            · rename_i hfits
              rw [Nat.add_comm, List.drop_succ_cons, List.drop_left] at h
              obtain rfl := Option.some.inj h
              simp only [List.length_append, List.length_cons] at hfits
              refine ⟨l, tail.drop len, ⟨not_not.mp htag, by rw [List.take_append_drop]⟩, ?_⟩
              rw [List.length_take, Nat.min_eq_left (by omega)]
              exact hl
      · rintro ⟨l, post, ⟨rfl, rfl⟩, hl⟩
        rw [if_neg (not_not.mpr rfl), parseDerLength_append hl]
        have hfits : ¬ 1 + l.length + v.length > (first :: (l ++ (v ++ post))).length := by
          simp only [List.length_append, List.length_cons]
          omega
        simp only [if_neg hfits]
        rw [Nat.add_comm, List.drop_succ_cons, List.drop_left, List.take_left]

/-- The scan reads an OCTET STRING in place like any other value. -/
theorem octetStringAt_append (pre s : Bytes) :
    octetStringAt (pre ++ s) pre.length = parseDerTlv s 0x04 := by
  rw [octetStringAt, getElem?_append_length, List.drop_length_add_append]
  cases s with
  | nil => rfl
  | cons tag rest =>
      simp only [parseDerTlv, List.head?_cons, Option.some.injEq, List.drop_succ_cons,
        List.drop_zero, ne_eq, ite_not]
      split
      · cases parseDerLength rest with
        | none => rfl
        | some found =>
            obtain ⟨len, consumed⟩ := found
            have hiff : pre.length + 1 + consumed + len ≤ (pre ++ tag :: rest).length ↔
                ¬ 1 + consumed + len > (tag :: rest).length := by
              simp only [List.length_append, List.length_cons]
              omega
            have hdrop : (pre ++ tag :: rest).drop (pre.length + 1 + consumed) =
                (tag :: rest).drop (1 + consumed) := by
              rw [Nat.add_assoc, List.drop_length_add_append]
            simp only [hiff, hdrop, ite_not]
      · rfl

/-- An OCTET STRING right after `pre`. -/
theorem octetStringAt_eq_some_iff {pre s v : Bytes} :
    octetStringAt (pre ++ s) pre.length = some v ↔
      ∃ l post, s = 0x04 :: (l ++ (v ++ post)) ∧ Der.LengthOctets 4 l v.length := by
  rw [octetStringAt_append, parseDerTlv_eq_some_iff]

theorem octetStringAt_eq_none_of_length_le {b : Bytes} {j : Nat} (h : b.length ≤ j) :
    octetStringAt b j = none := by
  rw [octetStringAt, List.getElem?_eq_none h]
  rfl

/-- An optional BOOLEAN as the scan skips it. -/
inductive Critical : Bytes → Prop where
  | absent : Critical []
  | present (l contents : Bytes) (h : Der.LengthOctets 4 l contents.length) :
      Critical (0x01 :: (l ++ contents))

/-- The bytes at offset `i` read as an extension of this OID with this value. -/
def Lookalike (der oid : Bytes) (i : Nat) (value : Bytes) : Prop :=
  ∃ pre critical l post, der = pre ++ (oid ++ (critical ++ 0x04 :: (l ++ (value ++ post)))) ∧
    pre.length = i ∧ Critical critical ∧ Der.LengthOctets 4 l value.length

/-- The scan's test after the OID, as a decomposition of what follows it. -/
theorem skipCritical_bind_eq_some_iff {pre s v : Bytes} :
    (skipCritical (pre ++ s) pre.length).bind (octetStringAt (pre ++ s)) = some v ↔
      ∃ critical l post, s = critical ++ 0x04 :: (l ++ (v ++ post)) ∧ Critical critical ∧
        Der.LengthOctets 4 l v.length := by
  have hoctets : ∀ crit tail, s = crit ++ tail →
      (octetStringAt (pre ++ s) (pre.length + crit.length) = some v ↔
        ∃ l post, tail = 0x04 :: (l ++ (v ++ post)) ∧ Der.LengthOctets 4 l v.length) := by
    rintro crit tail rfl
    rw [← List.append_assoc, ← List.length_append]
    exact octetStringAt_eq_some_iff
  constructor
  · intro h
    obtain ⟨j, hskip, hj⟩ := Option.bind_eq_some_iff.mp h
    rw [skipCritical, getElem?_append_length, List.drop_length_add_append] at hskip
    split at hskip
    · rename_i htag
      obtain ⟨rest, rfl⟩ := List.head?_eq_some_iff.mp htag
      split at hskip
      · rename_i len consumed hlen
        obtain ⟨l, tail, rfl, hl, rfl⟩ := parseDerLength_eq_some_iff.mp hlen
        obtain rfl := Option.some.inj hskip
        by_cases hfits : len ≤ tail.length
        · have htake : (tail.take len).length = len := by
            rw [List.length_take, Nat.min_eq_left hfits]
          have hj' := (hoctets (0x01 :: (l ++ tail.take len)) (tail.drop len) (by simp)).mp (by
            simp only [List.length_cons, List.length_append, htake]
            rwa [Nat.add_comm (l.length + len), ← Nat.add_assoc 1])
          obtain ⟨l', post, htail, hl'⟩ := hj'
          refine ⟨0x01 :: (l ++ tail.take len), l', post, ?_, .present l _ (by rwa [htake]), hl'⟩
          rw [← htail, List.cons_append, List.append_assoc, List.take_append_drop]
        · rw [octetStringAt_eq_none_of_length_le] at hj
          · cases hj
          · simp only [List.length_append, List.length_cons]
            omega
      · cases hskip
    · obtain rfl := Option.some.inj hskip
      obtain ⟨l, post, hs, hl⟩ := (hoctets [] s rfl).mp hj
      exact ⟨[], l, post, hs, .absent, hl⟩
  · rintro ⟨critical, l, post, hs, hcritical, hl⟩
    have hoctet := (hoctets critical _ hs).mpr ⟨l, post, rfl, hl⟩
    refine Option.bind_eq_some_iff.mpr ⟨pre.length + critical.length, ?_, hoctet⟩
    rw [skipCritical, getElem?_append_length, List.drop_length_add_append, hs]
    cases hcritical with
    | absent => rfl
    | present lc contents hlc =>
        simp only [List.cons_append, List.head?_cons, List.drop_succ_cons, List.drop_zero,
          List.append_assoc, parseDerLength_append hlc, if_true, List.length_cons,
          List.length_append, Option.some.injEq]
        omega

theorem matchAt_eq_some_iff {der oid v : Bytes} {i : Nat} (hi : i ≤ der.length) :
    matchAt der oid i = some v ↔ Lookalike der oid i v := by
  have hmatch : matchAt der oid i =
      if oid.isPrefixOf (der.drop i) then
        (skipCritical der (i + oid.length)).bind (octetStringAt der)
      else none := by
    rw [matchAt]
    cases skipCritical der (i + oid.length) <;> rfl
  rw [hmatch]
  constructor
  · intro h
    split at h
    · rename_i hoid
      obtain ⟨pre, s, rfl, rfl⟩ : ∃ pre s, der = (pre ++ oid) ++ s ∧ i = pre.length := by
        obtain ⟨s, hs⟩ := List.isPrefixOf_iff_prefix.mp hoid
        refine ⟨der.take i, s, ?_, ?_⟩
        · rw [List.append_assoc, hs, List.take_append_drop]
        · rw [List.length_take, Nat.min_eq_left hi]
      rw [← List.length_append] at h
      obtain ⟨critical, l, post, rfl, hcritical, hl⟩ := skipCritical_bind_eq_some_iff.mp h
      exact ⟨pre, critical, l, post, List.append_assoc .., rfl, hcritical, hl⟩
    · cases h
  · rintro ⟨pre, critical, l, post, rfl, rfl, hcritical, hl⟩
    rw [List.drop_left, if_pos (List.isPrefixOf_iff_prefix.mpr (List.prefix_append ..)),
      ← List.length_append, ← List.append_assoc pre]
    exact skipCritical_bind_eq_some_iff.mpr ⟨critical, l, post, rfl, hcritical, hl⟩

theorem Lookalike.add_length_lt {der oid v : Bytes} {i : Nat} (h : Lookalike der oid i v) :
    i + oid.length < der.length := by
  obtain ⟨pre, critical, l, post, rfl, rfl, -, -⟩ := h
  simp only [List.length_append, List.length_cons]
  omega

theorem Lookalike.unique {der oid v w : Bytes} {i : Nat} (hv : Lookalike der oid i v)
    (hw : Lookalike der oid i w) : v = w := by
  have hi : i ≤ der.length := by
    have := hv.add_length_lt
    omega
  rw [← matchAt_eq_some_iff hi] at hv hw
  exact Option.some.inj (hv.symm.trans hw)

/-- The lookalike at `i` is the first one in the certificate. -/
structure FirstLookalike (der oid : Bytes) (i : Nat) (value : Bytes) : Prop where
  here : Lookalike der oid i value
  first : ∀ j < i, ∀ w, ¬ Lookalike der oid j w

private theorem of_findSome?_range {α : Type} {f : Nat → Option α} {n : Nat} {a : α}
    (h : (List.range n).findSome? f = some a) : ∃ i < n, f i = some a ∧ ∀ j < i, f j = none := by
  obtain ⟨before, i, after, hrange, hi, hbefore⟩ := List.findSome?_eq_some_iff.mp h
  have hget : ∀ j, j < n → (before ++ i :: after)[j]? = some j := fun j hj => by
    rw [← hrange, List.getElem?_range hj]
  have hlen : n = before.length + (after.length + 1) := by
    simpa using congrArg List.length hrange
  obtain rfl : i = before.length := by
    simpa using hget before.length (by omega)
  refine ⟨before.length, by omega, hi, fun j hj => hbefore j ?_⟩
  have hj' := hget j (by omega)
  rw [List.getElem?_append_left hj] at hj'
  exact List.mem_of_getElem? hj'

/-- The scan returns nothing when there is no lookalike at all. -/
theorem findOidExtension_eq_none_iff {der oid : Bytes} :
    findOidExtension der oid = none ↔ ∀ i v, ¬ Lookalike der oid i v := by
  rw [findOidExtension]
  split
  · rename_i hshort
    refine ⟨fun _ i v h => ?_, fun _ => rfl⟩
    have := h.add_length_lt
    omega
  · rw [List.findSome?_eq_none_iff]
    constructor
    · intro h i v hlook
      have hlt := hlook.add_length_lt
      have hnone := h i (List.mem_range.mpr (by omega))
      rw [(matchAt_eq_some_iff (by omega)).mpr hlook] at hnone
      cases hnone
    · intro h i hi
      have hlt := List.mem_range.mp hi
      cases hmatch : matchAt der oid i with
      | none => rfl
      | some v => exact absurd ((matchAt_eq_some_iff (by omega)).mp hmatch) (h i v)

theorem FirstLookalike.unique {der oid v w : Bytes} {i j : Nat} (hv : FirstLookalike der oid i v)
    (hw : FirstLookalike der oid j w) : i = j ∧ v = w := by
  rcases Nat.lt_trichotomy i j with hlt | rfl | hgt
  · exact absurd hv.here (hw.first i hlt v)
  · exact ⟨rfl, hv.here.unique hw.here⟩
  · exact absurd hw.here (hv.first j hgt w)

/-- The scan returns the first lookalike. -/
theorem findOidExtension_eq_some_iff {der oid v : Bytes} :
    findOidExtension der oid = some v ↔ ∃ i, FirstLookalike der oid i v := by
  have hfind : ∀ w, findOidExtension der oid = some w → ∃ i, FirstLookalike der oid i w := by
    intro w h
    rw [findOidExtension] at h
    split at h
    · cases h
    · obtain ⟨i, hi, hmatch, hbefore⟩ := of_findSome?_range h
      refine ⟨i, (matchAt_eq_some_iff (by omega)).mp hmatch, fun j hj u hu => ?_⟩
      have hnone := hbefore j hj
      rw [(matchAt_eq_some_iff (by omega)).mpr hu] at hnone
      cases hnone
  refine ⟨hfind v, fun ⟨i, hi⟩ => ?_⟩
  cases h : findOidExtension der oid with
  | none => exact absurd hi.here (findOidExtension_eq_none_iff.mp h i v)
  | some w =>
      obtain ⟨j, hj⟩ := hfind w h
      rw [(hi.unique hj).2]

end Fleetos.Svid
