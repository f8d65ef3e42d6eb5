import FleetosCore.Library.Text

/-!
# Hexadecimal text

Two digits an octet, high half first, in lower case when written and in either case when
read. The reader works on the UTF-8 bytes of any string and takes a fixed number of
octets.

Reading inverts writing up to letter case: a string is read as `x` exactly when its
lower-case form is what is written for `x`. The other facts about the reader follow from
that one.
-/

namespace Hex

open Text (utf8 lowerByte toAsciiLowercase)

def digits : List Char := "0123456789abcdef".toList

/-- The value of a digit of either case. -/
def hexVal (b : UInt8) : Option UInt8 :=
  if 0x30 ≤ b ∧ b ≤ 0x39 then some (b - 0x30)
  else if 0x61 ≤ b ∧ b ≤ 0x66 then some (b - 0x61 + 10)
  else if 0x41 ≤ b ∧ b ≤ 0x46 then some (b - 0x41 + 10)
  else none

theorem toNat_high (b : UInt8) : (b >>> 4).toNat = b.toNat / 16 := by
  rw [UInt8.toNat_shiftRight]
  exact Nat.shiftRight_eq_div_pow b.toNat 4

theorem toNat_low (b : UInt8) : (b &&& 0x0f).toNat = b.toNat % 16 := by
  rw [UInt8.toNat_and]
  exact Nat.and_two_pow_sub_one_eq_mod b.toNat 4

theorem high_lt (b : UInt8) : (b >>> 4).toNat < digits.length := by
  have hb := b.toNat_lt
  have hdigits : digits.length = 16 := rfl
  rw [toNat_high]
  omega

theorem low_lt (b : UInt8) : (b &&& 0x0f).toNat < digits.length := by
  have hdigits : digits.length = 16 := rfl
  rw [toNat_low]
  omega

/-- The octets as text, digit after digit. -/
def toHex (octets : Bytes) : String :=
  octets.foldl (fun s (b : UInt8) =>
    (s.push (digits.get ⟨(b >>> 4).toNat, high_lt b⟩)).push
      (digits.get ⟨(b &&& 0x0f).toNat, low_lt b⟩)) ""

/-- Octet `i` of a text with two digits an octet. -/
def octetAt {n : Nat} (bytes : Bytes) (h : bytes.length = 2 * n) (i : Fin n) : Option UInt8 := do
  let hi ← hexVal (bytes.get ⟨2 * i, by omega⟩)
  let lo ← hexVal (bytes.get ⟨2 * i + 1, by omega⟩)
  return (hi <<< 4) ||| lo

/-- The `n` octets of a text, if it is one of `n` octets. -/
def fromHex (n : Nat) (s : String) : Option Bytes :=
  if h : (utf8 s).length = 2 * n then (List.finRange n).mapM (octetAt (utf8 s) h) else none

/-! ## Digits and their values -/

/-- A digit of either case. -/
def IsDigit (b : UInt8) : Prop :=
  (0x30 ≤ b ∧ b ≤ 0x39) ∨ (0x61 ≤ b ∧ b ≤ 0x66) ∨ (0x41 ≤ b ∧ b ≤ 0x46)

/-- The byte that is written for a value. -/
def digitByte (v : UInt8) : UInt8 := if v < 10 then v + 0x30 else v + 0x57

theorem hexVal_eq_none_iff {b : UInt8} : hexVal b = none ↔ ¬ IsDigit b := by
  rw [hexVal, IsDigit]
  grind

theorem hexVal_lowerByte (b : UInt8) : hexVal (lowerByte b) = hexVal b := by
  have hall : ∀ n < 256, hexVal (lowerByte (UInt8.ofNat n)) = hexVal (UInt8.ofNat n) := by
    decide +kernel
  have hb := hall b.toNat b.toNat_lt
  rwa [UInt8.ofNat_toNat] at hb

theorem hexVal_digitByte {v : UInt8} (h : v.toNat < 16) : hexVal (digitByte v) = some v := by
  have hall : ∀ n < 16, hexVal (digitByte (UInt8.ofNat n)) = some (UInt8.ofNat n) := by decide
  have hv := hall v.toNat h
  rwa [UInt8.ofNat_toNat] at hv

theorem lowerByte_digitByte {v : UInt8} (h : v.toNat < 16) :
    lowerByte (digitByte v) = digitByte v := by
  have hall : ∀ n < 16, lowerByte (digitByte (UInt8.ofNat n)) = digitByte (UInt8.ofNat n) := by
    decide
  have hv := hall v.toNat h
  rwa [UInt8.ofNat_toNat] at hv

/-- A byte has a value exactly when its lower-case form is written for that value. -/
theorem hexVal_eq_some_iff {b v : UInt8} :
    hexVal b = some v ↔ v.toNat < 16 ∧ lowerByte b = digitByte v := by
  have hall : ∀ n < 256, ∀ v ∈ hexVal (UInt8.ofNat n),
      v.toNat < 16 ∧ lowerByte (UInt8.ofNat n) = digitByte v := by decide +kernel
  constructor
  · intro h
    have hb := hall b.toNat b.toNat_lt v (by rwa [UInt8.ofNat_toNat])
    rwa [UInt8.ofNat_toNat] at hb
  · rintro ⟨hv, hlower⟩
    rw [← hexVal_lowerByte, hlower, hexVal_digitByte hv]

theorem utf8EncodeChar_digit {n : Nat} (h : n < digits.length) :
    String.utf8EncodeChar (digits.get ⟨n, h⟩) = [digitByte (UInt8.ofNat n)] := by
  have hall : ∀ i : Fin digits.length,
      String.utf8EncodeChar (digits.get i) = [digitByte (UInt8.ofNat i)] := by decide
  exact hall ⟨n, h⟩

/-- The two bytes of an octet. -/
def octetBytes (b : UInt8) : Bytes := [digitByte (b >>> 4), digitByte (b &&& 0x0f)]

/-- The loop appends two digits an octet. -/
theorem utf8_toHex (octets : Bytes) : utf8 (toHex octets) = octets.flatMap octetBytes := by
  have hloop : ∀ (octets : Bytes) (s : String),
      utf8 (octets.foldl (fun s (b : UInt8) =>
        (s.push (digits.get ⟨(b >>> 4).toNat, high_lt b⟩)).push
          (digits.get ⟨(b &&& 0x0f).toNat, low_lt b⟩)) s) =
        utf8 s ++ octets.flatMap octetBytes := by
    intro octets
    induction octets with
    | nil => simp
    | cons b octets ih =>
        intro s
        rw [List.foldl_cons, ih, List.flatMap_cons, Text.utf8_push, Text.utf8_push,
          utf8EncodeChar_digit, utf8EncodeChar_digit, UInt8.ofNat_toNat, UInt8.ofNat_toNat]
        simp [octetBytes]
  exact hloop octets ""

theorem halves_of_join {hi lo : UInt8} (hhi : hi.toNat < 16) (hlo : lo.toNat < 16) :
    ((hi <<< 4) ||| lo) >>> 4 = hi ∧ ((hi <<< 4) ||| lo) &&& 0x0f = lo := by
  have hall : ∀ m < 16, ∀ n < 16,
      ((UInt8.ofNat m <<< 4) ||| UInt8.ofNat n) >>> 4 = UInt8.ofNat m ∧
        ((UInt8.ofNat m <<< 4) ||| UInt8.ofNat n) &&& 0x0f = UInt8.ofNat n := by decide +kernel
  have hparts := hall hi.toNat hhi lo.toNat hlo
  rwa [UInt8.ofNat_toNat, UInt8.ofNat_toNat] at hparts

theorem join_halves (b : UInt8) : ((b >>> 4) <<< 4) ||| (b &&& 0x0f) = b := by
  have hall : ∀ n < 256, ((UInt8.ofNat n >>> 4) <<< 4) ||| (UInt8.ofNat n &&& 0x0f) =
      UInt8.ofNat n := by decide +kernel
  have hb := hall b.toNat b.toNat_lt
  rwa [UInt8.ofNat_toNat] at hb

/-! ## Texts and their octets -/

theorem octetAt_zero {n : Nat} {a b : UInt8} {rest : Bytes}
    (h : (a :: b :: rest).length = 2 * (n + 1)) {y : UInt8} :
    octetAt (a :: b :: rest) h 0 = some y ↔
      lowerByte a = digitByte (y >>> 4) ∧ lowerByte b = digitByte (y &&& 0x0f) := by
  have hfirst : octetAt (a :: b :: rest) h 0 =
      (hexVal a).bind fun hi => (hexVal b).bind fun lo => some ((hi <<< 4) ||| lo) := rfl
  have hhigh : (y >>> 4).toNat < 16 := high_lt y
  have hlow : (y &&& 0x0f).toNat < 16 := low_lt y
  simp only [hfirst, Option.bind_eq_some_iff, Option.some.injEq, hexVal_eq_some_iff]
  constructor
  · rintro ⟨hi, ⟨hhi, ha⟩, lo, ⟨hlo, hb⟩, rfl⟩
    obtain ⟨hjoin, hjoin'⟩ := halves_of_join hhi hlo
    rw [hjoin, hjoin']
    exact ⟨ha, hb⟩
  · rintro ⟨ha, hb⟩
    exact ⟨y >>> 4, ⟨hhigh, ha⟩, y &&& 0x0f, ⟨hlow, hb⟩, join_halves y⟩

/-- The loop over the octets accepts what is, in lower case, written for them. -/
theorem mapM_octetAt_eq_some_iff {n : Nat} {bytes octets : Bytes} (h : bytes.length = 2 * n) :
    (List.finRange n).mapM (octetAt bytes h) = some octets ↔
      bytes.map lowerByte = octets.flatMap octetBytes := by
  induction n generalizing bytes octets with
  | zero =>
      obtain rfl : bytes = [] := List.length_eq_zero_iff.mp h
      cases octets with
      | nil => simp
      | cons y ys => simp [octetBytes]
  | succ n ih =>
      match bytes, h with
      | a :: b :: rest, h =>
          have hlength : rest.length = 2 * n := by
            simp only [List.length_cons] at h
            omega
          -- the other octets are those of the text behind the first two digits
          have hrest : octetAt (a :: b :: rest) h ∘ Fin.succ = octetAt rest hlength := rfl
          rw [List.finRange_succ, List.mapM_cons, List.mapM_map, hrest]
          cases octets with
          | nil => simp [Option.bind_eq_some_iff]
          | cons y ys =>
              simp only [Option.bind_eq_bind, Option.bind_eq_some_iff, Option.pure_def,
                Option.some.injEq, List.cons.injEq, octetAt_zero, ih hlength, List.map_cons,
                List.flatMap_cons, octetBytes, List.cons_append, List.nil_append]
              constructor
              · rintro ⟨_, ⟨ha, hb⟩, _, hys, rfl, rfl⟩
                exact ⟨ha, hb, hys⟩
              · rintro ⟨ha, hb, hys⟩
                exact ⟨y, ⟨ha, hb⟩, ys, hys, rfl, rfl⟩

theorem flatMap_octetBytes_length (octets : Bytes) :
    (octets.flatMap octetBytes).length = 2 * octets.length := by
  induction octets with
  | nil => rfl
  | cons b octets ih =>
      rw [List.flatMap_cons, List.length_append, ih, List.length_cons]
      simp only [octetBytes, List.length_cons, List.length_nil]
      omega

/-- Reading inverts writing up to letter case. -/
theorem fromHex_eq_some_iff {n : Nat} {s : String} {octets : Bytes} :
    fromHex n s = some octets ↔ octets.length = n ∧ toAsciiLowercase s = toHex octets := by
  have hlower : toAsciiLowercase s = toHex octets ↔
      (utf8 s).map lowerByte = octets.flatMap octetBytes := by
    rw [← Text.utf8_toAsciiLowercase, ← utf8_toHex]
    exact ⟨congrArg utf8, Text.utf8_injective⟩
  rw [hlower, fromHex]
  constructor
  · intro h
    split at h
    · rename_i hlength
      rw [mapM_octetAt_eq_some_iff] at h
      have hcount := congrArg List.length h
      rw [List.length_map, flatMap_octetBytes_length] at hcount
      exact ⟨by omega, h⟩
    · cases h
  · rintro ⟨rfl, h⟩
    have hcount := congrArg List.length h
    rw [List.length_map, flatMap_octetBytes_length] at hcount
    rw [dif_pos hcount, mapM_octetAt_eq_some_iff, h]

example : fromHex 2 "aF09" = some [0xAF, 0x09] := by decide

theorem toAsciiLowercase_toHex (octets : Bytes) :
    toAsciiLowercase (toHex octets) = toHex octets := by
  apply Text.utf8_injective
  rw [Text.utf8_toAsciiLowercase, utf8_toHex, List.map_flatMap]
  congr
  funext b
  simp only [octetBytes, List.map_cons, List.map_nil, lowerByte_digitByte (high_lt b),
    lowerByte_digitByte (low_lt b)]

theorem exists_hexVal_iff {b : UInt8} : (∃ v, hexVal b = some v) ↔ IsDigit b := by
  rw [← Option.ne_none_iff_exists', ne_eq, hexVal_eq_none_iff, not_not]

theorem isDigit_of_mem_octetBytes {b c : UInt8} (h : lowerByte b ∈ octetBytes c) : IsDigit b := by
  rw [← exists_hexVal_iff]
  rcases List.mem_pair.mp h with hhigh | hlow
  · exact ⟨c >>> 4, hexVal_eq_some_iff.mpr ⟨high_lt c, hhigh⟩⟩
  · exact ⟨c &&& 0x0f, hexVal_eq_some_iff.mpr ⟨low_lt c, hlow⟩⟩

/-- Exactly the texts of the right length and with digits only are read. -/
theorem exists_fromHex_iff {n : Nat} {s : String} :
    (∃ octets, fromHex n s = some octets) ↔
      (utf8 s).length = 2 * n ∧ ∀ b ∈ utf8 s, IsDigit b := by
  constructor
  · rintro ⟨octets, h⟩
    obtain ⟨rfl, hlower⟩ := fromHex_eq_some_iff.mp h
    have hbytes := congrArg utf8 hlower
    rw [Text.utf8_toAsciiLowercase, utf8_toHex] at hbytes
    have hcount := congrArg List.length hbytes
    rw [List.length_map, flatMap_octetBytes_length] at hcount
    refine ⟨hcount, fun b hb => ?_⟩
    have hmem : lowerByte b ∈ octets.flatMap octetBytes := hbytes ▸ List.mem_map_of_mem hb
    obtain ⟨c, -, hc⟩ := List.mem_flatMap.mp hmem
    exact isDigit_of_mem_octetBytes hc
  · rintro ⟨hlength, hdigits⟩
    have hoctet : ∀ i, ∃ y, octetAt (utf8 s) hlength i = some y := by
      intro i
      obtain ⟨hi, hhi⟩ := exists_hexVal_iff.mpr
        (hdigits _ (List.get_mem (utf8 s) ⟨2 * i, by omega⟩))
      obtain ⟨lo, hlo⟩ := exists_hexVal_iff.mpr
        (hdigits _ (List.get_mem (utf8 s) ⟨2 * i + 1, by omega⟩))
      refine ⟨(hi <<< 4) ||| lo, ?_⟩
      rw [octetAt, hhi, hlo]
      rfl
    choose octet hoctet using hoctet
    refine ⟨(List.finRange n).map octet, ?_⟩
    rw [fromHex, dif_pos hlength, funext hoctet]
    exact List.mapM_pure

end Hex
