import FleetosCore.Library.Bytes
import Mathlib.Data.Nat.Digits.Lemmas

/-!
# Distinguished encoding: tags, lengths, values

Definite lengths, tag-length-value triples and object identifiers. A length below
128 is one octet; any other is a count of octets followed by that many, most
significant first and without a leading zero.

`LengthOctets` is the more liberal notion a reader works with: it accepts leading
zeros in the long form but only up to a fixed number of octets. Every length below
the reader's range is read back, and no longer one is.
-/

namespace Der

/-- The number denoted by octets, most significant first. -/
def beNat (b : Bytes) : Nat := b.foldl (fun n x => n * 256 + x.toNat) 0

/-- The octets of a number without leading zeros; none for zero. -/
def octets (n : Nat) : Bytes := ((Nat.digits 256 n).map UInt8.ofNat).reverse

/-- The length octets of a value of `n` octets. -/
def length (n : Nat) : Bytes :=
  if n < 0x80 then [UInt8.ofNat n]
  else UInt8.ofNat (0x80 + (octets n).length) :: octets n

def tlv (tag : UInt8) (contents : Bytes) : Bytes := tag :: (length contents.length ++ contents)

/-- Seven bits an octet, with the high bit on all but the last. -/
def subidentifier (n : Nat) : Bytes :=
  match Nat.digits 128 n with
  | [] => [0]
  | low :: high => (high.map fun d => UInt8.ofNat (0x80 + d)).reverse ++ [UInt8.ofNat low]

/-- Contents octets of an object identifier; the first two arcs share one octet. -/
def oidOctets : List Nat → Bytes
  | first :: second :: arcs => subidentifier (first * 40 + second) ++ arcs.flatMap subidentifier
  | _ => []

theorem beNat_append_singleton (b : Bytes) (x : UInt8) :
    beNat (b ++ [x]) = beNat b * 256 + x.toNat := by
  rw [beNat, List.foldl_append]
  rfl

theorem beNat_eq_ofDigits (b : Bytes) :
    beNat b = Nat.ofDigits 256 (b.reverse.map UInt8.toNat) := by
  induction b using List.reverseRecOn with
  | nil => rfl
  | append_singleton b x ih =>
      rw [beNat_append_singleton, List.reverse_append, List.reverse_singleton,
        List.singleton_append, List.map_cons, Nat.ofDigits_cons, ih]
      ring

/-- Zeros in front do not change the number. -/
theorem beNat_replicate_zero_append (n : Nat) (b : Bytes) :
    beNat (List.replicate n 0 ++ b) = beNat b := by
  induction n with
  | zero => rfl
  | succ n ih =>
      rw [List.replicate_succ, List.cons_append, beNat, List.foldl_cons]
      exact ih

theorem beNat_octets (n : Nat) : beNat (octets n) = n := by
  have hdigits : ((Nat.digits 256 n).map UInt8.ofNat).map UInt8.toNat = Nat.digits 256 n := by
    have hback : ∀ d ∈ Nat.digits 256 n, (UInt8.toNat ∘ UInt8.ofNat) d = id d := by
      intro d hd
      rw [Function.comp_apply, UInt8.toNat_ofNat']
      exact Nat.mod_eq_of_lt (Nat.digits_lt_base (by decide) hd)
    rw [List.map_map, List.map_congr_left hback, List.map_id]
  rw [beNat_eq_ofDigits, octets, List.reverse_reverse, hdigits, Nat.ofDigits_digits]

/-- Octets without a leading zero are those of their number. -/
theorem octets_beNat {b : UInt8} {rest : Bytes} (h : b ≠ 0) :
    octets (beNat (b :: rest)) = b :: rest := by
  have hdigits : Nat.digits 256 (beNat (b :: rest)) = (b :: rest).reverse.map UInt8.toNat := by
    rw [beNat_eq_ofDigits]
    refine Nat.digits_ofDigits 256 (by decide) _ (fun d hd => ?_) fun hne => ?_
    · obtain ⟨x, -, rfl⟩ := List.mem_map.mp hd
      exact x.toNat_lt
    · simp only [List.reverse_cons, List.map_append, List.map_cons, List.map_nil,
        List.getLast_append_singleton]
      exact fun hzero => h (UInt8.toNat_inj.mp hzero)
  have hback : (UInt8.ofNat ∘ UInt8.toNat) = id := by
    funext x
    exact UInt8.ofNat_toNat
  rw [octets, hdigits, List.map_map, hback, List.map_id, List.reverse_reverse]

theorem beNat_lt (b : Bytes) : beNat b < 256 ^ b.length := by
  induction b using List.reverseRecOn with
  | nil => decide
  | append_singleton b x ih =>
      have hx := x.toNat_lt
      rw [beNat_append_singleton, List.length_append, List.length_singleton, Nat.pow_succ]
      omega

theorem octets_length_le_iff {n k : Nat} : (octets n).length ≤ k ↔ n < 256 ^ k := by
  rw [octets, List.length_reverse, List.length_map, Nat.digits_length_le_iff (by decide)]

theorem octets_length_pos {n : Nat} (h : 0 < n) : 0 < (octets n).length := by
  by_contra hzero
  have hle : (octets n).length ≤ 0 := by omega
  rw [octets_length_le_iff] at hle
  omega

theorem octets_length_mono {m n : Nat} (h : m ≤ n) : (octets m).length ≤ (octets n).length :=
  octets_length_le_iff.mpr (Nat.lt_of_le_of_lt h (octets_length_le_iff.mp (Nat.le_refl _)))

/-- Octets read as a length by a reader of up to `limit` octets. -/
inductive LengthOctets (limit : Nat) : Bytes → Nat → Prop where
  | short (b : UInt8) (h : b.toNat < 0x80) : LengthOctets limit [b] b.toNat
  | long (b : UInt8) (digits : Bytes) (hb : b.toNat = 0x80 + digits.length)
      (hpos : 0 < digits.length) (hlimit : digits.length ≤ limit) :
      LengthOctets limit (b :: digits) (beNat digits)

section

variable {limit : Nat}

/-- A length in the reader's range is read back. -/
theorem lengthOctets_length {n : Nat} (hlimit : limit < 0x7f) (h : n < 256 ^ limit) :
    LengthOctets limit (length n) n := by
  rw [length]
  split
  · rename_i hshort
    have hb : (UInt8.ofNat n).toNat = n := by
      rw [UInt8.toNat_ofNat']
      omega
    have := @LengthOctets.short limit (UInt8.ofNat n) (by omega)
    rwa [hb] at this
  · have hle : (octets n).length ≤ limit := octets_length_le_iff.mpr h
    have := @LengthOctets.long limit (UInt8.ofNat (0x80 + (octets n).length)) (octets n)
      (by rw [UInt8.toNat_ofNat']; omega) (octets_length_pos (by omega)) hle
    rwa [beNat_octets] at this

/-- Length octets are prefix-free: in front of a definite length the reader sees that
length and no other. -/
theorem LengthOctets.eq_of_append_eq {l s t : Bytes} {k n : Nat} (h : LengthOctets limit l k)
    (hn : n < 256 ^ 126) (heq : l ++ s = length n ++ t) : k = n ∧ s = t := by
  have hcount : (octets n).length ≤ 126 := octets_length_le_iff.mpr hn
  have hfirst : (UInt8.ofNat (0x80 + (octets n).length)).toNat = 0x80 + (octets n).length := by
    rw [UInt8.toNat_ofNat']
    omega
  rw [length] at heq
  cases h with
  | short b hb =>
      split at heq
      · rename_i hshort
        obtain ⟨rfl, hrest⟩ := List.cons.inj heq
        rw [UInt8.toNat_ofNat', Nat.mod_eq_of_lt (by omega)]
        exact ⟨rfl, hrest⟩
      · obtain ⟨rfl, -⟩ := List.cons.inj heq
        omega
  | long b digits hb hpos hlimit =>
      split at heq
      · rename_i hshort
        obtain ⟨rfl, -⟩ := List.cons.inj heq
        rw [UInt8.toNat_ofNat'] at hb
        omega
      · obtain ⟨rfl, htail⟩ := List.cons.inj heq
        obtain ⟨rfl, hrest⟩ := List.append_inj htail (by omega)
        exact ⟨beNat_octets n, hrest⟩

/-- A length that is read is in the reader's range and takes few octets. -/
theorem LengthOctets.bounds {l : Bytes} {k : Nat} (h : LengthOctets limit l k) (hpos : 0 < limit) :
    k < 256 ^ limit ∧ l.length ≤ 1 + limit := by
  cases h with
  | short b hb =>
      have hone : 256 ^ 1 ≤ 256 ^ limit := Nat.pow_le_pow_right (by decide) hpos
      rw [List.length_singleton]
      omega
  | long b digits hb _ hlimit =>
      rw [List.length_cons]
      have hvalue := beNat_lt digits
      have hrange : 256 ^ digits.length ≤ 256 ^ limit := Nat.pow_le_pow_right (by decide) hlimit
      omega

/-- The reader sees one length in front of any octets. -/
theorem LengthOctets.unique {l l' s s' : Bytes} {k k' : Nat} (h : LengthOctets limit l k)
    (h' : LengthOctets limit l' k') (heq : l ++ s = l' ++ s') : k = k' ∧ s = s' := by
  cases h with
  | short b hb =>
      cases h' with
      | short b' hb' =>
          obtain ⟨rfl, hrest⟩ := List.cons.inj heq
          exact ⟨rfl, hrest⟩
      | long b' digits' hb' hpos' hlimit' =>
          obtain ⟨rfl, -⟩ := List.cons.inj heq
          omega
  | long b digits hb hpos hlimit =>
      cases h' with
      | short b' hb' =>
          obtain ⟨rfl, -⟩ := List.cons.inj heq
          omega
      | long b' digits' hb' hpos' hlimit' =>
          obtain ⟨rfl, htail⟩ := List.cons.inj heq
          obtain ⟨rfl, hrest⟩ := List.append_inj htail (by omega)
          exact ⟨rfl, hrest⟩

end

/-- Triples are prefix-free: tag and contents are determined by the octets they start. -/
theorem tlv_append_inj {t t' : UInt8} {c c' s s' : Bytes} (hc : c.length < 256 ^ 126)
    (hc' : c'.length < 256 ^ 126) (h : tlv t c ++ s = tlv t' c' ++ s') :
    t = t' ∧ c = c' ∧ s = s' := by
  simp only [tlv, List.cons_append, List.append_assoc, List.cons.injEq] at h
  obtain ⟨rfl, h⟩ := h
  have hlength : LengthOctets 126 (length c.length) c.length :=
    lengthOctets_length (by decide) hc
  obtain ⟨hlen, hrest⟩ := hlength.eq_of_append_eq hc' h
  obtain ⟨rfl, rfl⟩ := List.append_inj hrest hlen
  exact ⟨rfl, rfl, rfl⟩

theorem length_le_tlv_length (t : UInt8) (c : Bytes) : c.length ≤ (tlv t c).length := by
  rw [tlv, List.length_cons, List.length_append]
  omega

theorem tlv_inj {t t' : UInt8} {c c' : Bytes} (hlen : (tlv t c).length < 256 ^ 126)
    (h : tlv t c = tlv t' c') : c = c' := by
  have hle := length_le_tlv_length t c
  have hle' := length_le_tlv_length t' c'
  rw [← h] at hle'
  exact (tlv_append_inj (by omega) (by omega) (congrArg (· ++ ([] : Bytes)) h)).2.1

/-- The triples of some tags and contents, one after the other. -/
def tlvs (fields : List (UInt8 × Bytes)) : Bytes := fields.flatMap fun f => tlv f.1 f.2

theorem tlvs_cons (f : UInt8 × Bytes) (fields : List (UInt8 × Bytes)) :
    tlvs (f :: fields) = tlv f.1 f.2 ++ tlvs fields := rfl

/-- Equally many triples are determined by the octets they start. -/
theorem tlvs_append_inj {fields fields' : List (UInt8 × Bytes)} {s s' : Bytes}
    (hshort : (tlvs fields ++ s).length < 256 ^ 126) (h : tlvs fields ++ s = tlvs fields' ++ s')
    (hlen : fields.length = fields'.length) : fields = fields' ∧ s = s' := by
  induction fields generalizing fields' with
  | nil =>
      obtain rfl := List.length_eq_zero_iff.mp hlen.symm
      exact ⟨rfl, h⟩
  | cons f fields ih =>
      cases fields' with
      | nil => cases hlen
      | cons f' fields' =>
          have hlength := congrArg List.length h
          simp only [tlvs_cons, List.append_assoc] at h hshort hlength
          simp only [List.length_append] at hshort hlength
          have hle := length_le_tlv_length f.1 f.2
          have hle' := length_le_tlv_length f'.1 f'.2
          obtain ⟨htag, hcontents, hrest⟩ := tlv_append_inj (by omega) (by omega) h
          obtain ⟨hfields, hs⟩ := ih (by rw [List.length_append]; omega) hrest
            (Nat.succ.inj hlen)
          exact ⟨by rw [Prod.ext htag hcontents, hfields], hs⟩

/-! ## Octets and machine words -/

theorem foldl_shift_eq_beNat (b : Bytes) :
    b.foldl (fun len x => (len <<< 8) ||| x.toNat) 0 = beNat b := by
  rw [beNat]
  congr
  funext len x
  rw [← Nat.shiftLeft_add_eq_or_of_lt x.toNat_lt, Nat.shiftLeft_eq]

theorem and_mask_toNat {b : UInt8} (h : 0x80 ≤ b.toNat) :
    (b &&& 0x7f).toNat = b.toNat - 0x80 := by
  have hb := b.toNat_lt
  have hmask : (b &&& 0x7f).toNat = b.toNat % 2 ^ 7 := by
    rw [UInt8.toNat_and, ← Nat.and_two_pow_sub_one_eq_mod]
    rfl
  omega

theorem or_high_bit_toNat (b : UInt8) : (0x80 ||| b).toNat = 0x80 + b.toNat % 0x80 := by
  have hbits : ∀ n < 256, 0x80 ||| n = 0x80 + n % 0x80 := by decide +kernel
  rw [UInt8.toNat_or]
  exact hbits b.toNat b.toNat_lt

theorem and_high_bit_eq_zero_iff {b : UInt8} : b &&& 0x80 = 0 ↔ b.toNat < 0x80 := by
  have hbits : ∀ n < 256, n &&& 0x80 = 0 ↔ n < 0x80 := by decide +kernel
  rw [← UInt8.toNat_inj, UInt8.toNat_and]
  exact hbits b.toNat b.toNat_lt

/-- One octet shifted into a 32-bit word from below. -/
def shiftIn (result : UInt32) (byte : UInt8) : UInt32 := (result <<< 8) ||| byte.toUInt32

theorem shiftIn_toNat (result : UInt32) (byte : UInt8) :
    (shiftIn result byte).toNat = result.toNat % 2 ^ 24 * 256 + byte.toNat := by
  have hbyte := byte.toNat_lt
  have hshift : (result <<< 8).toNat = (result.toNat % 2 ^ 24) <<< 8 := by
    rw [UInt32.toNat_shiftLeft]
    simp only [Nat.shiftLeft_eq]
    have : (8 : UInt32).toNat % 32 = 8 := rfl
    rw [this]
    omega
  rw [shiftIn, UInt32.toNat_or, hshift, UInt8.toNat_toUInt32,
    ← Nat.shiftLeft_add_eq_or_of_lt hbyte, Nat.shiftLeft_eq]

/-- Octets shifted in are the number they denote, modulo the word. -/
theorem foldl_shiftIn_toNat (b : Bytes) : (b.foldl shiftIn 0).toNat = beNat b % 2 ^ 32 := by
  induction b using List.reverseRecOn with
  | nil => rfl
  | append_singleton b x ih =>
      have hx := x.toNat_lt
      rw [List.foldl_append, List.foldl_cons, List.foldl_nil, shiftIn_toNat, ih,
        beNat_append_singleton]
      omega

theorem foldl_shiftIn_congr {b c : Bytes} (h : beNat b = beNat c) :
    b.foldl shiftIn 0 = c.foldl shiftIn 0 := by
  apply UInt32.toNat_inj.mp
  rw [foldl_shiftIn_toNat, foldl_shiftIn_toNat, h]

theorem foldl_u32be (n : UInt32) : (Bytes.u32be n).foldl shiftIn 0 = n := by
  have hn := n.toNat_lt
  apply UInt32.toNat_inj.mp
  simp only [Bytes.u32be, List.foldl_cons, List.foldl_nil, shiftIn_toNat, UInt8.toNat_ofNat']
  have : (0 : UInt32).toNat = 0 := rfl
  rw [this]
  omega

end Der
