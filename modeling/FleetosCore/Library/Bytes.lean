import Mathlib.Algebra.Group.Nat.Defs
import Mathlib.Data.List.Basic

/-!
# Byte strings and fixed-width integers

A byte string is an ordinary list of octets. Integers of two octets are in network order,
most significant first, those of eight least significant first, and those of four are
there in both orders. All are over the full range of the machine type, so that encoding
and decoding are mutually inverse without a side condition.

The second half is about separators. A field that does not contain the separator
is determined by the bytes up to the first separator, and a last field that does
not contain it is determined by the bytes after the last one. Layouts that join
fields with a separator are decoded with these two rules only.
-/

abbrev Bytes : Type := List UInt8

namespace Bytes

/-- Two octets, most significant first. -/
def u16be (n : UInt16) : Bytes :=
  [UInt8.ofNat (n.toNat / 256), UInt8.ofNat n.toNat]

/-- The integer denoted by two octets, most significant first. -/
def readU16 (a b : UInt8) : UInt16 := UInt16.ofNat (a.toNat * 256 + b.toNat)

/-- Four octets, most significant first. -/
def u32be (n : UInt32) : Bytes :=
  [UInt8.ofNat (n.toNat / 2 ^ 24), UInt8.ofNat (n.toNat / 2 ^ 16),
    UInt8.ofNat (n.toNat / 2 ^ 8), UInt8.ofNat n.toNat]

/-- The integer denoted by four octets, most significant first. -/
def readU32 (a b c d : UInt8) : UInt32 :=
  UInt32.ofNat (a.toNat * 2 ^ 24 + b.toNat * 2 ^ 16 + c.toNat * 2 ^ 8 + d.toNat)

/-- Four octets, least significant first. -/
def u32le (n : UInt32) : Bytes :=
  [UInt8.ofNat n.toNat, UInt8.ofNat (n.toNat / 2 ^ 8), UInt8.ofNat (n.toNat / 2 ^ 16),
    UInt8.ofNat (n.toNat / 2 ^ 24)]

/-- Eight octets, least significant first. -/
def u64le (n : UInt64) : Bytes :=
  [UInt8.ofNat n.toNat, UInt8.ofNat (n.toNat / 2 ^ 8), UInt8.ofNat (n.toNat / 2 ^ 16),
    UInt8.ofNat (n.toNat / 2 ^ 24), UInt8.ofNat (n.toNat / 2 ^ 32),
    UInt8.ofNat (n.toNat / 2 ^ 40), UInt8.ofNat (n.toNat / 2 ^ 48),
    UInt8.ofNat (n.toNat / 2 ^ 56)]

@[simp] theorem u16be_length (n : UInt16) : (u16be n).length = 2 := rfl

@[simp] theorem u32be_length (n : UInt32) : (u32be n).length = 4 := rfl

@[simp] theorem u32le_length (n : UInt32) : (u32le n).length = 4 := rfl

@[simp] theorem u64le_length (n : UInt64) : (u64le n).length = 8 := rfl

theorem readU16_toNat (a b : UInt8) : (readU16 a b).toNat = a.toNat * 256 + b.toNat := by
  have ha := a.toNat_lt
  have hb := b.toNat_lt
  simp only [readU16, UInt16.toNat_ofNat']
  omega

theorem readU32_toNat (a b c d : UInt8) :
    (readU32 a b c d).toNat =
      a.toNat * 2 ^ 24 + b.toNat * 2 ^ 16 + c.toNat * 2 ^ 8 + d.toNat := by
  have ha := a.toNat_lt
  have hb := b.toNat_lt
  have hc := c.toNat_lt
  have hd := d.toNat_lt
  simp only [readU32, UInt32.toNat_ofNat']
  omega

@[simp] theorem u16be_readU16 (a b : UInt8) : u16be (readU16 a b) = [a, b] := by
  have ha := a.toNat_lt
  have hb := b.toNat_lt
  simp only [u16be, readU16_toNat, List.cons.injEq, and_true]
  constructor <;> apply UInt8.toNat_inj.mp <;> simp only [UInt8.toNat_ofNat'] <;> omega

@[simp] theorem u32be_readU32 (a b c d : UInt8) : u32be (readU32 a b c d) = [a, b, c, d] := by
  have ha := a.toNat_lt
  have hb := b.toNat_lt
  have hc := c.toNat_lt
  have hd := d.toNat_lt
  simp only [u32be, readU32_toNat, List.cons.injEq, and_true]
  refine ⟨?_, ?_, ?_, ?_⟩ <;> apply UInt8.toNat_inj.mp <;>
    simp only [UInt8.toNat_ofNat'] <;> omega

theorem u16be_injective {m n : UInt16} (h : u16be m = u16be n) : m = n := by
  simp only [u16be, List.cons.injEq, and_true] at h
  have hhi := congrArg UInt8.toNat h.1
  have hlo := congrArg UInt8.toNat h.2
  have hm := m.toNat_lt
  have hn := n.toNat_lt
  simp only [UInt8.toNat_ofNat'] at hhi hlo
  apply UInt16.toNat_inj.mp
  omega

/-- Four octets of a number, least significant first, determine it below 2^32. -/
theorem mod_eq_of_octets {m n : Nat} (h0 : UInt8.ofNat m = UInt8.ofNat n)
    (h1 : UInt8.ofNat (m / 2 ^ 8) = UInt8.ofNat (n / 2 ^ 8))
    (h2 : UInt8.ofNat (m / 2 ^ 16) = UInt8.ofNat (n / 2 ^ 16))
    (h3 : UInt8.ofNat (m / 2 ^ 24) = UInt8.ofNat (n / 2 ^ 24)) : m % 2 ^ 32 = n % 2 ^ 32 := by
  simp only [← UInt8.toNat_inj, UInt8.toNat_ofNat'] at h0 h1 h2 h3
  omega

theorem u32be_injective {m n : UInt32} (h : u32be m = u32be n) : m = n := by
  simp only [u32be, List.cons.injEq, and_true] at h
  obtain ⟨h3, h2, h1, h0⟩ := h
  have hmod := mod_eq_of_octets h0 h1 h2 h3
  rw [Nat.mod_eq_of_lt m.toNat_lt, Nat.mod_eq_of_lt n.toNat_lt] at hmod
  exact UInt32.toNat_inj.mp hmod

theorem u32le_injective {m n : UInt32} (h : u32le m = u32le n) : m = n :=
  u32be_injective (congrArg List.reverse h)

theorem u64le_injective {m n : UInt64} (h : u64le m = u64le n) : m = n := by
  simp only [u64le, List.cons.injEq, and_true] at h
  obtain ⟨h0, h1, h2, h3, h4, h5, h6, h7⟩ := h
  have hlow : m.toNat % 2 ^ 32 = n.toNat % 2 ^ 32 := mod_eq_of_octets h0 h1 h2 h3
  have hhigh : m.toNat / 2 ^ 32 % 2 ^ 32 = n.toNat / 2 ^ 32 % 2 ^ 32 := by
    apply mod_eq_of_octets h4
    · rwa [Nat.div_div_eq_div_mul, Nat.div_div_eq_div_mul]
    · rwa [Nat.div_div_eq_div_mul, Nat.div_div_eq_div_mul]
    · rwa [Nat.div_div_eq_div_mul, Nat.div_div_eq_div_mul]
  have hm := m.toNat_lt
  have hn := n.toNat_lt
  apply UInt64.toNat_inj.mp
  omega

/-- Two octets are a big-endian integer exactly when they are its encoding. -/
theorem readU16_eq_iff {a b : UInt8} {n : UInt16} : readU16 a b = n ↔ [a, b] = u16be n := by
  constructor
  · rintro rfl
    exact (u16be_readU16 a b).symm
  · intro h
    exact u16be_injective ((u16be_readU16 a b).trans h)

theorem readU32_eq_iff {a b c d : UInt8} {n : UInt32} :
    readU32 a b c d = n ↔ [a, b, c, d] = u32be n := by
  constructor
  · rintro rfl
    exact (u32be_readU32 a b c d).symm
  · intro h
    exact u32be_injective ((u32be_readU32 a b c d).trans h)

/-- A two-octet length followed by that many octets. -/
def sized16 (b : Bytes) : Bytes := u16be (UInt16.ofNat b.length) ++ b

theorem ofNat_length_toNat {b : Bytes} (hb : b.length < 2 ^ 16) :
    (UInt16.ofNat b.length).toNat = b.length := by
  rw [UInt16.toNat_ofNat']
  exact Nat.mod_eq_of_lt hb

/-- A length-prefixed field is determined by the bytes it starts. -/
theorem sized16_inj {b c s t : Bytes} (hb : b.length < 2 ^ 16) (hc : c.length < 2 ^ 16)
    (h : sized16 b ++ s = sized16 c ++ t) : b = c ∧ s = t := by
  simp only [sized16, List.append_assoc] at h
  obtain ⟨hlead, hrest⟩ := List.append_inj h (by simp)
  have hlen : b.length = c.length := by
    have := congrArg UInt16.toNat (u16be_injective hlead)
    rwa [ofNat_length_toNat hb, ofNat_length_toNat hc] at this
  exact List.append_inj hrest hlen

section Separator

variable {α : Type} {sep : α}

/-- A first field free of the separator ends at the first separator. -/
theorem field_inj {x y s t : List α} (hx : sep ∉ x) (hy : sep ∉ y)
    (h : x ++ sep :: s = y ++ sep :: t) : x = y ∧ s = t := by
  induction x generalizing y with
  | nil =>
      cases y with
      | nil => exact ⟨rfl, (List.cons.inj h).2⟩
      | cons b y =>
          have : sep = b := (List.cons.inj h).1
          exact absurd (this ▸ List.mem_cons_self) hy
  | cons a x ih =>
      cases y with
      | nil =>
          have : a = sep := (List.cons.inj h).1
          exact absurd (this ▸ List.mem_cons_self) hx
      | cons b y =>
          obtain ⟨hab, htail⟩ := List.cons.inj h
          obtain ⟨hxy, hst⟩ :=
            ih (fun hm => hx (List.mem_cons_of_mem _ hm))
              (fun hm => hy (List.mem_cons_of_mem _ hm)) htail
          exact ⟨by rw [hab, hxy], hst⟩

/-- A last field free of the separator starts after the last separator. -/
theorem last_field_inj {x y s t : List α} (hs : sep ∉ s) (ht : sep ∉ t)
    (h : x ++ sep :: s = y ++ sep :: t) : x = y ∧ s = t := by
  have hrev : s.reverse ++ sep :: x.reverse = t.reverse ++ sep :: y.reverse := by
    simpa using congrArg List.reverse h
  obtain ⟨hst, hxy⟩ :=
    field_inj (by simpa using hs) (by simpa using ht) hrev
  exact ⟨List.reverse_injective hxy, List.reverse_injective hst⟩

/-- Text free of the separator in front of a layout lies inside its first field. -/
theorem prefix_of_append_eq {p x s t : List α} (hp : sep ∉ p) (h : x ++ sep :: s = p ++ t) :
    p <+: x := by
  rcases List.append_eq_append_iff.mp h with ⟨rest, rfl, hrest⟩ | ⟨rest, rfl, -⟩
  · cases rest with
    | nil => simp
    | cons b rest =>
        obtain ⟨rfl, -⟩ := List.cons.inj hrest
        exact absurd (List.mem_append_right _ List.mem_cons_self) hp
  · exact List.prefix_append _ _

end Separator

end Bytes
