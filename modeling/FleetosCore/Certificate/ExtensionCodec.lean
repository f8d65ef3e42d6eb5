import FleetosCore.Certificate.Delegation

/-!
# Extension writers against extension readers

`role_extension` and `ordinal_extension` of `src/spiffe.rs` build a value, the X.509
library wraps it in an OCTET STRING after the object identifier, and `extract_role` and
`extract_ordinal` find it again in the certificate bytes. The object identifier occurs
nowhere else here, so the scan is not led astray and what is left is a question about
the two codecs.

The writer's length prefix has at most two octets, so it counts modulo 2^16. The
writer's INTEGER has a sign octet from 2^31 on and then five octets, one more than the
reader takes.
-/

namespace Fleetos.Svid

open Der (shiftIn foldl_shiftIn_congr foldl_u32be and_high_bit_eq_zero_iff)
open Text (utf8)

/-! ## One object identifier in the bytes -/

/-- Bytes in which an object identifier occurs once, with `content` behind it as an OCTET
STRING. -/
structure Planted (oid content : Bytes) where
  before : Bytes
  after : Bytes
  /-- A definite length has at most 126 octets. -/
  encodable : content.length < 256 ^ 126
  only : ∀ i, oid <+: (before ++ (oid ++ (Der.tlv 0x04 content ++ after))).drop i →
    i = before.length

namespace Planted

variable {oid content : Bytes} (cert : Planted oid content)

def der : Bytes := cert.before ++ (oid ++ (Der.tlv 0x04 content ++ cert.after))

/-- A lookalike is the planted extension. -/
theorem eq_of_lookalike {i : Nat} {v : Bytes} (h : Lookalike cert.der oid i v) :
    i = cert.before.length ∧ v = content := by
  obtain ⟨pre, critical, l, post, hder, rfl, hcritical, hl⟩ := h
  have hoccurs : oid <+: cert.der.drop pre.length := by
    rw [hder, List.drop_left]
    exact List.prefix_append _ _
  have hplace := cert.only _ hoccurs
  refine ⟨hplace, ?_⟩
  obtain ⟨-, hrest⟩ := List.append_inj (hder.symm.trans (der.eq_1 cert)) hplace
  have hvalue := List.append_cancel_left hrest
  rw [Der.tlv, List.cons_append, List.append_assoc] at hvalue
  cases hcritical with
  | absent =>
      obtain ⟨-, hvalue⟩ := List.cons.inj hvalue
      obtain ⟨hlen, hvalue⟩ := hl.eq_of_append_eq cert.encodable hvalue
      exact (List.append_inj hvalue hlen).1
  | present lc contents hlc =>
      obtain ⟨htag, -⟩ := List.cons.inj hvalue
      cases htag

theorem lookalike_der (hsmall : content.length < 256 ^ 4) :
    Lookalike cert.der oid cert.before.length content := by
  refine ⟨cert.before, [], Der.length content.length, cert.after, ?_, rfl, .absent,
    Der.lengthOctets_length (by decide) hsmall⟩
  simp only [der, Der.tlv, List.cons_append, List.append_assoc, List.nil_append]

/-- A reader that works on the scan's value works on the planted one, as long as it only
accepts values in the range of the scan. -/
theorem bind_findOidExtension_iff {α : Type} {decode : Bytes → Option α} {x : α}
    (hsmall : decode content = some x → content.length < 256 ^ 4) :
    (findOidExtension cert.der oid).bind decode = some x ↔ decode content = some x := by
  rw [Option.bind_eq_some_iff]
  constructor
  · rintro ⟨v, hfind, hdecode⟩
    obtain ⟨i, hfirst⟩ := findOidExtension_eq_some_iff.mp hfind
    rw [← (cert.eq_of_lookalike hfirst.here).2]
    exact hdecode
  · intro hdecode
    refine ⟨content, findOidExtension_eq_some_iff.mpr ⟨cert.before.length, ?_⟩, hdecode⟩
    refine ⟨cert.lookalike_der (hsmall hdecode), fun j hj w hw => ?_⟩
    exact Nat.ne_of_lt hj (cert.eq_of_lookalike hw).1

/-- An object identifier whose first octet occurs nowhere behind it, with its value and
nothing else. -/
def alone {first : UInt8} {oid content : Bytes} (encodable : content.length < 256 ^ 126)
    (hfirst : first ∉ oid ++ Der.tlv 0x04 content) : Planted (first :: oid) content where
  before := []
  after := []
  encodable := encodable
  only := by
    intro i hoccurs
    rw [List.append_nil, List.nil_append, List.cons_append] at hoccurs
    cases i with
    | zero => rfl
    | succ i =>
        rw [List.drop_succ_cons] at hoccurs
        exact absurd (List.mem_of_mem_drop (hoccurs.subset List.mem_cons_self)) hfirst

end Planted

/-! ## Roles -/

/-- The writer's length prefix is read as the length modulo 2^16. -/
theorem lengthOctets_derLenPrefix (len : Nat) :
    Der.LengthOctets 4 (derLenPrefix len) (len % 2 ^ 16) := by
  rw [derLenPrefix]
  split
  · have hbyte : (UInt8.ofNat len).toNat = len % 2 ^ 16 := by
      rw [UInt8.toNat_ofNat']
      omega
    rw [← hbyte]
    exact .short _ (by omega)
  · split
    · have hbyte : Der.beNat [UInt8.ofNat len] = len % 2 ^ 16 := by
        simp only [Der.beNat, List.foldl_cons, List.foldl_nil, UInt8.toNat_ofNat']
        omega
      rw [← hbyte]
      exact .long 0x81 _ rfl (by simp) (by simp)
    · have hbytes : Der.beNat [UInt8.ofNat (len >>> 8), UInt8.ofNat (len &&& 0xFF)] =
          len % 2 ^ 16 := by
        have hlow : len &&& 0xFF = len % 2 ^ 8 := Nat.and_two_pow_sub_one_eq_mod len 8
        simp only [Der.beNat, List.foldl_cons, List.foldl_nil, UInt8.toNat_ofNat',
          Nat.shiftRight_eq_div_pow, hlow]
        omega
      rw [← hbytes]
      exact .long 0x82 _ rfl (by simp) (by simp)

theorem parseDerTlv_roleExtension (role : String) :
    parseDerTlv (roleExtension role).content 0x0C =
      some ((utf8 role).take ((utf8 role).length % 2 ^ 16)) := by
  refine parseDerTlv_eq_some_iff.mpr
    ⟨derLenPrefix (utf8 role).length, (utf8 role).drop ((utf8 role).length % 2 ^ 16), ?_, ?_⟩
  · rw [List.take_append_drop]
    rfl
  · rw [List.length_take, Nat.min_eq_left (Nat.mod_le _ _)]
    exact lengthOctets_derLenPrefix _

/-- A role is decoded from its own value exactly when its length fits the prefix and it
passes the reader's check. -/
theorem decodeRole_roleExtension_iff {role : WorkloadRole} :
    decodeRole (roleExtension role.asStr).content = some role ↔
      (utf8 role.asStr).length < 2 ^ 16 ∧ '\x00' ∉ role.asStr.toList := by
  simp only [decodeRole, parseDerTlv_roleExtension, Option.some_or]
  constructor
  · intro h
    split at h
    · cases h
    · rename_i text htext
      obtain ⟨hrole, hnul⟩ := WorkloadRole.tryFrom_ok_iff.mp (Fallible.toOption_eq_some_iff.mp h)
      have hlength := congrArg List.length (Text.fromUtf8_eq_some_iff.mp htext)
      rw [← hrole, List.length_take] at hlength
      rw [hrole] at hlength ⊢
      exact ⟨by omega, hnul⟩
  · rintro ⟨hshort, hnul⟩
    rw [Nat.mod_eq_of_lt hshort, List.take_length, Text.fromUtf8_utf8]
    exact Fallible.toOption_eq_some_iff.mpr (WorkloadRole.tryFrom_ok_iff.mpr ⟨rfl, hnul⟩)

theorem roleExtension_length_le (role : String) :
    (roleExtension role).content.length ≤ 4 + (utf8 role).length := by
  have hleading : (derLenPrefix (utf8 role).length).length ≤ 3 := by
    rw [derLenPrefix]
    split_ifs <;> simp
  simp only [roleExtension, List.length_cons, List.length_append]
  omega

/-- The scan for a planted role value finds that value. -/
theorem extractRole_der_iff {role : WorkloadRole}
    (cert : Planted roleOidBytes (roleExtension role.asStr).content) :
    extractRole cert.der = some role ↔
      decodeRole (roleExtension role.asStr).content = some role := by
  refine cert.bind_findOidExtension_iff fun hdecode => ?_
  have hshort := (decodeRole_roleExtension_iff.mp hdecode).1
  have hle := roleExtension_length_le role.asStr
  omega

/-- The reader returns the written role exactly when the role has less than 2^16 bytes
and no NUL. -/
theorem extractRole_roleExtension_iff (role : WorkloadRole)
    (cert : Planted roleOidBytes (roleExtension role.asStr).content) :
    extractRole cert.der = some role ↔
      (utf8 role.asStr).length < 2 ^ 16 ∧ '\x00' ∉ role.asStr.toList := by
  rw [extractRole_der_iff, decodeRole_roleExtension_iff]

/-- A role of `n` letters. -/
def Sample.letters (n : Nat) : WorkloadRole := ⟨String.ofList (List.replicate n 'a')⟩

theorem Sample.utf8_letters (n : Nat) : utf8 (letters n).asStr = List.replicate n 0x61 :=
  Text.utf8_ofList_replicate (by decide) n

theorem Sample.accepted_letters (n : Nat) : (letters n).Accepted := by
  rw [WorkloadRole.accepted_iff, letters, String.toList_ofList]
  exact fun hmem => absurd (List.eq_of_mem_replicate hmem) (by decide)

theorem Sample.content_letters (n : Nat) : (roleExtension (letters n).asStr).content =
    0x0C :: (derLenPrefix n ++ List.replicate n 0x61) := by
  simp only [roleExtension, utf8_letters, List.length_replicate]

/-- The letters as the only extension, when no length octet is the first octet of the
object identifier. -/
def Sample.lettersCert (n : Nat) (hlength : (derLenPrefix n).length + n + 1 < 256 ^ 126)
    (hinner : 0x2B ∉ derLenPrefix n)
    (houter : 0x2B ∉ Der.length ((derLenPrefix n).length + n + 1)) :
    Planted roleOidBytes (roleExtension (letters n).asStr).content :=
  .alone (by simpa [content_letters] using hlength) <| by
    have hletters : (0x2B : UInt8) ∉ List.replicate n (0x61 : UInt8) := fun hmem =>
      absurd (List.eq_of_mem_replicate hmem) (by decide)
    simp [Der.tlv, content_letters, hinner, houter, hletters]

/-- A role of 65536 letters is not read back. -/
theorem long_role_not_read_back :
    ¬ ∀ role : WorkloadRole, role.Accepted →
      ∀ cert : Planted roleOidBytes (roleExtension role.asStr).content,
        extractRole cert.der = some role := by
  intro h
  have hread := h (Sample.letters 65536) (Sample.accepted_letters _)
    (Sample.lettersCert _ (by decide +kernel) (by decide +kernel) (by decide +kernel))
  have hshort := (decodeRole_roleExtension_iff.mp ((extractRole_der_iff _).mp hread)).1
  rw [Sample.utf8_letters, List.length_replicate] at hshort
  omega

/-! ## Ordinals -/

/-- What is dropped are zeros, and only in front of a clear sign bit. -/
theorem exists_eq_replicate_append_significant (bytes : Bytes) :
    ∃ n, bytes = List.replicate n 0 ++ significant bytes ∧
      (n ≠ 0 → (significant bytes).headD 0 &&& 0x80 = 0) := by
  induction bytes using significant.induct with
  | case1 a b rest hdrop ih =>
      obtain ⟨n, hbytes, hbit⟩ := ih
      rw [significant, if_pos hdrop]
      refine ⟨n + 1, ?_, fun _ => ?_⟩
      · rw [List.replicate_succ, List.cons_append, ← hbytes, hdrop.1]
      · by_cases hn : n = 0
        · rw [hn, List.replicate_zero, List.nil_append] at hbytes
          rw [← hbytes, List.headD_cons]
          exact hdrop.2
        · exact hbit hn
  | case2 a b rest hkeep => exact ⟨0, by rw [significant, if_neg hkeep]; rfl, nofun⟩
  | case3 bytes hshort => exact ⟨0, by rw [significant.eq_2 bytes hshort]; rfl, nofun⟩

theorem headD_replicate_append {n : Nat} (hn : n ≠ 0) (bytes : Bytes) :
    (List.replicate n 0 ++ bytes).headD 0 = 0 := by
  obtain ⟨n, rfl⟩ := Nat.exists_eq_succ_of_ne_zero hn
  rfl

/-- Dropping redundant zeros keeps the sign bit. -/
theorem headD_significant (bytes : Bytes) :
    (significant bytes).headD 0 &&& 0x80 = bytes.headD 0 &&& 0x80 := by
  obtain ⟨n, hbytes, hbit⟩ := exists_eq_replicate_append_significant bytes
  by_cases hn : n = 0
  · rw [hn, List.replicate_zero, List.nil_append] at hbytes
    rw [← hbytes]
  · rw [hbit hn, hbytes, headD_replicate_append hn]
    rfl

/-- Nothing is dropped in front of a set sign bit. -/
theorem significant_of_high_bit {bytes : Bytes} (h : bytes.headD 0 &&& 0x80 ≠ 0) :
    significant bytes = bytes := by
  obtain ⟨n, hbytes, -⟩ := exists_eq_replicate_append_significant bytes
  by_cases hn : n = 0
  · rw [hn, List.replicate_zero, List.nil_append] at hbytes
    exact hbytes.symm
  · rw [hbytes, headD_replicate_append hn] at h
    exact absurd rfl h

theorem significant_length_le (bytes : Bytes) : (significant bytes).length ≤ bytes.length := by
  obtain ⟨n, hbytes, -⟩ := exists_eq_replicate_append_significant bytes
  have hlength := congrArg List.length hbytes
  rw [List.length_append] at hlength
  omega

theorem foldl_significant (bytes : Bytes) :
    (significant bytes).foldl shiftIn 0 = bytes.foldl shiftIn 0 := by
  obtain ⟨n, hbytes, -⟩ := exists_eq_replicate_append_significant bytes
  refine (foldl_shiftIn_congr ?_).symm
  rw [congrArg Der.beNat hbytes, Der.beNat_replicate_zero_append]

theorem high_bit_u32be_iff {n : UInt32} :
    (Bytes.u32be n).headD 0 &&& 0x80 = 0 ↔ n.toNat < 2 ^ 31 := by
  have hn := n.toNat_lt
  simp only [Bytes.u32be, List.headD_cons, and_high_bit_eq_zero_iff, UInt8.toNat_ofNat']
  omega

/-- The contents octets of the INTEGER written for an ordinal: five from 2^31 on. -/
theorem parseDerTlv_ordinalExtension (n : UInt32) :
    parseDerTlv (ordinalExtension n).content 0x02 =
      some (if n.toNat < 2 ^ 31 then significant (Bytes.u32be n) else 0x00 :: Bytes.u32be n) := by
  have hlen : (significant (Bytes.u32be n)).length ≤ 4 := significant_length_le (Bytes.u32be n)
  have hshort : ∀ bytes : Bytes, bytes.length ≤ 5 →
      Der.LengthOctets 4 [UInt8.ofNat bytes.length] bytes.length := by
    intro bytes hle
    have hbyte : (UInt8.ofNat bytes.length).toNat = bytes.length := by
      rw [UInt8.toNat_ofNat']
      omega
    have := @Der.LengthOctets.short 4 (UInt8.ofNat bytes.length) (by omega)
    rwa [hbyte] at this
  rw [parseDerTlv_eq_some_iff]
  by_cases hsmall : n.toNat < 2 ^ 31
  · have hpad : ¬ (significant (Bytes.u32be n)).headD 0 &&& 0x80 ≠ 0 := by
      rw [headD_significant]
      exact not_not.mpr (high_bit_u32be_iff.mpr hsmall)
    rw [if_pos hsmall]
    refine ⟨_, [], ?_, hshort _ (by omega)⟩
    simp only [ordinalExtension, if_neg hpad]
    simp
  · have hbit : (Bytes.u32be n).headD 0 &&& 0x80 ≠ 0 := fun h =>
      hsmall (high_bit_u32be_iff.mp h)
    have hwhole := significant_of_high_bit hbit
    rw [if_neg hsmall]
    refine ⟨_, [], ?_, hshort _ (by simp)⟩
    simp only [ordinalExtension, hwhole, if_pos hbit]
    simp

theorem decodeOrdinal_ordinalExtension_iff {n : UInt32} :
    decodeOrdinal (ordinalExtension n).content = some n ↔ n.toNat < 2 ^ 31 := by
  rw [decodeOrdinal, parseDerTlv_ordinalExtension]
  by_cases hsmall : n.toNat < 2 ^ 31
  · have hlen : (significant (Bytes.u32be n)).length ≤ 4 := significant_length_le (Bytes.u32be n)
    have hfold := (foldl_significant (Bytes.u32be n)).trans (foldl_u32be n)
    simp only [if_pos hsmall]
    rw [if_neg (Nat.not_lt.mpr hlen)]
    exact iff_of_true (congrArg some hfold) hsmall
  · simp only [if_neg hsmall]
    rw [if_pos (by simp)]
    exact iff_of_false nofun hsmall

theorem ordinalExtension_length_le (n : UInt32) : (ordinalExtension n).content.length ≤ 7 := by
  have hlen : (significant (Bytes.u32be n)).length ≤ 4 := significant_length_le (Bytes.u32be n)
  simp only [ordinalExtension, List.length_cons, List.length_append]
  split
  · simp only [List.length_singleton]
    omega
  · simp only [List.length_nil]
    omega

/-- The scan for a planted ordinal value finds that value. -/
theorem extractOrdinal_der_iff {n : UInt32}
    (cert : Planted ordinalOidBytes (ordinalExtension n).content) :
    extractOrdinal cert.der = some n ↔ decodeOrdinal (ordinalExtension n).content = some n := by
  refine cert.bind_findOidExtension_iff fun _ => ?_
  have hle := ordinalExtension_length_le n
  omega

/-- The reader returns the written ordinal exactly below 2^31. -/
theorem extractOrdinal_ordinalExtension_iff (n : UInt32)
    (cert : Planted ordinalOidBytes (ordinalExtension n).content) :
    extractOrdinal cert.der = some n ↔ n.toNat < 2 ^ 31 := by
  rw [extractOrdinal_der_iff, decodeOrdinal_ordinalExtension_iff]

/-- The first ordinal with a sign octet is not read back. -/
theorem high_ordinal_not_read_back :
    ¬ ∀ (n : UInt32) (cert : Planted ordinalOidBytes (ordinalExtension n).content),
      extractOrdinal cert.der = some n := by
  intro h
  have hread := h 0x80000000 (.alone (by decide +kernel) (by decide +kernel))
  have hsmall := decodeOrdinal_ordinalExtension_iff.mp ((extractOrdinal_der_iff _).mp hread)
  exact absurd hsmall (by decide)

end Fleetos.Svid
