import FleetosCore.Attestation.Tpm.EkPublic
import FleetosCore.Policy.CoreIds

/-!
# Which endorsement keys are told apart

An EK is registered under the fingerprint of its SubjectPublicKeyInfo and used through
the modulus and the exponent field that `parse_rsa_public_key` reads out of it.

The writer tells keys apart: its octets are equal exactly for the same modulus and the
same exponent. No bound on the lengths is needed for that, since what follows a triple
is always short, and so two length fields that start alike have equally many octets.

The reader does not. It shifts the exponent into a 32-bit word whatever its length, and
uses 0 for the default exponent without refusing a written 0.
-/

namespace Fleetos.Tpm

open Der (beNat octets)

/-! ## What is written -/

/-- A triple as `rsa_public_to_spki` writes it. -/
def wrapped (tag : UInt8) (contents : Bytes) : Bytes :=
  tag :: (derLen contents.length ++ contents)

theorem derSeq_eq_wrapped (body : Bytes) : derSeq body = wrapped 0x30 body := rfl

theorem derBitstring_eq_wrapped (body : Bytes) :
    derBitstring body = wrapped 0x03 (0x00 :: body) := rfl

theorem derInteger_eq_wrapped (v : Bytes) : derInteger v = wrapped 0x02 (integerOctets v) := rfl

theorem derLen_length_le (n : Nat) : (derLen n).length ≤ 1 + (octets n).length := by
  rw [derLen]
  split
  · simp
  · rw [List.length_cons]
    omega

theorem octets_length_le_derLen (n : Nat) : (octets n).length ≤ (derLen n).length := by
  rw [derLen]
  split
  · rename_i hshort
    have hone : n < 256 ^ 1 := by omega
    exact Der.octets_length_le_iff.mpr hone
  · simp

/-- Two triples in front of octets of about the same number have length fields of about
the same number of octets. -/
theorem octets_length_lt {n n' x x' : Nat}
    (h : (derLen n).length + n + x = (derLen n').length + n' + x') (hx : x' < x + 0x80) :
    (octets n).length < (octets n').length + 0x80 := by
  have hle := octets_length_le_derLen n
  have hle' := derLen_length_le n'
  by_cases hn : n ≤ n'
  · have hmono := Der.octets_length_mono hn
    omega
  · omega

/-- Length fields are prefix-free as far as their numbers of octets are close. -/
theorem derLen_append_inj {n n' : Nat} {s s' : Bytes} (h : derLen n ++ s = derLen n' ++ s')
    (hclose : (octets n).length < (octets n').length + 0x80)
    (hclose' : (octets n').length < (octets n).length + 0x80) : n = n' ∧ s = s' := by
  have hshort : ∀ {k}, k < 0x80 → (UInt8.ofNat k).toNat = k := fun hk => by
    rw [UInt8.toNat_ofNat', Nat.mod_eq_of_lt (by omega)]
  rw [derLen, derLen] at h
  split at h
  · rename_i hn
    split at h
    · rename_i hn'
      obtain ⟨hfirst, hrest⟩ := List.cons.inj h
      have hvalue := congrArg UInt8.toNat hfirst
      rw [hshort hn, hshort hn'] at hvalue
      exact ⟨hvalue, hrest⟩
    · have hvalue := congrArg UInt8.toNat (List.cons.inj h).1
      rw [hshort hn, Der.or_high_bit_toNat] at hvalue
      omega
  · split at h
    · rename_i hn'
      have hvalue := congrArg UInt8.toNat (List.cons.inj h).1
      rw [hshort hn', Der.or_high_bit_toNat] at hvalue
      omega
    · obtain ⟨hfirst, hrest⟩ := List.cons.inj h
      have hvalue := congrArg UInt8.toNat hfirst
      rw [Der.or_high_bit_toNat, Der.or_high_bit_toNat, UInt8.toNat_ofNat',
        UInt8.toNat_ofNat'] at hvalue
      obtain ⟨hoctets, hs⟩ := List.append_inj hrest (by omega)
      have hn := congrArg beNat hoctets
      rw [Der.beNat_octets, Der.beNat_octets] at hn
      exact ⟨hn, hs⟩

/-- A triple is determined by the octets it starts when little follows it. -/
theorem wrapped_append_inj {tag : UInt8} {c c' s s' : Bytes}
    (h : wrapped tag c ++ s = wrapped tag c' ++ s') (hs : s.length < 0x80)
    (hs' : s'.length < 0x80) : c = c' ∧ s = s' := by
  have hrest : derLen c.length ++ (c ++ s) = derLen c'.length ++ (c' ++ s') := by
    rw [← List.append_assoc, ← List.append_assoc]
    exact (List.cons.inj h).2
  have hlength := congrArg List.length hrest
  simp only [List.length_append, ← Nat.add_assoc] at hlength
  obtain ⟨hc, hparts⟩ := derLen_append_inj hrest (octets_length_lt hlength (by omega))
    (octets_length_lt hlength.symm (by omega))
  exact List.append_inj hparts hc

theorem wrapped_inj {tag : UInt8} {c c' : Bytes} (h : wrapped tag c = wrapped tag c') :
    c = c' :=
  (wrapped_append_inj (congrArg (· ++ ([] : Bytes)) h) (by decide) (by decide)).1

theorem stripZeros_length_le {v : Bytes} (h : v ≠ []) : (stripZeros v).length ≤ v.length := by
  obtain ⟨⟨n, hv⟩, -⟩ := withoutLeadingZeros_stripZeros h
  have hlength := congrArg List.length hv
  rw [List.length_append] at hlength
  omega

theorem derInteger_u32be_length_lt (e : UInt32) :
    (derInteger (Bytes.u32be e)).length < 0x80 := by
  have hstripped : (stripZeros (Bytes.u32be e)).length ≤ 4 :=
    stripZeros_length_le (List.cons_ne_nil _ _)
  have hbody : (integerOctets (Bytes.u32be e)).length ≤ 5 := by
    rw [integerOctets, List.length_append]
    split
    · rw [List.length_singleton]
      omega
    · rw [List.length_nil]
      omega
  have hlen := derLen_length_le (integerOctets (Bytes.u32be e)).length
  have hoctets : (octets (integerOctets (Bytes.u32be e)).length).length ≤ 1 :=
    Der.octets_length_le_iff.mpr (by omega)
  have hwhole : (derInteger (Bytes.u32be e)).length =
      (derLen (integerOctets (Bytes.u32be e)).length).length +
        (integerOctets (Bytes.u32be e)).length + 1 := by
    rw [← List.length_append]
    rfl
  omega

/-- The stripped octets are those of the number, or one zero. -/
theorem stripZeros_eq {v : Bytes} (h : v ≠ []) :
    stripZeros v = if beNat v = 0 then [0] else octets (beNat v) := by
  obtain ⟨⟨n, hv⟩, hfirst⟩ := withoutLeadingZeros_stripZeros h
  have hvalue : beNat v = beNat (stripZeros v) := by
    rw [congrArg beNat hv, Der.beNat_replicate_zero_append]
  rw [hvalue]
  rcases hfirst with hzero | ⟨b, rest, hstripped, hb⟩
  · rw [hzero]
    rfl
  · have hoctets : octets (beNat (b :: rest)) = b :: rest := Der.octets_beNat hb
    rw [hstripped, hoctets]
    split
    · rename_i hnull
      rw [hnull] at hoctets
      cases hoctets
    · rfl

theorem integerOctets_eq_iff {v v' : Bytes} (h : v ≠ []) (h' : v' ≠ []) :
    integerOctets v = integerOctets v' ↔ beNat v = beNat v' := by
  constructor
  · intro heq
    rw [← beNat_integerOctets h, heq, beNat_integerOctets h']
  · intro hvalue
    rw [integerOctets, integerOctets, stripZeros_eq h, stripZeros_eq h', hvalue]

/-- The written octets determine the modulus and the exponent. -/
theorem rsaPublicToSpki_inj {m m' : Bytes} {e e' : UInt32}
    (h : rsaPublicToSpki m e = rsaPublicToSpki m' e') :
    integerOctets m = integerOctets m' ∧
      integerOctets (Bytes.u32be e) = integerOctets (Bytes.u32be e') := by
  simp only [rsaPublicToSpki, derSeq_eq_wrapped, derBitstring_eq_wrapped] at h
  have hbits := wrapped_inj (List.append_cancel_left (wrapped_inj h))
  have hkey := wrapped_inj (List.cons.inj hbits).2
  rw [derInteger_eq_wrapped m, derInteger_eq_wrapped m'] at hkey
  obtain ⟨hmodulus, hexponent⟩ := wrapped_append_inj hkey
    (derInteger_u32be_length_lt e) (derInteger_u32be_length_lt e')
  exact ⟨hmodulus, wrapped_inj hexponent⟩

theorem rsaPublicToSpki_eq_iff {m m' : Bytes} {e e' : UInt32} (h : m ≠ []) (h' : m' ≠ []) :
    rsaPublicToSpki m e = rsaPublicToSpki m' e' ↔ beNat m = beNat m' ∧ e = e' := by
  constructor
  · intro hspki
    obtain ⟨hmodulus, hexponent⟩ := rsaPublicToSpki_inj hspki
    have hne : ∀ n, Bytes.u32be n ≠ [] := fun n => List.cons_ne_nil _ _
    have hfold := Der.foldl_shiftIn_congr ((integerOctets_eq_iff (hne e) (hne e')).mp hexponent)
    rw [Der.foldl_u32be, Der.foldl_u32be] at hfold
    exact ⟨(integerOctets_eq_iff h h').mp hmodulus, hfold⟩
  · rintro ⟨hmodulus, rfl⟩
    have hinteger : derInteger m = derInteger m' :=
      congrArg (wrapped 0x02) ((integerOctets_eq_iff h h').mpr hmodulus)
    rw [rsaPublicToSpki, rsaPublicToSpki, hinteger]

/-- One EK, one SubjectPublicKeyInfo: two encodings are equal exactly when the moduli are
the same number and the exponents are the same, and so are the bytes that the EK
fingerprint hashes. Zeros in front of a modulus do not matter. -/
theorem spki_determines_ek (m₁ m₂ : Bytes) (e₁ e₂ : UInt32) (h₁ : m₁ ≠ []) (h₂ : m₂ ≠ []) :
    (rsaPublicToSpki m₁ e₁ = rsaPublicToSpki m₂ e₂ ↔ beNat m₁ = beNat m₂ ∧ e₁ = e₂) ∧
    (EkFingerprint.fedBytes (rsaPublicToSpki m₁ e₁) =
        EkFingerprint.fedBytes (rsaPublicToSpki m₂ e₂) ↔ beNat m₁ = beNat m₂ ∧ e₁ = e₂) ∧
    ∀ n, EkFingerprint.fedBytes (rsaPublicToSpki (List.replicate n 0 ++ m₁) e₁) =
      EkFingerprint.fedBytes (rsaPublicToSpki m₁ e₁) := by
  have hkeys : rsaPublicToSpki m₁ e₁ = rsaPublicToSpki m₂ e₂ ↔ beNat m₁ = beNat m₂ ∧ e₁ = e₂ :=
    rsaPublicToSpki_eq_iff h₁ h₂
  refine ⟨hkeys, ?_, fun n => ?_⟩
  · rw [← hkeys, EkFingerprint.fedBytes, EkFingerprint.fedBytes]
    exact List.append_right_inj _
  · have hne : List.replicate n 0 ++ m₁ ≠ [] := List.append_ne_nil_of_right_ne_nil _ h₁
    rw [(rsaPublicToSpki_eq_iff hne h₁).mpr ⟨Der.beNat_replicate_zero_append n m₁, rfl⟩]

/-- A modulus with a zero in front and the same without, and two exponents. -/
theorem spki_of_padded_modulus :
    rsaPublicToSpki [0x00, 0xC5] 65537 = rsaPublicToSpki [0xC5] 65537 ∧
      rsaPublicToSpki [0x00, 0xC5] 65537 ≠ rsaPublicToSpki [0xC5] 3 := by
  have hsame := spki_determines_ek [0x00, 0xC5] [0xC5] 65537 65537 (by decide) (by decide)
  have hother := spki_determines_ek [0x00, 0xC5] [0xC5] 65537 3 (by decide) (by decide)
  refine ⟨hsame.1.mpr ⟨by decide, rfl⟩, fun heq => ?_⟩
  exact absurd (hother.1.mp heq).2 (by decide)

/-! ## What is read -/

/-- The octets of the two INTEGERs of an RSAPublicKey. -/
def ContainsKey (der modulus expBytes : Bytes) : Prop :=
  ∃ seq n tail l after l' rest, der = 0x30 :: (seq ++ tail) ∧ Der.LengthOctets 4 seq n ∧
    AnnouncesInteger tail l modulus.length (modulus ++ after) ∧
    AnnouncesInteger after l' expBytes.length (expBytes ++ rest)

theorem AnnouncesInteger.unique {bytes l l' rest rest' : Bytes} {len len' : Nat}
    (h : AnnouncesInteger bytes l len rest) (h' : AnnouncesInteger bytes l' len' rest') :
    len = len' ∧ rest = rest' := by
  obtain ⟨hbytes, hlen⟩ := h
  obtain ⟨hbytes', hlen'⟩ := h'
  exact hlen.unique hlen' (List.cons.inj (hbytes.symm.trans hbytes')).2

theorem ContainsKey.unique {der m e m' e' : Bytes} (h : ContainsKey der m e)
    (h' : ContainsKey der m' e') : m = m' ∧ e = e' := by
  obtain ⟨seq, n, tail, l, after, l₂, rest, rfl, hseq, hmodulus, hexponent⟩ := h
  obtain ⟨seq', n', tail', l', after', l₂', rest', hder, hseq', hmodulus', hexponent'⟩ := h'
  obtain ⟨-, rfl⟩ := hseq.unique hseq' (List.cons.inj hder).2
  obtain ⟨hm, hafter⟩ := hmodulus.unique hmodulus'
  obtain ⟨rfl, rfl⟩ := List.append_inj hafter hm
  obtain ⟨he, hrest⟩ := hexponent.unique hexponent'
  exact ⟨rfl, (List.append_inj hrest he).1⟩

/-- The walk accepts exactly the octets that contain a key, whatever follows it. -/
theorem parseRsaPublicKey_ok_iff {der : Bytes} {key : Bytes × UInt32} :
    parseRsaPublicKey der = .ok key ↔
      ∃ m e, ContainsKey der m e ∧ key = (stripSign m, exponentField e) := by
  constructor
  · intro hok
    by_cases hsequence : ∃ seq n tail, der = 0x30 :: (seq ++ tail) ∧ Der.LengthOctets 4 seq n
    · obtain ⟨seq, n, tail, rfl, hseq⟩ := hsequence
      have hsteps := hok
      rw [parseRsaPublicKey_of_sequence hseq, Fallible.bind_ok_iff] at hsteps
      obtain ⟨⟨m, offset⟩, hfirst, -⟩ := hsteps
      obtain ⟨l, after, hmodulus⟩ := announced_of_integerAt hfirst
      -- the rest of the walk, seen from behind the modulus
      obtain ⟨before, heq⟩ := parseRsaPublicKey_of_modulus hseq hmodulus
      rw [heq, Fallible.bind_ok_iff] at hok
      obtain ⟨⟨e, _⟩, hsecond, hkey⟩ := hok
      obtain ⟨l', rest, hexponent⟩ := announced_of_integerAt hsecond
      exact ⟨m, e, ⟨seq, n, tail, l, after, l', rest, rfl, hseq, hmodulus, hexponent⟩,
        (Except.ok.inj hkey).symm⟩
    · simp only [not_exists, not_and] at hsequence
      obtain ⟨e, he⟩ := parseRsaPublicKey_refused hsequence
      rw [he] at hok
      cases hok
  · rintro ⟨m, e, ⟨seq, n, tail, l, after, l', rest, rfl, hseq, hmodulus, hexponent⟩, rfl⟩
    obtain ⟨before, heq⟩ := parseRsaPublicKey_of_modulus hseq hmodulus
    rw [heq, integerAt_of_announced hexponent, if_pos (by simp), List.take_left]
    rfl

/-- One sign octet more or less does not change the number. -/
theorem beNat_stripSign (modulus : Bytes) : beNat (stripSign modulus) = beNat modulus := by
  rw [stripSign]
  split
  · rename_i hsign
    cases modulus with
    | nil => rfl
    | cons b rest =>
        obtain rfl : b = 0 := hsign.2
        exact (Der.beNat_replicate_zero_append 1 rest).symm
  · rfl

/-- Different exponents with the same exponent field: the same in the low 32 bits, or the
default exponent there and zero. -/
def Conflated (n n' : Nat) : Prop :=
  n ≠ n' ∧ (n % 2 ^ 32 = n' % 2 ^ 32 ∨ (n % 2 ^ 32 = 0 ∧ n' % 2 ^ 32 = 65537) ∨
    (n % 2 ^ 32 = 65537 ∧ n' % 2 ^ 32 = 0))

theorem exponentField_toNat (e : Bytes) :
    (exponentField e).toNat =
      if beNat e % 2 ^ 32 = 65537 then 0 else beNat e % 2 ^ 32 := by
  have hfold := Der.foldl_shiftIn_toNat e
  have hdefault : e.foldl Der.shiftIn 0 = 65537 ↔ beNat e % 2 ^ 32 = 65537 := by
    rw [← UInt32.toNat_inj, hfold]
    rfl
  have hfield : exponentField e =
      if e.foldl Der.shiftIn 0 = 65537 then 0 else e.foldl Der.shiftIn 0 := rfl
  rw [hfield]
  split
  · rename_i hexp
    rw [if_pos (hdefault.mp hexp)]
    rfl
  · rename_i hexp
    rw [if_neg fun hvalue => hexp (hdefault.mpr hvalue), hfold]

theorem exponentField_eq_iff {e e' : Bytes} :
    exponentField e = exponentField e' ↔
      beNat e = beNat e' ∨ Conflated (beNat e) (beNat e') := by
  rw [← UInt32.toNat_inj, exponentField_toNat, exponentField_toNat, Conflated]
  split
  · split
    · omega
    · omega
  · split
    · omega
    · omega

/-- Two accepted keys with the same result contain the same two numbers. -/
def ToldApart (der₁ der₂ : Bytes) : Prop :=
  ∀ key, parseRsaPublicKey der₁ = .ok key → parseRsaPublicKey der₂ = .ok key →
    ∃ m₁ e₁ m₂ e₂, ContainsKey der₁ m₁ e₁ ∧ ContainsKey der₂ m₂ e₂ ∧
      beNat e₁ = beNat e₂ ∧ beNat m₁ = beNat m₂

/-- The reader conflates keys with the same modulus, up to a sign octet, and exponents
that differ above the low 32 bits or are the default one and zero there, and no others. -/
theorem toldApart_iff (der₁ der₂ : Bytes) :
    ToldApart der₁ der₂ ↔
      ∀ m₁ e₁ m₂ e₂, ContainsKey der₁ m₁ e₁ → ContainsKey der₂ m₂ e₂ →
        stripSign m₁ = stripSign m₂ → ¬ Conflated (beNat e₁) (beNat e₂) := by
  constructor
  · intro h m₁ e₁ m₂ e₂ hkey₁ hkey₂ hmodulus hconflated
    have hfield := exponentField_eq_iff.mpr (.inr hconflated)
    obtain ⟨m₁', e₁', m₂', e₂', hkey₁', hkey₂', hexponent, -⟩ := h (stripSign m₁, exponentField e₁)
      (parseRsaPublicKey_ok_iff.mpr ⟨m₁, e₁, hkey₁, rfl⟩)
      (parseRsaPublicKey_ok_iff.mpr ⟨m₂, e₂, hkey₂, by rw [hmodulus, hfield]⟩)
    rw [← (hkey₁.unique hkey₁').2, ← (hkey₂.unique hkey₂').2] at hexponent
    exact hconflated.1 hexponent
  · intro h key hok₁ hok₂
    obtain ⟨m₁, e₁, hkey₁, rfl⟩ := parseRsaPublicKey_ok_iff.mp hok₁
    obtain ⟨m₂, e₂, hkey₂, hsame⟩ := parseRsaPublicKey_ok_iff.mp hok₂
    obtain ⟨hmodulus, hfield⟩ := Prod.mk.inj hsame
    refine ⟨m₁, e₁, m₂, e₂, hkey₁, hkey₂, ?_, ?_⟩
    · rcases exponentField_eq_iff.mp hfield with hexponent | hconflated
      · exact hexponent
      · exact absurd hconflated (h m₁ e₁ m₂ e₂ hkey₁ hkey₂ hmodulus)
    · rw [← beNat_stripSign m₁, hmodulus, beNat_stripSign]

/-- An exponent of 3, and one of 2^32 + 3, behind the same modulus. -/
theorem long_exponent_conflated : ¬ ∀ der₁ der₂ : Bytes, ToldApart der₁ der₂ := by
  intro h
  obtain ⟨m₁, e₁, m₂, e₂, hkey₁, hkey₂, hexponent, -⟩ :=
    h [0x30, 0x06, 0x02, 0x01, 0x65, 0x02, 0x01, 0x03]
      [0x30, 0x0A, 0x02, 0x01, 0x65, 0x02, 0x05, 0x01, 0x00, 0x00, 0x00, 0x03]
      ([0x65], 3) (by decide) (by decide)
  have hshort : ContainsKey [0x30, 0x06, 0x02, 0x01, 0x65, 0x02, 0x01, 0x03] [0x65] [0x03] :=
    ⟨[0x06], 6, _, [0x01], _, [0x01], [], rfl, .short 0x06 (by decide),
      ⟨rfl, .short 0x01 (by decide)⟩, ⟨rfl, .short 0x01 (by decide)⟩⟩
  have hlong : ContainsKey
      [0x30, 0x0A, 0x02, 0x01, 0x65, 0x02, 0x05, 0x01, 0x00, 0x00, 0x00, 0x03] [0x65]
      [0x01, 0x00, 0x00, 0x00, 0x03] :=
    ⟨[0x0A], 10, _, [0x01], _, [0x05], [], rfl, .short 0x0A (by decide),
      ⟨rfl, .short 0x01 (by decide)⟩, ⟨rfl, .short 0x05 (by decide)⟩⟩
  rw [(hkey₁.unique hshort).2, (hkey₂.unique hlong).2] at hexponent
  exact absurd hexponent (by decide)

end Fleetos.Tpm
