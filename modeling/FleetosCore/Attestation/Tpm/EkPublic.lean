import FleetosCore.Attestation.Tpm.Manager
import FleetosCore.Certificate.Reader

/-!
# The endorsement key between node and server

A node sends its EK as the SubjectPublicKeyInfo that `rsa_public_to_spki` writes. The
server takes it apart again with `parse_rsa_public_key` of `src/attestation/tpm.rs`,
which walks the RSAPublicKey by a running offset. An index or a slice outside the bytes
panics, and a panic is an outcome of its own here.

Tags are looked for only behind a length test, and lengths are cut off only with an
error. The contents of the two INTEGERs are sliced under their announced length without
a test, so these two lengths decide whether the walk returns.
-/

namespace Fleetos.Tpm

/-- A returned error, or a panic. -/
inductive EkFailure where
  | err (e : TssError)
  | panic
  deriving DecidableEq, Repr

/-- `der[i]`. -/
def index (der : Bytes) (i : Nat) : Except EkFailure UInt8 :=
  match der[i]? with
  | some b => pure b
  | none => throw .panic

/-- `&der[start..]`. -/
def sliceFrom (der : Bytes) (start : Nat) : Except EkFailure Bytes :=
  if der.length < start then throw .panic else pure (der.drop start)

/-- `&der[start..stop]`. -/
def slice (der : Bytes) (start stop : Nat) : Except EkFailure Bytes :=
  if stop < start ∨ der.length < stop then throw .panic
  else pure ((der.drop start).take (stop - start))

/-- The length and the number of octets it took. -/
def parseDerLength (bytes : Bytes) : Except EkFailure (Nat × Nat) := do
  if bytes.isEmpty then throw (.err (.invalidEk "unexpected end of DER"))
  let b ← index bytes 0
  if b < 0x80 then
    return (b.toNat, 1)
  else
    let n := (b &&& 0x7f).toNat
    if n = 0 ∨ n > 4 ∨ bytes.length < 1 + n then throw (.err (.invalidEk "invalid DER length"))
    let len ← (List.range' 1 n).foldlM
      (fun len i => do return (len <<< 8) ||| (← index bytes i).toNat) 0
    return (len, 1 + n)

/-- The contents of the INTEGER at `offset` and the offset behind it. -/
def integerAt (der : Bytes) (offset : Nat) (expected : String) :
    Except EkFailure (Bytes × Nat) := do
  if der.length ≤ offset then throw (.err (.invalidEk expected))
  let tag ← index der offset
  if tag ≠ 0x02 then throw (.err (.invalidEk expected))
  let (len, lenBytes) ← parseDerLength (← sliceFrom der (offset + 1))
  let offset := offset + (1 + lenBytes)
  let contents ← slice der offset (offset + len)
  return (contents, offset + len)

/-- One leading zero octet is a sign octet. -/
def stripSign (modulus : Bytes) : Bytes :=
  if modulus.length > 1 ∧ modulus.headD 1 = 0 then modulus.drop 1 else modulus

/-- The octets of an exponent shifted into a `u32`; the default one is written as 0. -/
def exponentField (expBytes : Bytes) : UInt32 :=
  let exponent : UInt32 := expBytes.foldl (fun exponent b => (exponent <<< 8) ||| b.toUInt32) 0
  if exponent = 65537 then 0 else exponent

def parseRsaPublicKey (der : Bytes) : Except EkFailure (Bytes × UInt32) := do
  if der.isEmpty then throw (.err (.invalidEk "expected SEQUENCE"))
  let tag ← index der 0
  if tag ≠ 0x30 then throw (.err (.invalidEk "expected SEQUENCE"))
  let (_seqLen, consumed) ← parseDerLength (← sliceFrom der 1)
  let (modulus, offset) ← integerAt der (consumed + 1) "expected INTEGER for modulus"
  let (expBytes, _) ← integerAt der offset "expected INTEGER for exponent"
  return (stripSign modulus, exponentField expBytes)

/-! ## Lengths and INTEGERs -/

theorem index_append (before after : Bytes) (b : UInt8) :
    index (before ++ b :: after) before.length = .ok b := by
  rw [index, List.getElem?_append_right (Nat.le_refl _), Nat.sub_self]
  rfl

theorem sliceFrom_append (before after : Bytes) :
    sliceFrom (before ++ after) before.length = .ok after := by
  rw [sliceFrom, if_neg (by simp), List.drop_left]
  rfl

theorem sliceFrom_cons (before after : Bytes) (b : UInt8) :
    sliceFrom (before ++ b :: after) (before.length + 1) = .ok after := by
  have hsplit := sliceFrom_append (before ++ [b]) after
  rwa [List.length_append, List.length_singleton, List.append_assoc, List.singleton_append]
    at hsplit

/-- The loop over the length octets stays inside the bytes. -/
theorem foldlM_index (before digits after : Bytes) (len : Nat) :
    (List.range' before.length digits.length).foldlM
        (fun len i => do return (len <<< 8) ||| (← index (before ++ (digits ++ after)) i).toNat)
        len =
      .ok (digits.foldl (fun len x => (len <<< 8) ||| x.toNat) len) :=
  Fallible.foldlM_indices (fun before x after => index_append before after x)
    (fun len x => (len <<< 8) ||| x.toNat) before digits after len

/-- The two length parsers of the crate differ in how they report a failure. -/
theorem parseDerLength_eq (bytes : Bytes) :
    parseDerLength bytes =
      match Svid.parseDerLength bytes with
      | some result => .ok result
      | none => .error (.err (.invalidEk
          (if bytes.isEmpty then "unexpected end of DER" else "invalid DER length"))) := by
  cases bytes with
  | nil => rfl
  | cons b rest =>
      have hfirst : index (b :: rest) 0 = .ok b := rfl
      rw [parseDerLength, Svid.parseDerLength, hfirst]
      simp only [List.isEmpty_cons, Bool.false_eq_true, if_false, Fallible.ok_bind]
      split
      · rfl
      · split
        · rfl
        · rename_i hvalid
          have htake : (rest.take (b &&& 0x7f).toNat).length = (b &&& 0x7f).toNat := by
            rw [List.length_cons, not_or, not_or] at hvalid
            rw [List.length_take]
            omega
          have hloop := foldlM_index [b] (rest.take (b &&& 0x7f).toNat)
            (rest.drop (b &&& 0x7f).toNat) 0
          rw [List.take_append_drop, htake, List.length_singleton, List.singleton_append] at hloop
          rw [hloop]
          rfl

theorem parseDerLength_append {l : Bytes} {len : Nat} (h : Der.LengthOctets 4 l len)
    (rest : Bytes) : parseDerLength (l ++ rest) = .ok (len, l.length) := by
  rw [parseDerLength_eq, Svid.parseDerLength_append h]

/-- Octets that do not start with a length are refused, without a panic. -/
theorem parseDerLength_refused {bytes : Bytes}
    (h : ∀ l len rest, bytes = l ++ rest → ¬ Der.LengthOctets 4 l len) :
    ∃ e, parseDerLength bytes = .error (.err e) := by
  rw [parseDerLength_eq]
  cases hparse : Svid.parseDerLength bytes with
  | none => exact ⟨_, rfl⟩
  | some result =>
      obtain ⟨l, rest, hbytes, hlen, -⟩ :=
        Svid.parseDerLength_eq_some_iff.mp (hparse.trans (congrArg some (Prod.mk.eta).symm))
      exact absurd hlen (h l _ rest hbytes)

/-- The bytes start with an INTEGER's tag and an announced length. -/
def AnnouncesInteger (bytes l : Bytes) (len : Nat) (rest : Bytes) : Prop :=
  bytes = 0x02 :: (l ++ rest) ∧ Der.LengthOctets 4 l len

theorem slice_append (before l rest : Bytes) (len : Nat) :
    slice (before ++ 0x02 :: (l ++ rest)) (before.length + (1 + l.length))
        (before.length + (1 + l.length) + len) =
      if len ≤ rest.length then .ok (rest.take len) else .error .panic := by
  have hdrop : (before ++ 0x02 :: (l ++ rest)).drop (before.length + (1 + l.length)) = rest := by
    rw [List.drop_append, Nat.add_sub_cancel_left, List.drop_eq_nil_of_le (by omega),
      List.nil_append, Nat.add_comm 1, List.drop_succ_cons, List.drop_left]
  have hlength : (before ++ 0x02 :: (l ++ rest)).length =
      before.length + (1 + l.length) + rest.length := by
    simp only [List.length_append, List.length_cons]
    omega
  rw [slice, hdrop, hlength, Nat.add_sub_cancel_left]
  by_cases hfits : len ≤ rest.length
  · rw [if_neg (by omega), if_pos hfits]
    rfl
  · rw [if_pos (by omega), if_neg hfits]
    rfl

/-- An announced INTEGER is read when its contents are there, and else panics. -/
theorem integerAt_of_announced {bytes l rest : Bytes} {len : Nat}
    (h : AnnouncesInteger bytes l len rest) (before : Bytes) (expected : String) :
    integerAt (before ++ bytes) before.length expected =
      if len ≤ rest.length then .ok (rest.take len, before.length + (1 + l.length) + len)
      else .error .panic := by
  obtain ⟨rfl, hlen⟩ := h
  rw [integerAt, if_neg (by simp), index_append]
  simp only [Fallible.ok_bind, ne_eq, not_true_eq_false, if_false, sliceFrom_cons,
    parseDerLength_append hlen, slice_append]
  split
  · rfl
  · rfl

/-- Anything else is refused with an error. -/
theorem integerAt_refused {bytes : Bytes}
    (h : ∀ l len rest, ¬ AnnouncesInteger bytes l len rest) (before : Bytes) (expected : String) :
    ∃ e, integerAt (before ++ bytes) before.length expected = .error (.err e) := by
  cases bytes with
  | nil =>
      rw [integerAt, if_pos (by simp)]
      exact ⟨_, rfl⟩
  | cons tag bytes =>
      rw [integerAt, if_neg (by simp), index_append, Fallible.ok_bind]
      by_cases htag : tag = 0x02
      · have hnone : ∀ l len rest, bytes = l ++ rest → ¬ Der.LengthOctets 4 l len :=
          fun l len rest hbytes hlen => h l len rest ⟨by rw [htag, hbytes], hlen⟩
        obtain ⟨e, he⟩ := parseDerLength_refused hnone
        rw [if_neg (not_not_intro htag), sliceFrom_cons, Fallible.ok_bind, he]
        exact ⟨e, rfl⟩
      · rw [if_pos htag]
        exact ⟨_, rfl⟩

/-- An INTEGER panics exactly when it announces more octets than are left. -/
theorem integerAt_panic_iff {bytes before : Bytes} {expected : String} :
    integerAt (before ++ bytes) before.length expected = .error .panic ↔
      ∃ l len rest, AnnouncesInteger bytes l len rest ∧ rest.length < len := by
  constructor
  · intro hpanic
    by_cases hannounced : ∃ l len rest, AnnouncesInteger bytes l len rest
    · obtain ⟨l, len, rest, hannounced⟩ := hannounced
      rw [integerAt_of_announced hannounced] at hpanic
      split at hpanic
      · cases hpanic
      · rename_i hshort
        exact ⟨l, len, rest, hannounced, Nat.lt_of_not_le hshort⟩
    · simp only [not_exists] at hannounced
      obtain ⟨e, he⟩ := integerAt_refused hannounced before expected
      rw [he] at hpanic
      cases hpanic
  · rintro ⟨l, len, rest, hannounced, hshort⟩
    rw [integerAt_of_announced hannounced, if_neg (Nat.not_le.mpr hshort)]

/-- An INTEGER that is read is there. -/
theorem announced_of_integerAt {bytes before contents : Bytes} {expected : String} {next : Nat}
    (h : integerAt (before ++ bytes) before.length expected = .ok (contents, next)) :
    ∃ l after, AnnouncesInteger bytes l contents.length (contents ++ after) := by
  by_cases hannounced : ∃ l len rest, AnnouncesInteger bytes l len rest
  · obtain ⟨l, len, rest, hannounced⟩ := hannounced
    rw [integerAt_of_announced hannounced] at h
    split at h
    · rename_i hfits
      obtain ⟨rfl, -⟩ := Prod.mk.inj (Except.ok.inj h)
      refine ⟨l, rest.drop len, ?_⟩
      rwa [List.take_append_drop, List.length_take, Nat.min_eq_left hfits]
    · cases h
  · simp only [not_exists] at hannounced
    obtain ⟨e, he⟩ := integerAt_refused hannounced before expected
    rw [he] at h
    cases h

/-! ## The walk over the key -/

/-- Behind a SEQUENCE header the walk goes on with the modulus. -/
theorem parseRsaPublicKey_of_sequence {seq : Bytes} {n : Nat} (h : Der.LengthOctets 4 seq n)
    (tail : Bytes) :
    parseRsaPublicKey (0x30 :: (seq ++ tail)) = (do
      let (modulus, offset) ← integerAt ((0x30 :: seq) ++ tail) (0x30 :: seq).length
        "expected INTEGER for modulus"
      let (expBytes, _) ← integerAt ((0x30 :: seq) ++ tail) offset "expected INTEGER for exponent"
      return (stripSign modulus, exponentField expBytes)) := by
  have hfirst : index (0x30 :: (seq ++ tail)) 0 = .ok 0x30 := rfl
  have hfrom : sliceFrom (0x30 :: (seq ++ tail)) 1 = .ok (seq ++ tail) :=
    sliceFrom_cons [] (seq ++ tail) 0x30
  rw [parseRsaPublicKey, hfirst, hfrom]
  simp only [List.isEmpty_cons, Bool.false_eq_true, if_false, Fallible.ok_bind, ne_eq,
    not_true_eq_false, parseDerLength_append h]
  rfl

theorem parseRsaPublicKey_refused {der : Bytes}
    (h : ∀ seq n tail, der = 0x30 :: (seq ++ tail) → ¬ Der.LengthOctets 4 seq n) :
    ∃ e, parseRsaPublicKey der = .error (.err e) := by
  cases der with
  | nil => exact ⟨_, rfl⟩
  | cons tag bytes =>
      have hfirst : index (tag :: bytes) 0 = .ok tag := rfl
      rw [parseRsaPublicKey, hfirst]
      simp only [List.isEmpty_cons, Bool.false_eq_true, if_false, Fallible.ok_bind]
      by_cases htag : tag = 0x30
      · have hnone : ∀ l len rest, bytes = l ++ rest → ¬ Der.LengthOctets 4 l len :=
          fun l len rest hbytes => h l len rest (by rw [htag, hbytes])
        have hfrom : sliceFrom (tag :: bytes) 1 = .ok bytes := sliceFrom_cons [] bytes tag
        obtain ⟨e, he⟩ := parseDerLength_refused hnone
        rw [if_neg (not_not_intro htag), hfrom, Fallible.ok_bind, he]
        exact ⟨e, rfl⟩
      · rw [if_pos htag]
        exact ⟨_, rfl⟩

/-- Behind a modulus that is there the walk goes on with the exponent. -/
theorem parseRsaPublicKey_of_modulus {seq tail l modulus after : Bytes} {n : Nat}
    (hseq : Der.LengthOctets 4 seq n)
    (hmodulus : AnnouncesInteger tail l modulus.length (modulus ++ after)) :
    ∃ before, parseRsaPublicKey (0x30 :: (seq ++ tail)) = (do
      let (expBytes, _) ← integerAt (before ++ after) before.length
        "expected INTEGER for exponent"
      return (stripSign modulus, exponentField expBytes)) := by
  refine ⟨0x30 :: seq ++ 0x02 :: (l ++ modulus), ?_⟩
  have hbytes : (0x30 :: seq) ++ tail = (0x30 :: seq ++ 0x02 :: (l ++ modulus)) ++ after := by
    simp [hmodulus.1]
  have hoffset : (0x30 :: seq).length + (1 + l.length) + modulus.length =
      (0x30 :: seq ++ 0x02 :: (l ++ modulus)).length := by
    simp only [List.length_append, List.length_cons]
    omega
  rw [parseRsaPublicKey_of_sequence hseq, integerAt_of_announced hmodulus, if_pos (by simp),
    Fallible.ok_bind]
  dsimp only
  rw [List.take_left, hoffset, hbytes]

/-- The modulus announces more octets than are left. -/
def TruncatedModulus (der : Bytes) : Prop :=
  ∃ seq n tail l len rest, der = 0x30 :: (seq ++ tail) ∧ Der.LengthOctets 4 seq n ∧
    AnnouncesInteger tail l len rest ∧ rest.length < len

/-- The modulus is there, and the exponent announces more octets than are left. -/
def TruncatedExponent (der : Bytes) : Prop :=
  ∃ seq n tail l modulus after l' len rest, der = 0x30 :: (seq ++ tail) ∧
    Der.LengthOctets 4 seq n ∧ AnnouncesInteger tail l modulus.length (modulus ++ after) ∧
    AnnouncesInteger after l' len rest ∧ rest.length < len

theorem parseRsaPublicKey_panic_iff {der : Bytes} :
    parseRsaPublicKey der = .error .panic ↔ TruncatedModulus der ∨ TruncatedExponent der := by
  constructor
  · intro hpanic
    by_cases hsequence : ∃ seq n tail, der = 0x30 :: (seq ++ tail) ∧ Der.LengthOctets 4 seq n
    · obtain ⟨seq, n, tail, rfl, hseq⟩ := hsequence
      have hsteps := hpanic
      rw [parseRsaPublicKey_of_sequence hseq, Fallible.bind_error_iff] at hsteps
      rcases hsteps with hfirst | ⟨⟨modulus, offset⟩, hfirst, -⟩
      · obtain ⟨l, len, rest, hmodulus, hshort⟩ := integerAt_panic_iff.mp hfirst
        exact .inl ⟨seq, n, tail, l, len, rest, rfl, hseq, hmodulus, hshort⟩
      · -- the modulus was read, so it is the exponent that panics
        obtain ⟨l, after, hmodulus⟩ := announced_of_integerAt hfirst
        obtain ⟨before, heq⟩ := parseRsaPublicKey_of_modulus hseq hmodulus
        rw [heq, Fallible.bind_error_iff] at hpanic
        rcases hpanic with hsecond | ⟨_, -, hdone⟩
        · obtain ⟨l', len, rest, hexponent, hshort⟩ := integerAt_panic_iff.mp hsecond
          exact .inr ⟨seq, n, tail, l, modulus, after, l', len, rest, rfl, hseq, hmodulus,
            hexponent, hshort⟩
        · cases hdone
    · simp only [not_exists, not_and] at hsequence
      obtain ⟨e, he⟩ := parseRsaPublicKey_refused hsequence
      rw [he] at hpanic
      cases hpanic
  · rintro (⟨seq, n, tail, l, len, rest, rfl, hseq, hmodulus, hshort⟩ |
      ⟨seq, n, tail, l, modulus, after, l', len, rest, rfl, hseq, hmodulus, hexponent, hshort⟩)
    · rw [parseRsaPublicKey_of_sequence hseq,
        integerAt_panic_iff.mpr ⟨l, len, rest, hmodulus, hshort⟩]
      rfl
    · obtain ⟨before, heq⟩ := parseRsaPublicKey_of_modulus hseq hmodulus
      rw [heq, integerAt_panic_iff.mpr ⟨l', len, rest, hexponent, hshort⟩]
      rfl

/-- The walk returns, with a key or with an error, exactly on the bytes whose INTEGERs
are as long as they say. -/
theorem parseRsaPublicKey_returns_iff (der : Bytes) :
    parseRsaPublicKey der ≠ .error .panic ↔ ¬ TruncatedModulus der ∧ ¬ TruncatedExponent der := by
  rw [ne_eq, parseRsaPublicKey_panic_iff, not_or]

/-- A modulus of five octets is announced and none is there. -/
theorem truncated_modulus_panics : ¬ ∀ der : Bytes, parseRsaPublicKey der ≠ .error .panic := by
  intro h
  exact h [0x30, 0x02, 0x02, 0x05] (by decide)

/-! ## A written key is read back -/

theorem derLen_eq {n : Nat} (h : n < 256 ^ 126) : derLen n = Der.length n := by
  have hcount : (Der.octets n).length ≤ 126 := Der.octets_length_le_iff.mpr h
  have hfirst : (0x80 : UInt8) ||| UInt8.ofNat (Der.octets n).length =
      UInt8.ofNat (0x80 + (Der.octets n).length) := by
    apply UInt8.toNat_inj.mp
    rw [Der.or_high_bit_toNat, UInt8.toNat_ofNat', UInt8.toNat_ofNat']
    omega
  rw [derLen, Der.length, hfirst]

theorem derSeq_eq {body : Bytes} (h : body.length < 256 ^ 126) :
    derSeq body = Der.tlv 0x30 body := by
  rw [derSeq, Der.tlv, derLen_eq h]

theorem derBitstring_eq {body : Bytes} (h : body.length + 1 < 256 ^ 126) :
    derBitstring body = Der.tlv 0x03 (0x00 :: body) := by
  rw [derBitstring, Der.tlv, derLen_eq h, List.length_cons]

/-- The octets of an INTEGER: a sign octet in front of a set high bit. -/
def integerOctets (v : Bytes) : Bytes :=
  (if (stripZeros v).headD 0 &&& 0x80 ≠ 0 then [0x00] else []) ++ stripZeros v

theorem derInteger_eq {v : Bytes} (h : (integerOctets v).length < 256 ^ 126) :
    derInteger v = Der.tlv 0x02 (integerOctets v) := by
  rw [Der.tlv, ← derLen_eq h]
  rfl

/-- Leading zeros are gone, all but the last octet. -/
def WithoutLeadingZeros (v stripped : Bytes) : Prop :=
  (∃ n, v = List.replicate n 0 ++ stripped) ∧
    (stripped = [0] ∨ ∃ b rest, stripped = b :: rest ∧ b ≠ 0)

theorem withoutLeadingZeros_stripZeros {v : Bytes} (h : v ≠ []) :
    WithoutLeadingZeros v (stripZeros v) := by
  induction v using stripZeros.induct with
  | case1 b rest ih =>
      obtain ⟨⟨n, hv⟩, hfirst⟩ := ih (List.cons_ne_nil b rest)
      rw [stripZeros]
      exact ⟨⟨n + 1, congrArg (List.cons 0) hv⟩, hfirst⟩
  | case2 v hkeep =>
      rw [stripZeros.eq_2 v hkeep]
      refine ⟨⟨0, rfl⟩, ?_⟩
      match v, h, hkeep with
      | [b], _, _ =>
          by_cases hb : b = 0
          · exact .inl (by rw [hb])
          · exact .inr ⟨b, [], rfl, hb⟩
      | a :: b :: rest, _, hkeep =>
          exact .inr ⟨a, b :: rest, rfl, fun ha => hkeep b rest (by rw [ha])⟩

/-- The reader's sign octet is the writer's. -/
theorem stripSign_integerOctets {v : Bytes} (h : v ≠ []) :
    stripSign (integerOctets v) = stripZeros v := by
  obtain ⟨-, hzero | ⟨b, rest, hstripped, hb⟩⟩ := withoutLeadingZeros_stripZeros h
  · rw [integerOctets, hzero]
    rfl
  · rw [integerOctets, hstripped]
    split
    · rw [stripSign, if_pos ⟨by simp, rfl⟩]
      rfl
    · rw [stripSign, if_neg (fun hsign => hb hsign.2)]
      rfl

/-- Neither the dropped zeros nor the sign octet change the number. -/
theorem beNat_integerOctets {v : Bytes} (h : v ≠ []) :
    Der.beNat (integerOctets v) = Der.beNat v := by
  obtain ⟨⟨n, hv⟩, -⟩ := withoutLeadingZeros_stripZeros h
  have hstripped : Der.beNat v = Der.beNat (stripZeros v) := by
    rw [congrArg Der.beNat hv, Der.beNat_replicate_zero_append]
  rw [integerOctets, hstripped]
  split
  · exact Der.beNat_replicate_zero_append 1 (stripZeros v)
  · rfl

theorem exponentField_integerOctets (e : UInt32) :
    exponentField (integerOctets (Bytes.u32be e)) = if e = 65537 then 0 else e := by
  have hne : Bytes.u32be e ≠ [] := List.cons_ne_nil _ _
  have hfold : (integerOctets (Bytes.u32be e)).foldl Der.shiftIn 0 = e := by
    rw [Der.foldl_shiftIn_congr (beNat_integerOctets hne), Der.foldl_u32be]
  rw [exponentField]
  exact congrArg (fun n => if n = 65537 then 0 else n) hfold

/-- A key whose INTEGERs are of definite length is read whole. -/
theorem parseRsaPublicKey_tlv {modulus expBytes : Bytes}
    (h : (Der.tlv 0x02 modulus ++ Der.tlv 0x02 expBytes).length < 256 ^ 4) :
    parseRsaPublicKey (Der.tlv 0x30 (Der.tlv 0x02 modulus ++ Der.tlv 0x02 expBytes)) =
      .ok (stripSign modulus, exponentField expBytes) := by
  have hbounds := h
  rw [List.length_append] at hbounds
  have hmodulus := Der.length_le_tlv_length 0x02 modulus
  have hexponent := Der.length_le_tlv_length 0x02 expBytes
  have hoctets : ∀ {n}, n < 256 ^ 4 → Der.LengthOctets 4 (Der.length n) n :=
    fun hn => Der.lengthOctets_length (by decide) hn
  have hfirst : AnnouncesInteger (Der.tlv 0x02 modulus ++ Der.tlv 0x02 expBytes)
      (Der.length modulus.length) modulus.length (modulus ++ Der.tlv 0x02 expBytes) :=
    ⟨by simp [Der.tlv], hoctets (by omega)⟩
  have hsecond : AnnouncesInteger (Der.tlv 0x02 expBytes) (Der.length expBytes.length)
      expBytes.length expBytes := ⟨rfl, hoctets (by omega)⟩
  obtain ⟨before, heq⟩ := parseRsaPublicKey_of_modulus (hoctets h) hfirst
  rw [Der.tlv, heq, integerAt_of_announced hsecond, if_pos (Nat.le_refl _), List.take_length]
  rfl

/-- The contents of the BIT STRING in a SubjectPublicKeyInfo, after the unused-bits octet. -/
def SubjectPublicKey (spki content : Bytes) : Prop :=
  ∃ alg, spki = Der.tlv 0x30 (Der.tlv 0x30 alg ++ Der.tlv 0x03 (0x00 :: content))

/-- Contents are shorter than what they are wrapped in. -/
theorem length_lt_wrapped (tag : UInt8) (n : Nat) (contents : Bytes) :
    contents.length < (tag :: (derLen n ++ contents)).length := by
  rw [List.length_cons, List.length_append]
  omega

/-- The RSAPublicKey that is written, up to its SEQUENCE header. -/
def rsaIntegers (modulus : Bytes) (exponent : UInt32) : Bytes :=
  Der.tlv 0x02 (integerOctets modulus) ++ Der.tlv 0x02 (integerOctets (Bytes.u32be exponent))

/-- The object identifier of RSA keys and its NULL parameters. -/
def rsaAlgorithm : Bytes :=
  [0x06, 0x09, 0x2a, 0x86, 0x48, 0x86, 0xf7, 0x0d, 0x01, 0x01, 0x01] ++ [0x05, 0x00]

/-- The SubjectPublicKeyInfo of an RSA key. -/
def rsaSpki (content : Bytes) : Bytes :=
  Der.tlv 0x30 (Der.tlv 0x30 rsaAlgorithm ++ Der.tlv 0x03 (0x00 :: content))

/-- Every part is shorter than the whole, so all lengths are definite ones. -/
theorem rsaPublicToSpki_eq_rsaSpki {modulus : Bytes} {exponent : UInt32}
    (h : (rsaPublicToSpki modulus exponent).length < 2 ^ 32) :
    rsaPublicToSpki modulus exponent = rsaSpki (Der.tlv 0x30 (rsaIntegers modulus exponent)) ∧
      (rsaIntegers modulus exponent).length < 2 ^ 32 := by
  have hdefinite : ∀ {n : Nat}, n < 2 ^ 32 → n < 256 ^ 126 := fun hn =>
    Nat.lt_of_lt_of_le hn (by decide +kernel)
  let integers := derInteger modulus ++ derInteger (Bytes.u32be exponent)
  have hspki : (derSeq rsaAlgorithm ++ derBitstring (derSeq integers)).length <
      (rsaPublicToSpki modulus exponent).length := length_lt_wrapped _ _ _
  have hbits : (0x00 :: derSeq integers).length < (derBitstring (derSeq integers)).length :=
    length_lt_wrapped _ _ _
  have hintegers : integers.length < (derSeq integers).length := length_lt_wrapped _ _ _
  have hmodulus : (integerOctets modulus).length < (derInteger modulus).length :=
    length_lt_wrapped _ _ _
  have hexponent : (integerOctets (Bytes.u32be exponent)).length <
      (derInteger (Bytes.u32be exponent)).length := length_lt_wrapped _ _ _
  have hsum : integers.length =
      (derInteger modulus).length + (derInteger (Bytes.u32be exponent)).length :=
    List.length_append
  have halg : rsaAlgorithm.length < 2 ^ 32 := by decide
  rw [List.length_append] at hspki
  rw [List.length_cons] at hbits
  have hrsa : integers = rsaIntegers modulus exponent := by
    rw [rsaIntegers, ← derInteger_eq (hdefinite (by omega)), ← derInteger_eq (hdefinite (by omega))]
  have hwhole : rsaPublicToSpki modulus exponent =
      derSeq (derSeq rsaAlgorithm ++ derBitstring (derSeq integers)) := rfl
  refine ⟨?_, by rw [← hrsa]; omega⟩
  rw [hwhole, derSeq_eq (hdefinite (by rw [List.length_append]; omega)), derSeq_eq (hdefinite halg),
    derBitstring_eq (hdefinite (by omega)), derSeq_eq (hdefinite (by omega)), hrsa, rsaSpki]

theorem rsaPublicToSpki_eq {modulus : Bytes} {exponent : UInt32}
    (h : (rsaPublicToSpki modulus exponent).length < 2 ^ 32) :
    SubjectPublicKey (rsaPublicToSpki modulus exponent)
        (Der.tlv 0x30 (rsaIntegers modulus exponent)) ∧
      (rsaIntegers modulus exponent).length < 2 ^ 32 := by
  obtain ⟨hspki, hintegers⟩ := rsaPublicToSpki_eq_rsaSpki h
  exact ⟨⟨rsaAlgorithm, hspki⟩, hintegers⟩

/-- The BIT STRING of a SubjectPublicKeyInfo is in one place. -/
theorem SubjectPublicKey.unique {spki content content' : Bytes} (hlen : spki.length < 256 ^ 126)
    (h : SubjectPublicKey spki content) (h' : SubjectPublicKey spki content') :
    content = content' := by
  obtain ⟨alg, rfl⟩ := h
  obtain ⟨alg', h'⟩ := h'
  have hbody := Der.length_le_tlv_length 0x30 (Der.tlv 0x30 alg ++ Der.tlv 0x03 (0x00 :: content))
  have hbody' :=
    Der.length_le_tlv_length 0x30 (Der.tlv 0x30 alg' ++ Der.tlv 0x03 (0x00 :: content'))
  rw [← h'] at hbody'
  have htop := congrArg (· ++ ([] : Bytes)) h'
  obtain ⟨-, hparts, -⟩ := Der.tlv_append_inj (by omega) (by omega) htop
  rw [List.length_append] at hbody hbody'
  have halg := Der.length_le_tlv_length 0x30 alg
  have halg' := Der.length_le_tlv_length 0x30 alg'
  have hbits := Der.length_le_tlv_length 0x03 (0x00 :: content)
  have hbits' := Der.length_le_tlv_length 0x03 (0x00 :: content')
  obtain ⟨-, -, hrest⟩ := Der.tlv_append_inj (by omega) (by omega) hparts
  obtain ⟨-, hcontent, -⟩ := Der.tlv_append_inj (by omega) (by omega)
    (congrArg (· ++ ([] : Bytes)) hrest)
  exact (List.cons.inj hcontent).2

/-- The server reads the modulus without its leading zeros, and the exponent. -/
def ReadBack (modulus : Bytes) (exponent field : UInt32) : Prop :=
  ∃ stripped content, WithoutLeadingZeros modulus stripped ∧
    SubjectPublicKey (rsaPublicToSpki modulus exponent) content ∧
    (∀ other, SubjectPublicKey (rsaPublicToSpki modulus exponent) other → other = content) ∧
    parseRsaPublicKey content = .ok (stripped, field)

theorem readBack {modulus : Bytes} {exponent : UInt32} (hne : modulus ≠ [])
    (hlen : (rsaPublicToSpki modulus exponent).length < 2 ^ 32) :
    ReadBack modulus exponent (if exponent = 65537 then 0 else exponent) := by
  obtain ⟨hkey, hintegers⟩ := rsaPublicToSpki_eq hlen
  have hdefinite : (rsaPublicToSpki modulus exponent).length < 256 ^ 126 :=
    Nat.lt_of_lt_of_le hlen (by decide +kernel)
  refine ⟨stripZeros modulus, _, withoutLeadingZeros_stripZeros hne, hkey,
    fun other hother => hother.unique hdefinite hkey, ?_⟩
  rw [rsaIntegers, parseRsaPublicKey_tlv hintegers, stripSign_integerOctets hne,
    exponentField_integerOctets]

/-- Node and server agree on the EK: what is written for a modulus and an exponent is read
back, and a TPM's exponent field survives the way through the default exponent. -/
theorem ek_agreement (modulus : Bytes) (hne : modulus ≠ []) :
    (∀ exponent, 0 < exponent → (rsaPublicToSpki modulus exponent).length < 2 ^ 32 →
      ReadBack modulus exponent (if exponent = 65537 then 0 else exponent)) ∧
    ∀ field ctx, ∃ exponent,
      extractRsaPublic (.rsa modulus field) ctx = .ok (modulus, exponent) ctx ∧
      ((rsaPublicToSpki modulus exponent).length < 2 ^ 32 →
        ReadBack modulus exponent (if field = 65537 then 0 else field)) := by
  refine ⟨fun exponent _ hlen => readBack hne hlen, fun field ctx => ?_⟩
  refine ⟨if field = 0 then 65537 else field, rfl, fun hlen => ?_⟩
  have hback := readBack hne hlen
  by_cases hzero : field = 0
  · rw [if_pos hzero, if_pos rfl] at hback
    rw [if_pos hzero, hzero]
    exact hback
  · rw [if_neg hzero] at hback ⊢
    exact hback

/-- One octet of modulus and the default exponent. -/
theorem ek_agreement_default :
    ReadBack [0x00, 0xC5] 65537 0 := by
  exact (ek_agreement [0x00, 0xC5] (by decide)).1 65537 (by decide) (by decide)

end Fleetos.Tpm
