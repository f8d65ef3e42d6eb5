import FleetosCore.Library.Bytes

/-!
# Strings and their UTF-8 bytes

A string is read either as its characters or as its UTF-8 bytes. The two readings
are connected here once: the bytes determine the string, and a NUL byte can only come
from a NUL character.

The splitting functions work on lists of any type and follow the usual library
meaning: the leftmost occurrence of a pattern, and at most `n` parts.
-/

namespace Text

def utf8 (s : String) : Bytes := s.toByteArray.data.toList

/-- The string with these UTF-8 bytes, if there is one. -/
def fromUtf8 (b : Bytes) : Option String := String.fromUTF8? ⟨b.toArray⟩

theorem utf8_injective {s t : String} (h : utf8 s = utf8 t) : s = t := by
  apply String.toByteArray_inj.mp
  exact ByteArray.ext (Array.toList_inj.mp h)

@[simp] theorem utf8_append (s t : String) : utf8 (s ++ t) = utf8 s ++ utf8 t := by
  simp [utf8, String.toByteArray_append]

theorem utf8_eq_flatMap (s : String) : utf8 s = s.toList.flatMap String.utf8EncodeChar := by
  rw [utf8, ← String.utf8Encode_toList]
  simp [List.utf8Encode]

theorem utf8_push (s : String) (c : Char) :
    utf8 (s.push c) = utf8 s ++ String.utf8EncodeChar c := by
  rw [utf8_eq_flatMap, utf8_eq_flatMap, String.toList_push, List.flatMap_append]
  simp

/-- A repeated character of one byte is a repeated byte. -/
theorem utf8_ofList_replicate {c : Char} {b : UInt8} (h : String.utf8EncodeChar c = [b])
    (n : Nat) : utf8 (String.ofList (List.replicate n c)) = List.replicate n b := by
  rw [utf8_eq_flatMap, String.toList_ofList]
  induction n with
  | zero => rfl
  | succ n ih =>
      rw [List.replicate_succ, List.flatMap_cons, ih, h, List.replicate_succ]
      rfl

@[simp] theorem fromUtf8_utf8 (s : String) : fromUtf8 (utf8 s) = some s := by
  have hbytes : (⟨(utf8 s).toArray⟩ : ByteArray) = s.toByteArray := by
    simp [utf8]
  rw [fromUtf8, hbytes, String.fromUTF8?, dif_pos s.isValidUTF8]
  rfl

theorem fromUtf8_eq_some_iff {b : Bytes} {s : String} : fromUtf8 b = some s ↔ utf8 s = b := by
  constructor
  · intro h
    simp only [fromUtf8, String.fromUTF8?] at h
    split at h
    · obtain rfl := Option.some.inj h
      rfl
    · cases h
  · rintro rfl
    exact fromUtf8_utf8 s

/-- The bytes are the UTF-8 form of some string. -/
def IsText (b : Bytes) : Prop := ∃ s, utf8 s = b

theorem fromUtf8_eq_none_iff {b : Bytes} : fromUtf8 b = none ↔ ¬ IsText b := by
  rw [Option.eq_none_iff_forall_ne_some]
  constructor
  · rintro h ⟨s, hs⟩
    exact h s (fromUtf8_eq_some_iff.mpr hs)
  · intro h s hs
    exact h ⟨s, fromUtf8_eq_some_iff.mp hs⟩

/-- An ASCII byte only occurs in the encoding of its own character. -/
theorem mem_utf8EncodeChar_iff {b : UInt8} (hb : b.toNat < 0x80) {c : Char} :
    b ∈ String.utf8EncodeChar c ↔ c.val.toNat = b.toNat := by
  have hbyte : ∀ n : Nat, b = UInt8.ofNat n ↔ n % 256 = b.toNat := by
    intro n
    rw [← UInt8.toNat_inj, UInt8.toNat_ofNat', eq_comm]
  simp only [String.utf8EncodeChar]
  split
  · simp only [List.mem_singleton, hbyte]
    omega
  · split
    · simp only [List.mem_cons, List.not_mem_nil, or_false, hbyte]
      omega
    · split
      · simp only [List.mem_cons, List.not_mem_nil, or_false, hbyte]
        omega
      · simp only [List.mem_cons, List.not_mem_nil, or_false, hbyte]
        omega

theorem mem_utf8_iff {c : Char} (hc : c.val.toNat < 0x80) {s : String} :
    UInt8.ofNat c.val.toNat ∈ utf8 s ↔ c ∈ s.toList := by
  have hbyte : (UInt8.ofNat c.val.toNat).toNat = c.val.toNat := by
    rw [UInt8.toNat_ofNat']
    omega
  have hchar : ∀ d : Char, d.val.toNat = c.val.toNat ↔ d = c := by
    intro d
    rw [Char.ext_iff, ← UInt32.toNat_inj]
  simp only [utf8_eq_flatMap, List.mem_flatMap, mem_utf8EncodeChar_iff (hbyte ▸ hc), hbyte, hchar,
    exists_eq_right]

theorem zero_mem_utf8_iff {s : String} : 0 ∈ utf8 s ↔ '\x00' ∈ s.toList :=
  mem_utf8_iff (c := '\x00') (by decide)

theorem slash_mem_utf8_iff {s : String} : 0x2F ∈ utf8 s ↔ '/' ∈ s.toList :=
  mem_utf8_iff (c := '/') (by decide)

/-! ## Lower case -/

/-- `A` to `Z` become `a` to `z`, every other character stays. -/
def toAsciiLowercase (s : String) : String := String.ofList (s.toList.map Char.toLower)

/-- The same on bytes: no byte of a longer encoding is an ASCII letter. -/
def lowerByte (b : UInt8) : UInt8 := if 0x41 ≤ b.toNat ∧ b.toNat ≤ 0x5A then b + 0x20 else b

theorem toLower_of_upper {c : Char} (h : 0x41 ≤ c.val.toNat ∧ c.val.toNat ≤ 0x5A) :
    c.toLower.val.toNat = c.val.toNat + 0x20 := by
  have hupper : c.val ≥ 'A'.val ∧ c.val ≤ 'Z'.val :=
    ⟨UInt32.le_iff_toNat_le.mpr h.1, UInt32.le_iff_toNat_le.mpr h.2⟩
  have hsum : (c.val + ('a'.val - 'A'.val)).toNat = (c.val.toNat + 0x20) % 2 ^ 32 :=
    UInt32.toNat_add _ _
  have hlower : c.toLower.val = c.val + ('a'.val - 'A'.val) := congrArg Char.val (dif_pos hupper)
  rw [hlower]
  omega

theorem toLower_of_not_upper {c : Char} (h : ¬ (0x41 ≤ c.val.toNat ∧ c.val.toNat ≤ 0x5A)) :
    c.toLower = c := by
  have hupper : ¬ (c.val ≥ 'A'.val ∧ c.val ≤ 'Z'.val) := fun hc =>
    h ⟨UInt32.le_iff_toNat_le.mp hc.1, UInt32.le_iff_toNat_le.mp hc.2⟩
  exact dif_neg hupper

theorem utf8EncodeChar_of_ascii {c : Char} (h : c.val.toNat < 0x80) :
    String.utf8EncodeChar c = [UInt8.ofNat c.val.toNat] := by
  simp only [String.utf8EncodeChar]
  rw [if_pos (by omega)]

theorem utf8EncodeChar_toLower (c : Char) :
    String.utf8EncodeChar c.toLower = (String.utf8EncodeChar c).map lowerByte := by
  by_cases hupper : 0x41 ≤ c.val.toNat ∧ c.val.toNat ≤ 0x5A
  · have hlower := toLower_of_upper hupper
    have hbyte : (UInt8.ofNat c.val.toNat).toNat = c.val.toNat := by
      rw [UInt8.toNat_ofNat']
      omega
    rw [utf8EncodeChar_of_ascii (by omega), utf8EncodeChar_of_ascii (by omega), List.map_cons,
      List.map_nil, lowerByte, if_pos (by rwa [hbyte]), hlower, UInt8.ofNat_add]
    rfl
  · have hkept : ∀ b ∈ String.utf8EncodeChar c, lowerByte b = id b := by
      intro b hb
      rw [lowerByte]
      split
      · rename_i hletter
        rw [mem_utf8EncodeChar_iff (by omega)] at hb
        omega
      · rfl
    rw [toLower_of_not_upper hupper, List.map_congr_left hkept, List.map_id]

theorem utf8_toAsciiLowercase (s : String) :
    utf8 (toAsciiLowercase s) = (utf8 s).map lowerByte := by
  rw [utf8_eq_flatMap, utf8_eq_flatMap, toAsciiLowercase, String.toList_ofList,
    List.flatMap_map, List.map_flatMap]
  exact congrArg (List.flatMap · s.toList) (funext utf8EncodeChar_toLower)

/-- The order of strings by their bytes. -/
def ByteLe (s t : String) : Prop := utf8 s ≤ utf8 t

instance : DecidableRel ByteLe := fun s t => inferInstanceAs (Decidable (utf8 s ≤ utf8 t))

instance : Std.Total ByteLe := ⟨fun _ _ => List.le_total _ _⟩

instance : IsTrans String ByteLe := ⟨fun _ _ _ => List.le_trans⟩

instance : Std.Antisymm ByteLe := ⟨fun _ _ h h' => utf8_injective (List.le_antisymm h h')⟩

section Occurrence

variable {α : Type}

/-- In `before ++ pattern` the pattern occurs at the end and nowhere to the left of it. -/
def EndsAtFirst (pattern before : List α) : Prop :=
  ∀ i < before.length, ¬ pattern <+: (before ++ pattern).drop i

theorem endsAtFirst_nil (pattern : List α) : EndsAtFirst pattern [] :=
  fun i hi => absurd hi (Nat.not_lt_zero i)

theorem endsAtFirst_cons_iff {pattern before : List α} {c : α} :
    EndsAtFirst pattern (c :: before) ↔
      ¬ pattern <+: c :: (before ++ pattern) ∧ EndsAtFirst pattern before := by
  constructor
  · intro h
    refine ⟨h 0 (Nat.succ_pos _), fun i hi => ?_⟩
    simpa using h (i + 1) (Nat.succ_lt_succ hi)
  · rintro ⟨hfirst, hrest⟩ i hi
    cases i with
    | zero => exact hfirst
    | succ i => simpa using hrest i (Nat.lt_of_succ_lt_succ hi)

theorem endsAtFirst_singleton_iff {sep : α} {before : List α} :
    EndsAtFirst [sep] before ↔ sep ∉ before := by
  induction before with
  | nil => simp [endsAtFirst_nil]
  | cons c before ih =>
      rw [endsAtFirst_cons_iff, ih, List.mem_cons, not_or, List.cons_prefix_cons]
      simp

/-- What follows a pattern decides nothing about where it first occurs. -/
theorem prefix_append_iff (pattern before after : List α) :
    pattern <+: before ++ (pattern ++ after) ↔ pattern <+: before ++ pattern := by
  rw [← List.append_assoc]
  constructor
  · intro h
    exact List.prefix_of_prefix_length_le h (List.prefix_append _ _) (by simp)
  · exact fun h => h.trans (List.prefix_append _ _)

end Occurrence

section Split

variable {α : Type} [DecidableEq α]

/-- What follows `pattern` when the list starts with it. -/
def stripPrefix : List α → List α → Option (List α)
  | [], s => some s
  | p :: ps, c :: cs => if p = c then stripPrefix ps cs else none
  | _ :: _, [] => none

/-- The parts before and after the leftmost occurrence of `pattern`. -/
def splitOnce (pattern : List α) : List α → Option (List α × List α)
  | [] => (stripPrefix pattern []).map fun rest => ([], rest)
  | c :: cs =>
      match stripPrefix pattern (c :: cs) with
      | some rest => some ([], rest)
      | none => (splitOnce pattern cs).map fun (before, after) => (c :: before, after)

/-- At most `n` parts, split at the leftmost separators; the last part keeps the rest. -/
def splitn : Nat → α → List α → List (List α)
  | 0, _, _ => []
  | 1, _, s => [s]
  | n + 2, sep, s =>
      match splitOnce [sep] s with
      | none => [s]
      | some (part, rest) => part :: splitn (n + 1) sep rest

theorem stripPrefix_eq_some_iff {pattern s rest : List α} :
    stripPrefix pattern s = some rest ↔ s = pattern ++ rest := by
  induction pattern generalizing s with
  | nil => simp [stripPrefix]
  | cons p ps ih =>
      cases s with
      | nil => simp [stripPrefix]
      | cons c cs =>
          simp only [stripPrefix, List.cons_append, List.cons.injEq]
          split
          · rename_i hpc
            simp [ih, hpc]
          · rename_i hpc
            simp [Ne.symm hpc]

/-- The parts and the pattern between them make up the whole, and the pattern does not
occur further left. -/
theorem splitOnce_eq_some_iff {pattern s before after : List α} :
    splitOnce pattern s = some (before, after) ↔
      s = before ++ (pattern ++ after) ∧ EndsAtFirst pattern before := by
  induction s generalizing before with
  | nil =>
      simp only [splitOnce, Option.map_eq_some_iff, Prod.mk.injEq, stripPrefix_eq_some_iff]
      constructor
      · rintro ⟨rest, hstrip, rfl, rfl⟩
        exact ⟨hstrip, endsAtFirst_nil pattern⟩
      · rintro ⟨hs, -⟩
        obtain ⟨rfl, hrest⟩ := List.append_eq_nil_iff.mp hs.symm
        exact ⟨after, hrest.symm, rfl, rfl⟩
  | cons c cs ih =>
      simp only [splitOnce]
      cases before with
      | nil =>
          simp only [List.nil_append, endsAtFirst_nil, and_true, ← stripPrefix_eq_some_iff]
          cases stripPrefix pattern (c :: cs) <;> simp
      | cons b before =>
          rw [endsAtFirst_cons_iff, ← List.cons_append, ← prefix_append_iff _ _ after]
          cases hstrip : stripPrefix pattern (c :: cs) with
          | some rest =>
              have hleading : pattern <+: c :: cs :=
                ⟨rest, (stripPrefix_eq_some_iff.mp hstrip).symm⟩
              simp only [Option.some.injEq, Prod.mk.injEq, reduceCtorEq, false_and, false_iff]
              rintro ⟨hs, hfirst, -⟩
              exact hfirst (hs ▸ hleading)
          | none =>
              have hno : ¬ pattern <+: c :: cs := by
                rintro ⟨rest, hrest⟩
                rw [stripPrefix_eq_some_iff.mpr hrest.symm] at hstrip
                cases hstrip
              simp only [Option.map_eq_some_iff, Prod.exists, Prod.mk.injEq, List.cons_append,
                List.cons.injEq]
              constructor
              · rintro ⟨_, _, hrec, ⟨rfl, rfl⟩, rfl⟩
                obtain ⟨rfl, hends⟩ := ih.mp hrec
                exact ⟨⟨rfl, rfl⟩, hno, hends⟩
              · rintro ⟨⟨rfl, rfl⟩, -, hends⟩
                exact ⟨_, _, ih.mpr ⟨rfl, hends⟩, ⟨rfl, rfl⟩, rfl⟩

theorem splitOnce_singleton_iff {sep : α} {s before after : List α} :
    splitOnce [sep] s = some (before, after) ↔ s = before ++ sep :: after ∧ sep ∉ before := by
  rw [splitOnce_eq_some_iff, endsAtFirst_singleton_iff, List.singleton_append]

/-- Three parts: the first two end at the first separator after them, the third is what
is left. -/
theorem splitn_three_iff {sep : α} {s a b c : List α} :
    splitn 3 sep s = [a, b, c] ↔
      s = a ++ sep :: (b ++ sep :: c) ∧ sep ∉ a ∧ sep ∉ b := by
  constructor
  · intro h
    rw [splitn] at h
    split at h
    · cases h
    · rename_i part rest hfirst
      rw [splitn] at h
      split at h
      · cases h
      · rename_i part' rest' hsecond
        simp only [splitn, List.cons.injEq, and_true] at h
        obtain ⟨rfl, rfl, rfl⟩ := h
        obtain ⟨rfl, ha⟩ := splitOnce_singleton_iff.mp hfirst
        obtain ⟨rfl, hb⟩ := splitOnce_singleton_iff.mp hsecond
        exact ⟨rfl, ha, hb⟩
  · rintro ⟨rfl, ha, hb⟩
    simp only [splitn, splitOnce_singleton_iff.mpr ⟨rfl, ha⟩,
      splitOnce_singleton_iff.mpr ⟨rfl, hb⟩]

end Split

end Text
