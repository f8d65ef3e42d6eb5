import FleetosCore.Identity.Spiffe

/-!
# Routing fingerprints

`IdentityFingerprint::of` and `of_with_ordinal` of `src/hash.rs`. BLAKE3 is a parameter;
the statements are about the bytes it is fed, so they hold up to collisions of the hash
itself.

The two functions feed one hash without a tag that tells them apart. What keeps them apart
is the number of zero bytes, as long as the identities have none.
-/

namespace Fleetos

open Text (utf8)

/-- Sixteen bytes of a BLAKE3 output. -/
structure IdentityFingerprint where
  bytes : Bytes
  deriving DecidableEq, Repr

namespace IdentityFingerprint

/-- The bytes fed to the hasher: the URI, one zero byte, the role or nothing. -/
def fedBytes (id : SpiffeId) (role : Option WorkloadRole) : Bytes :=
  let hasher := id.writeUriBytes []
  let hasher := hasher ++ [0x00]
  match role with
  | some r => hasher ++ utf8 r.asStr
  | none => hasher

def of (blake3 : Bytes → Bytes) (id : SpiffeId) (role : Option WorkloadRole) :
    IdentityFingerprint :=
  ⟨(blake3 (fedBytes id role)).take 16⟩

theorem fedBytes_eq (id : SpiffeId) (role : Option WorkloadRole) :
    fedBytes id role = utf8 id.display ++ 0x00 :: utf8 (WorkloadRole.text role) := by
  cases role with
  | none =>
      simp only [fedBytes, SpiffeId.writeUriBytes_eq, WorkloadRole.text, List.nil_append]
      rfl
  | some r =>
      simp only [fedBytes, SpiffeId.writeUriBytes_eq, WorkloadRole.text, List.nil_append,
        List.append_assoc, List.singleton_append]

/-- The hashed layout determines the identity and the role text. The URI may
contain zero bytes, the role may not, so the last zero byte is the separator. -/
theorem fedBytes_injective {s₁ s₂ : String} {id₁ id₂ : SpiffeId}
    {role₁ role₂ : Option WorkloadRole} (hid₁ : SpiffeId.fromStr s₁ = .ok id₁)
    (hid₂ : SpiffeId.fromStr s₂ = .ok id₂) (hrole₁ : ∀ r ∈ role₁, r.Accepted)
    (hrole₂ : ∀ r ∈ role₂, r.Accepted) (h : fedBytes id₁ role₁ = fedBytes id₂ role₂) :
    id₁ = id₂ ∧ WorkloadRole.text role₁ = WorkloadRole.text role₂ := by
  rw [fedBytes_eq, fedBytes_eq] at h
  obtain ⟨huri, hrole⟩ := Bytes.last_field_inj (WorkloadRole.zero_notMem_text hrole₁)
    (WorkloadRole.zero_notMem_text hrole₂) h
  exact ⟨SpiffeId.eq_of_display_eq hid₁ hid₂ (Text.utf8_injective huri),
    Text.utf8_injective hrole⟩

/-- An absent role and an empty one are fed alike. -/
theorem fedBytes_injective_absent_role :
    (⟨"td", "t", .sa, "db"⟩ : SpiffeId) = ⟨"td", "t", .sa, "db"⟩ ∧
      WorkloadRole.text none = WorkloadRole.text (some ⟨""⟩) :=
  @fedBytes_injective "spiffe://td/ns/t/sa/db" "spiffe://td/ns/t/sa/db"
    ⟨"td", "t", .sa, "db"⟩ ⟨"td", "t", .sa, "db"⟩ none (some ⟨""⟩) (by decide) (by decide)
    (by simp) (fun r hr => ⟨"", by obtain rfl := Option.mem_some.mp hr; decide⟩) (by decide)

/-! ## With an ordinal -/

/-- The same bytes, one more zero byte, the ordinal or nothing. -/
def fedBytesWithOrdinal (id : SpiffeId) (role : Option WorkloadRole) (ordinal : Option UInt32) :
    Bytes :=
  let hasher := id.writeUriBytes []
  let hasher := hasher ++ [0x00]
  let hasher :=
    match role with
    | some r => hasher ++ utf8 r.asStr
    | none => hasher
  let hasher := hasher ++ [0x00]
  match ordinal with
  | some o => hasher ++ Bytes.u32le o
  | none => hasher

def ofWithOrdinal (blake3 : Bytes → Bytes) (id : SpiffeId) (role : Option WorkloadRole)
    (ordinal : Option UInt32) : IdentityFingerprint :=
  ⟨(blake3 (fedBytesWithOrdinal id role ordinal)).take 16⟩

/-- Which of the functions is called, and with which ordinal. -/
inductive Call where
  | of
  | ofWithOrdinal (ordinal : Option UInt32)
  deriving DecidableEq, Repr

namespace Call

def fed (call : Call) (id : SpiffeId) (role : Option WorkloadRole) : Bytes :=
  match call with
  | .of => fedBytes id role
  | .ofWithOrdinal ordinal => fedBytesWithOrdinal id role ordinal

/-- What follows the role. -/
def tail : Call → Bytes
  | .of => []
  | .ofWithOrdinal none => [0x00]
  | .ofWithOrdinal (some o) => 0x00 :: Bytes.u32le o

/-- Both calls feed as many bytes behind the role. -/
def SameShape (call₁ call₂ : Call) : Prop := call₁.tail.length = call₂.tail.length

theorem fed_eq (call : Call) (id : SpiffeId) (role : Option WorkloadRole) :
    call.fed id role = utf8 id.display ++ 0x00 :: (utf8 (WorkloadRole.text role) ++ call.tail) := by
  have hof := fedBytes_eq id role
  have hordinal : ∀ ordinal, fedBytesWithOrdinal id role ordinal =
      fedBytes id role ++ (Call.ofWithOrdinal ordinal).tail := by
    intro ordinal
    cases role <;> cases ordinal <;>
      simp [fedBytesWithOrdinal, fedBytes, tail, List.append_assoc]
  cases call with
  | of => rw [fed, hof, tail, List.append_nil]
  | ofWithOrdinal ordinal =>
      rw [fed, hordinal, hof, List.append_assoc, List.cons_append]

theorem tail_injective {call₁ call₂ : Call} (h : call₁.tail = call₂.tail) : call₁ = call₂ := by
  have hlength := congrArg List.length h
  match call₁, call₂ with
  | .of, .of => rfl
  | .ofWithOrdinal none, .ofWithOrdinal none => rfl
  | .ofWithOrdinal (some o₁), .ofWithOrdinal (some o₂) =>
      rw [Bytes.u32le_injective (List.cons.inj h).2]
  | .of, .ofWithOrdinal none | .of, .ofWithOrdinal (some _)
  | .ofWithOrdinal none, .of | .ofWithOrdinal none, .ofWithOrdinal (some _)
  | .ofWithOrdinal (some _), .of | .ofWithOrdinal (some _), .ofWithOrdinal none => cases hlength

theorem tail_head {call : Call} {b : UInt8} {rest : Bytes} (h : call.tail = b :: rest) :
    b = 0x00 := by
  match call with
  | .of => cases h
  | .ofWithOrdinal none | .ofWithOrdinal (some _) => exact (List.cons.inj h).1.symm

/-- A text free of zero bytes ends where the tail starts. -/
theorem append_tail_inj {call₁ call₂ : Call} {x y : Bytes} (hx : 0x00 ∉ x) (hy : 0x00 ∉ y)
    (h : x ++ call₁.tail = y ++ call₂.tail) : x = y ∧ call₁ = call₂ := by
  have hself : ∀ {a b : Call} {u v : Bytes}, 0x00 ∉ v → ∀ rest, v = u ++ rest →
      a.tail = rest ++ b.tail → u = v ∧ a = b := by
    intro a b u v hv rest hrest htail
    cases rest with
    | nil => exact ⟨(List.append_nil u).symm.trans hrest.symm, tail_injective htail⟩
    | cons c rest =>
        rw [hrest, tail_head htail] at hv
        exact absurd (List.mem_append_right _ List.mem_cons_self) hv
  obtain ⟨rest, hrest, htail⟩ | ⟨rest, hrest, htail⟩ := List.append_eq_append_iff.mp h
  · exact hself hy rest hrest htail
  · obtain ⟨hxy, hcalls⟩ := hself hx rest hrest htail
    exact ⟨hxy.symm, hcalls.symm⟩

end Call

/-- What is added to a name ends up behind the URI. -/
theorem display_append_name (id : SpiffeId) (text : String) :
    ({ id with name := id.name ++ text } : SpiffeId).display = id.display ++ text := by
  simp only [SpiffeId.display, String.append_assoc]

/-- The identity, the text of the role and the ordinal can be read off the bytes that
either function feeds, if the identities are free of zero bytes or the calls are alike in
having an ordinal. A zero byte in a name undoes this: calls with the ordinal left out are
fed as calls without one, and calls with ordinal 0 as calls with the ordinal left out. -/
theorem calls_separated {s₁ s₂ : String} {id₁ id₂ : SpiffeId} {role₁ role₂ : Option WorkloadRole}
    (hid₁ : SpiffeId.fromStr s₁ = .ok id₁) (hid₂ : SpiffeId.fromStr s₂ = .ok id₂)
    (hrole₁ : ∀ r ∈ role₁, r.Accepted) (hrole₂ : ∀ r ∈ role₂, r.Accepted) (call₁ call₂ : Call) :
    ((('\x00' ∉ s₁.toList ∧ '\x00' ∉ s₂.toList) ∨ call₁.SameShape call₂) →
      call₁.fed id₁ role₁ = call₂.fed id₂ role₂ →
        call₁ = call₂ ∧ id₁ = id₂ ∧ WorkloadRole.text role₁ = WorkloadRole.text role₂) ∧
    Call.of.fed { id₁ with name := id₁.name ++ ("\x00" ++ WorkloadRole.text role₁) } none =
      (Call.ofWithOrdinal none).fed id₁ role₁ ∧
    (Call.ofWithOrdinal none).fed { id₁ with
        name := id₁.name ++ ("\x00" ++ WorkloadRole.text role₁ ++ "\x00\x00\x00") } none =
      (Call.ofWithOrdinal (some 0)).fed id₁ role₁ := by
  have htext₁ := WorkloadRole.zero_notMem_text hrole₁
  have htext₂ := WorkloadRole.zero_notMem_text hrole₂
  have hempty : utf8 "" = [] := rfl
  have hnul : utf8 "\x00" = [0x00] := by decide
  have hnuls : utf8 "\x00\x00\x00" = [0x00, 0x00, 0x00] := by decide
  refine ⟨fun hshape h => ?_, ?_, ?_⟩
  · have hparts : (utf8 id₁.display = utf8 id₂.display ∧
        utf8 (WorkloadRole.text role₁) = utf8 (WorkloadRole.text role₂)) ∧ call₁ = call₂ := by
      rw [Call.fed_eq, Call.fed_eq] at h
      obtain ⟨hfree₁, hfree₂⟩ | hsame := hshape
      · rw [← Text.zero_mem_utf8_iff, ← SpiffeId.display_of_fromStr hid₁] at hfree₁
        rw [← Text.zero_mem_utf8_iff, ← SpiffeId.display_of_fromStr hid₂] at hfree₂
        obtain ⟨huri, hrest⟩ := Bytes.field_inj hfree₁ hfree₂ h
        obtain ⟨hrole, hcalls⟩ := Call.append_tail_inj htext₁ htext₂ hrest
        exact ⟨⟨huri, hrole⟩, hcalls⟩
      · rw [← List.cons_append, ← List.cons_append, ← List.append_assoc, ← List.append_assoc] at h
        obtain ⟨hfields, htail⟩ := List.append_inj' h hsame
        exact ⟨Bytes.last_field_inj htext₁ htext₂ hfields, Call.tail_injective htail⟩
    obtain ⟨⟨huri, hrole⟩, hcalls⟩ := hparts
    exact ⟨hcalls, SpiffeId.eq_of_display_eq hid₁ hid₂ (Text.utf8_injective huri),
      Text.utf8_injective hrole⟩
  · rw [Call.fed_eq, Call.fed_eq, display_append_name, Text.utf8_append, Text.utf8_append, hnul]
    simp [Call.tail, WorkloadRole.text, hempty]
  · rw [Call.fed_eq, Call.fed_eq, display_append_name, Text.utf8_append, Text.utf8_append,
      Text.utf8_append, hnul, hnuls]
    simp [Call.tail, WorkloadRole.text, hempty, Bytes.u32le]

/-- Two replicas of one service are fed apart. -/
theorem calls_separated_of_replicas :
    (Call.ofWithOrdinal (some 0)).fed ⟨"td", "t", .sa, "db"⟩ (some ⟨"primary"⟩) ≠
      (Call.ofWithOrdinal (some 1)).fed ⟨"td", "t", .sa, "db"⟩ (some ⟨"primary"⟩) := by
  intro h
  have hrole : ∀ r ∈ some (⟨"primary"⟩ : WorkloadRole), r.Accepted := by
    intro r hr
    rw [← Option.mem_some.mp hr]
    exact ⟨"primary", by decide⟩
  have hparts := (@calls_separated "spiffe://td/ns/t/sa/db" "spiffe://td/ns/t/sa/db"
    ⟨"td", "t", .sa, "db"⟩ ⟨"td", "t", .sa, "db"⟩ _ _ (by decide) (by decide) hrole hrole
    (.ofWithOrdinal (some 0)) (.ofWithOrdinal (some 1))).1 (.inl ⟨by decide, by decide⟩) h
  exact absurd hparts.1 (by decide)

end IdentityFingerprint

end Fleetos
