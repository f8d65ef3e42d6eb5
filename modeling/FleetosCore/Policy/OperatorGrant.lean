import FleetosCore.Identity.Tenant
import FleetosCore.Library.Canonical

/-!
# Operator grants and their content-derived ids

`OperatorGrantId::of_grant` of `src/operator.rs`. A grant id is a truncated BLAKE3 hash
of a domain tag, two texts, two timestamps, two flags and the granted tenants. The
tenants are a set: they are sorted by their bytes and deduplicated before they are
joined.

The two timestamps contain zero bytes, but they and the flags have a fixed width. So the
layout is read from the front, field by field, up to the joined tenants.
-/

namespace Fleetos

open Text (utf8)

structure OperatorGrantId where
  bytes : Bytes
  deriving DecidableEq, Repr

namespace OperatorGrantId

def domainTag : String := "FleetOS v1 OperatorGrantId"

/-- The loop over the canonical tenants: a separator in front of all but the first. -/
def feedTenants (hasher : Bytes) (canonical : List String) : Bytes :=
  canonical.zipIdx.foldl
    (fun hasher (tenant, i) => (if i > 0 then hasher ++ [0x00] else hasher) ++ utf8 tenant) hasher

/-- What `of_grant` feeds to the hasher, in order. -/
def fedBytes (operatorId grantedBy : String) (grantedAtUnix expiresAtUnix : UInt64)
    (clusterAdmin readOnly : Bool) (tenants : List String) : Bytes :=
  let hasher := utf8 domainTag ++ [0x00] ++ utf8 operatorId ++ [0x00] ++ utf8 grantedBy ++
    [0x00] ++ Bytes.u64le grantedAtUnix ++ [0x00] ++ Bytes.u64le expiresAtUnix ++ [0x00] ++
    [clusterAdmin.toUInt8] ++ [0x00] ++ [readOnly.toUInt8] ++ [0x00]
  let canonical := Canonical.canonical Text.ByteLe tenants
  feedTenants hasher canonical

def ofGrant (blake3 : Bytes → Bytes) (operatorId grantedBy : String)
    (grantedAtUnix expiresAtUnix : UInt64) (clusterAdmin readOnly : Bool)
    (tenants : List String) : OperatorGrantId :=
  ⟨(blake3 (fedBytes operatorId grantedBy grantedAtUnix expiresAtUnix clusterAdmin readOnly
    tenants)).take 16⟩

/-- Behind the first tenant the loop puts a separator in front of each. -/
theorem foldl_zipIdx_succ (l : List String) (hasher : Bytes) (k : Nat) :
    (l.zipIdx (k + 1)).foldl
        (fun hasher (tenant, i) => (if i > 0 then hasher ++ [0x00] else hasher) ++ utf8 tenant)
        hasher =
      hasher ++ l.flatMap fun tenant => 0x00 :: utf8 tenant := by
  induction l generalizing hasher k with
  | nil => simp
  | cons tenant l ih =>
      rw [List.zipIdx_cons, List.foldl_cons, ih]
      simp

/-- The loop joins the tenants. -/
theorem feedTenants_eq (hasher : Bytes) (canonical : List String) :
    feedTenants hasher canonical = hasher ++ [0x00].intercalate (canonical.map utf8) := by
  cases canonical with
  | nil => simp [feedTenants]
  | cons tenant l =>
      rw [feedTenants, List.zipIdx_cons, List.foldl_cons, foldl_zipIdx_succ, List.map_cons,
        Canonical.intercalate_cons, List.flatMap_map]
      simp

end OperatorGrantId

/-- The arguments of `of_grant`. -/
structure GrantContent where
  operatorId : String
  grantedBy : String
  grantedAtUnix : UInt64
  expiresAtUnix : UInt64
  clusterAdmin : Bool
  readOnly : Bool
  tenants : List String
  deriving DecidableEq, Repr

namespace GrantContent

def fedBytes (g : GrantContent) : Bytes :=
  OperatorGrantId.fedBytes g.operatorId g.grantedBy g.grantedAtUnix g.expiresAtUnix g.clusterAdmin
    g.readOnly g.tenants

def joinedTenants (g : GrantContent) : Bytes :=
  [0x00].intercalate ((Canonical.canonical Text.ByteLe g.tenants).map utf8)

/-- The part of the layout after the domain tag. -/
def fields (g : GrantContent) : Bytes :=
  utf8 g.operatorId ++ 0 :: (utf8 g.grantedBy ++ 0 :: (Bytes.u64le g.grantedAtUnix ++ 0 ::
    (Bytes.u64le g.expiresAtUnix ++ 0 :: (g.clusterAdmin.toUInt8 :: 0 ::
      (g.readOnly.toUInt8 :: 0 :: g.joinedTenants)))))

theorem fedBytes_eq (g : GrantContent) :
    g.fedBytes = utf8 OperatorGrantId.domainTag ++ 0 :: g.fields := by
  simp only [fedBytes, OperatorGrantId.fedBytes, OperatorGrantId.feedTenants_eq, fields,
    joinedTenants, List.append_assoc, List.cons_append, List.nil_append]

/-- What a grant's texts were checked for before its id is computed. -/
structure Checked (g : GrantContent) : Prop where
  operatorId : '\x00' ∉ g.operatorId.toList
  grantedBy : '\x00' ∉ g.grantedBy.toList
  tenants : ∀ t ∈ g.tenants, ∃ tenant, TenantId.new t = .ok tenant

theorem Checked.canonical {g : GrantContent} (h : g.Checked) :
    ∀ x ∈ (Canonical.canonical Text.ByteLe g.tenants).map utf8, x ≠ [] ∧ 0 ∉ x := by
  intro x hx
  obtain ⟨t, ht, rfl⟩ := List.mem_map.mp hx
  obtain ⟨tenant, hnew⟩ := h.tenants t (Canonical.mem_canonical.mp ht)
  have hvalid := (TenantId.new_ok_iff.mp hnew).2
  refine ⟨fun hnil => hvalid.nonempty (Text.utf8_injective hnil), ?_⟩
  rw [Text.zero_mem_utf8_iff]
  exact hvalid.noNul

/-- The joined tenants determine their set. -/
theorem joinedTenants_eq_iff {g h : GrantContent} (hg : g.Checked) (hh : h.Checked) :
    g.joinedTenants = h.joinedTenants ↔ ∀ t, t ∈ g.tenants ↔ t ∈ h.tenants := by
  rw [← Canonical.canonical_eq_iff (r := Text.ByteLe)]
  constructor
  · intro heq
    have hmap := Canonical.intercalate_injective hg.canonical hh.canonical heq
    exact List.map_injective_iff.mpr (fun _ _ => Text.utf8_injective) hmap
  · intro heq
    rw [joinedTenants, joinedTenants, heq]

theorem toUInt8_injective {a b : Bool} (h : a.toUInt8 = b.toUInt8) : a = b := by
  cases a <;> cases b <;> first | rfl | cases h

/-- The bytes hashed for two grants are equal exactly when all six scalar fields are
equal and the two tenant lists have the same elements. -/
theorem fedBytes_eq_iff {g h : GrantContent} (hg : g.Checked) (hh : h.Checked) :
    g.fedBytes = h.fedBytes ↔
      g.operatorId = h.operatorId ∧ g.grantedBy = h.grantedBy ∧
      g.grantedAtUnix = h.grantedAtUnix ∧ g.expiresAtUnix = h.expiresAtUnix ∧
      g.clusterAdmin = h.clusterAdmin ∧ g.readOnly = h.readOnly ∧
      ∀ t, t ∈ g.tenants ↔ t ∈ h.tenants := by
  rw [fedBytes_eq, fedBytes_eq, ← joinedTenants_eq_iff hg hh]
  constructor
  · intro heq
    obtain ⟨-, heq⟩ := List.cons.inj (List.append_cancel_left heq)
    have hfree : ∀ {s : String}, '\x00' ∉ s.toList → 0 ∉ utf8 s := fun h hz =>
      h (Text.zero_mem_utf8_iff.mp hz)
    obtain ⟨hoperator, heq⟩ := Bytes.field_inj (hfree hg.operatorId) (hfree hh.operatorId) heq
    obtain ⟨hby, heq⟩ := Bytes.field_inj (hfree hg.grantedBy) (hfree hh.grantedBy) heq
    -- From here on every field has a fixed width, so the zero bytes inside do not matter.
    obtain ⟨hat, heq⟩ := List.append_inj heq (by simp)
    obtain ⟨-, heq⟩ := List.cons.inj heq
    obtain ⟨hexpires, heq⟩ := List.append_inj heq (by simp)
    simp only [List.cons.injEq, true_and] at heq
    obtain ⟨hadmin, hread, htenants⟩ := heq
    exact ⟨Text.utf8_injective hoperator, Text.utf8_injective hby, Bytes.u64le_injective hat,
      Bytes.u64le_injective hexpires, toUInt8_injective hadmin, toUInt8_injective hread, htenants⟩
  · rintro ⟨hoperator, hby, hat, hexpires, hadmin, hread, htenants⟩
    rw [fields, fields, hoperator, hby, hat, hexpires, hadmin, hread, htenants]

/-- A grant of `tenants` by `root` to `alice`. -/
def Sample.toAlice (tenants : List String) : GrantContent where
  operatorId := "alice"
  grantedBy := "root"
  grantedAtUnix := 0
  expiresAtUnix := 3600
  clusterAdmin := false
  readOnly := true
  tenants := tenants

/-- Order and repetitions of the tenants do not matter. -/
theorem fedBytes_toAlice_reordered :
    (Sample.toAlice ["b", "a", "b"]).fedBytes = (Sample.toAlice ["a", "b"]).fedBytes := by
  have hnew : ∀ t ∈ ["b", "a", "b"], ∃ tenant, TenantId.new t = .ok tenant := by
    intro t ht
    refine ⟨⟨t⟩, ?_⟩
    revert t
    decide
  refine (fedBytes_eq_iff ⟨by decide, by decide, hnew⟩
    ⟨by decide, by decide, fun t ht => hnew t (List.mem_cons_of_mem _ ht)⟩).mpr ?_
  refine ⟨rfl, rfl, rfl, rfl, rfl, rfl, fun t => ?_⟩
  simp only [Sample.toAlice, List.mem_cons, List.not_mem_nil, or_false]
  tauto

end GrantContent

end Fleetos
