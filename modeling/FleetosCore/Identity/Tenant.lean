import FleetosCore.Library.Text

/-!
# Tenant identifiers

`TenantId` of `src/tenant.rs` and the predicate its checking constructor applies.
The length bound is in UTF-8 bytes.
-/

namespace Fleetos

structure TenantId where
  asStr : String
  deriving DecidableEq, Repr

namespace TenantId

def new (id : String) : Except String TenantId :=
  if id.isEmpty ∨ (Text.utf8 id).length > 64 ∨ id.toList.contains '/' ∨
      id.toList.contains '\x00' ∨ id = ".." then
    throw "Invalid tenant ID"
  else
    pure ⟨id⟩

/-- The predicate behind the check. -/
structure Valid (id : String) : Prop where
  nonempty : id ≠ ""
  short : (Text.utf8 id).length ≤ 64
  noSlash : '/' ∉ id.toList
  noNul : '\x00' ∉ id.toList
  notParent : id ≠ ".."

theorem valid_iff {id : String} :
    Valid id ↔ id ≠ "" ∧ (Text.utf8 id).length ≤ 64 ∧ '/' ∉ id.toList ∧ '\x00' ∉ id.toList ∧
      id ≠ ".." :=
  ⟨fun h => ⟨h.1, h.2, h.3, h.4, h.5⟩, fun ⟨h₁, h₂, h₃, h₄, h₅⟩ => ⟨h₁, h₂, h₃, h₄, h₅⟩⟩

instance (id : String) : Decidable (Valid id) := decidable_of_iff _ valid_iff.symm

theorem new_ok_iff {id : String} {tenant : TenantId} :
    new id = .ok tenant ↔ tenant.asStr = id ∧ Valid id := by
  rw [new]
  split
  · rename_i hbad
    constructor
    · intro h
      cases h
    · rintro ⟨-, hvalid⟩
      rcases hbad with h | h | h | h | h
      · exact absurd (String.isEmpty_iff.mp h) hvalid.nonempty
      · exact absurd hvalid.short (Nat.not_le.mpr h)
      · exact absurd (by simpa using h) hvalid.noSlash
      · exact absurd (by simpa using h) hvalid.noNul
      · exact absurd h hvalid.notParent
  · rename_i hgood
    simp only [not_or, Nat.not_lt, List.contains_iff_mem] at hgood
    obtain ⟨h₁, h₂, h₃, h₄, h₅⟩ := hgood
    constructor
    · intro h
      obtain rfl := Except.ok.inj h
      exact ⟨rfl, fun hempty => h₁ (String.isEmpty_iff.mpr hempty), h₂, h₃, h₄, h₅⟩
    · rintro ⟨rfl, -⟩
      rfl

/-- The tenant was returned by the validating constructor. -/
def Accepted (tenant : TenantId) : Prop := ∃ id, new id = .ok tenant

theorem accepted_iff {tenant : TenantId} : tenant.Accepted ↔ Valid tenant.asStr := by
  constructor
  · rintro ⟨id, h⟩
    obtain ⟨hid, hvalid⟩ := new_ok_iff.mp h
    rwa [hid]
  · intro hvalid
    exact ⟨tenant.asStr, new_ok_iff.mpr ⟨rfl, hvalid⟩⟩

theorem Accepted.zero_notMem {tenant : TenantId} (h : tenant.Accepted) :
    0 ∉ Text.utf8 tenant.asStr := by
  rw [Text.zero_mem_utf8_iff]
  exact (accepted_iff.mp h).noNul

end TenantId

end Fleetos
