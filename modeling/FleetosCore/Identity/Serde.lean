import FleetosCore.Identity.Spiffe
import FleetosCore.Identity.Tenant
import FleetosCore.Library.Fallible

/-!
# String forms of identities, roles and tenants

The serde implementations of `SpiffeId` (`src/spiffe.rs`, written by hand) and of
`WorkloadRole` and `TenantId` (derived). The first goes through the printer and the
parser. A derived implementation of a one-field struct decodes the inner string and
wraps it, so it consults no validator.

The parser accepts exactly the printed identities that it can take apart again. The
only overlap to consider is a trust domain that ends in `/ns`, whose last slash would
be the one that opens the tenant.
-/

namespace Fleetos

/-- The text of an error, as `thiserror` derives it. -/
def SvidError.display : SvidError → String
  | .invalidFormat => "invalid SPIFFE ID format"
  | .invalidKind => "invalid SPIFFE ID kind"
  | .validationFailed => "certificate validation failed"
  | .unimplemented => "feature not implemented"
  | .delegationKeyExpired => "delegation key expired"
  | .targetSvidMismatch => "target SVID mismatch"
  | .ordinalMismatch => "ordinal mismatch"
  | .validityOverrun => "validity overrun"

def WorkloadRole.deserialize (s : String) : WorkloadRole := ⟨s⟩

def TenantId.deserialize (s : String) : TenantId := ⟨s⟩

namespace SpiffeId

def serialize (id : SpiffeId) : String := id.display

/-- The parser, with its error turned into the deserializer's custom error. -/
def deserialize (s : String) : Except String SpiffeId := (fromStr s).mapError SvidError.display

theorem deserialize_ok_iff {s : String} {id : SpiffeId} :
    deserialize s = .ok id ↔ fromStr s = .ok id := by
  rw [deserialize, Fallible.mapError_ok_iff]

/-- A `/ns/` to the left of the one after the trust domain lies inside it, or shares its
last slash with it. -/
theorem endsAtFirst_ns_iff {trustDomain : List Char} :
    Text.EndsAtFirst "/ns/".toList trustDomain ↔
      ¬ "/ns/".toList <:+: trustDomain ∧ ¬ "/ns".toList <:+ trustDomain := by
  constructor
  · intro h
    constructor
    · rintro ⟨before, after, rfl⟩
      refine h before.length (by simp) ?_
      rw [List.append_assoc, List.append_assoc, List.drop_left]
      exact List.prefix_append _ _
    · rintro ⟨before, rfl⟩
      refine h before.length (by simp) ?_
      rw [List.append_assoc, List.drop_left]
      decide
  · rintro ⟨hinside, hend⟩ i hi hoccurs
    rw [List.drop_append_of_le_length (Nat.le_of_lt hi)] at hoccurs
    have hlength : (trustDomain.drop i).length ≠ 0 := by
      rw [List.length_drop]
      omega
    have hsuffix : trustDomain.drop i <:+ trustDomain := List.drop_suffix i trustDomain
    -- The part of the trust domain from the occurrence on has one, two, three or more characters.
    match hrest : trustDomain.drop i with
    | [] => exact hlength (congrArg List.length hrest)
    | [a] =>
        rw [hrest] at hoccurs
        simp [List.cons_prefix_cons] at hoccurs
    | [a, b] =>
        rw [hrest] at hoccurs
        simp [List.cons_prefix_cons] at hoccurs
    | [a, b, c] =>
        rw [hrest] at hoccurs
        obtain ⟨rfl, rfl, rfl⟩ : a = '/' ∧ b = 'n' ∧ c = 's' := by
          simpa [List.cons_prefix_cons, eq_comm] using hoccurs
        rw [hrest] at hsuffix
        exact hend hsuffix
    | a :: b :: c :: d :: rest =>
        rw [hrest] at hoccurs
        have hleading : "/ns/".toList <+: trustDomain.drop i :=
          List.prefix_of_prefix_length_le hoccurs (hrest ▸ List.prefix_append _ _)
            (by simp [hrest])
        exact hinside (hleading.isInfix.trans hsuffix.isInfix)

/-- The parser, and with it the serde form, accepts exactly the printed identities whose
trust domain ends at the first `/ns/` and whose tenant has no slash. -/
theorem fromStr_ok_iff_printed (s : String) (id : SpiffeId) :
    (fromStr s = .ok id ↔ s = id.display ∧
      Text.EndsAtFirst "/ns/".toList id.trustDomain.toList ∧ '/' ∉ id.tenant.toList) ∧
    (deserialize s = .ok id ↔ s = id.serialize ∧
      Text.EndsAtFirst "/ns/".toList id.trustDomain.toList ∧ '/' ∉ id.tenant.toList) ∧
    (Text.EndsAtFirst "/ns/".toList id.trustDomain.toList ↔
      ¬ "/ns/".toList <:+: id.trustDomain.toList ∧ ¬ "/ns".toList <:+ id.trustDomain.toList) :=
  ⟨fromStr_ok_iff, deserialize_ok_iff.trans fromStr_ok_iff, endsAtFirst_ns_iff⟩

end SpiffeId

end Fleetos
