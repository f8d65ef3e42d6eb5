import FleetosCore.Certificate.Reader
import FleetosCore.Identity.Serde

/-!
# Every way to make a role or a tenant

`WorkloadRole` and `TenantId` have private fields, so a value comes from one of a few
public functions: the checking constructors, `extract_role` for roles, and the derived
deserializers. The separators of all id hashes rest on what the first ones check.

`RoleSource` and `TenantSource` list these functions with their arguments. All but the
deserializers keep the invariant for every argument.
-/

namespace Fleetos

/-- A public function that returns a role, with its argument. -/
inductive RoleSource where
  | tryFromString (value : String)
  | tryFromStr (value : String)
  | extractRole (certDer : Bytes)
  | deserialize (s : String)
  deriving DecidableEq, Repr

def RoleSource.value : RoleSource → Option WorkloadRole
  | .tryFromString value => (WorkloadRole.tryFrom value).toOption
  | .tryFromStr value => (WorkloadRole.tryFrom value).toOption
  | .extractRole certDer => Svid.extractRole certDer
  | .deserialize s => some (WorkloadRole.deserialize s)

/-- A public function that returns a tenant, with its argument. -/
inductive TenantSource where
  | new (id : String)
  | deserialize (s : String)
  deriving DecidableEq, Repr

def TenantSource.value : TenantSource → Option TenantId
  | .new id => (TenantId.new id).toOption
  | .deserialize s => some (TenantId.deserialize s)

theorem WorkloadRole.tryFrom_accepted {value : String} {role : WorkloadRole}
    (h : (tryFrom value).toOption = some role) : role.Accepted :=
  ⟨value, Fallible.toOption_eq_some_iff.mp h⟩

/-- The certificate reader ends in the checking constructor. -/
theorem Svid.extractRole_accepted {certDer : Bytes} {role : WorkloadRole}
    (h : extractRole certDer = some role) : role.Accepted := by
  obtain ⟨val, -, hdecode⟩ := Option.bind_eq_some_iff.mp h
  simp only [decodeRole] at hdecode
  split at hdecode
  · cases hdecode
  · split at hdecode
    · cases hdecode
    · exact WorkloadRole.tryFrom_accepted hdecode

/-- A source of roles keeps the invariant unless it deserializes a text with a NUL. -/
theorem RoleSource.accepted_iff (source : RoleSource) :
    (∀ role, source.value = some role → role.Accepted) ↔
      ∀ s, source = .deserialize s → '\x00' ∉ s.toList := by
  cases source with
  | tryFromString value => exact iff_of_true (fun _ => WorkloadRole.tryFrom_accepted) nofun
  | tryFromStr value => exact iff_of_true (fun _ => WorkloadRole.tryFrom_accepted) nofun
  | extractRole certDer => exact iff_of_true (fun _ => Svid.extractRole_accepted) nofun
  | deserialize s =>
      simp only [value, Option.some.injEq, forall_eq', deserialize.injEq,
        WorkloadRole.accepted_iff]
      rfl

/-- A source of tenants keeps the invariant unless it deserializes a text that the check
refuses. -/
theorem TenantSource.valid_iff (source : TenantSource) :
    (∀ tenant, source.value = some tenant → TenantId.Valid tenant.asStr) ↔
      ∀ s, source = .deserialize s → TenantId.Valid s := by
  cases source with
  | new id =>
      refine iff_of_true (fun tenant h => ?_) nofun
      exact TenantId.accepted_iff.mp ⟨id, Fallible.toOption_eq_some_iff.mp h⟩
  | deserialize s =>
      simp only [value, Option.some.injEq, forall_eq', deserialize.injEq]
      rfl

/-- The invariants hold of every value that a source returns, except for the
deserializers on texts that violate the predicate themselves. -/
theorem newtype_invariants_iff (roles : RoleSource) (tenants : TenantSource) :
    ((∀ role, roles.value = some role → '\x00' ∉ role.asStr.toList) ↔
      ∀ s, roles = .deserialize s → '\x00' ∉ s.toList) ∧
    ((∀ tenant, tenants.value = some tenant → TenantId.Valid tenant.asStr) ↔
      ∀ s, tenants = .deserialize s → TenantId.Valid s) := by
  refine ⟨?_, tenants.valid_iff⟩
  simp only [← WorkloadRole.accepted_iff]
  exact roles.accepted_iff

/-- A deserialized role may be a NUL, and a deserialized tenant empty. -/
theorem deserialized_newtypes_unchecked :
    (¬ ∀ (source : RoleSource) (role : WorkloadRole), source.value = some role →
      '\x00' ∉ role.asStr.toList) ∧
    ¬ ∀ (source : TenantSource) (tenant : TenantId), source.value = some tenant →
      TenantId.Valid tenant.asStr := by
  constructor
  · intro h
    exact absurd (h (.deserialize "\x00") ⟨"\x00"⟩ rfl) (by decide)
  · intro h
    exact absurd rfl (h (.deserialize "") ⟨""⟩ rfl).nonempty

end Fleetos
