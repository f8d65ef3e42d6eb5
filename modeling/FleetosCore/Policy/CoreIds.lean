import FleetosCore.Identity.Fingerprint
import FleetosCore.Policy.OperatorGrant
import FleetosCore.Policy.Sag

/-!
# Domain separation between the core ids

Four ids are truncated BLAKE3 hashes of unkeyed bytes: `SagRuleId`, `OperatorGrantId`,
`EkFingerprint` (`of_ek_pub` of `src/attestation.rs`, defined here) and
`IdentityFingerprint`. Two layouts start with a domain tag and a zero byte, one with the
URI scheme, and a rule's starts with its tenant and a zero byte.

A tenant has no slash, so it is not the start of a URI. Nothing keeps it from being a
domain tag, and then the rule's layout reads as the tagged one.
-/

namespace Fleetos

open Text (utf8)

structure EkFingerprint where
  bytes : Bytes
  deriving DecidableEq, Repr

namespace EkFingerprint

def domainTag : String := "FleetOS v1 EkFingerprint"

/-- What `of_ek_pub` feeds to the hasher, in order. -/
def fedBytes (ekPub : Bytes) : Bytes := utf8 domainTag ++ [0x00] ++ ekPub

def ofEkPub (blake3 : Bytes → Bytes) (ekPub : Bytes) : EkFingerprint :=
  ⟨(blake3 (fedBytes ekPub)).take 16⟩

theorem fedBytes_eq (ekPub : Bytes) : fedBytes ekPub = utf8 domainTag ++ 0 :: ekPub := by
  simp [fedBytes]

end EkFingerprint

/-- The part of a rule's layout after the tenant. -/
def RuleContent.afterTenant (c : RuleContent) : Bytes :=
  utf8 c.fromService ++ 0 :: (utf8 c.fromRole ++ 0 :: c.tail)

/-- One input for each of the four id constructors. -/
structure CoreIdInputs (blake3 : Bytes → Bytes) where
  tenant : TenantId
  action : SagAction
  selectors : TenantCtx → PeerSelector × PeerSelector
  grant : GrantContent
  ekPub : Bytes
  id : SpiffeId
  role : Option WorkloadRole
  tenantAccepted : tenant.Accepted
  fromRoleAccepted : ∀ r ∈ (selectors ⟨tenant⟩).1.role, r.Accepted
  toRoleAccepted : ∀ r ∈ (selectors ⟨tenant⟩).2.role, r.Accepted
  ekPubNonempty : ekPub ≠ []

namespace CoreIdInputs

variable {blake3 : Bytes → Bytes} (x : CoreIdInputs blake3)

def rule : SagRule := x.tenant.createRule blake3 x.action x.selectors

def content : RuleContent := x.rule.content x.tenant

/-- The bytes that the four constructors hash. -/
def preimages : List Bytes :=
  [x.rule.fedBytes x.tenant, x.grant.fedBytes, EkFingerprint.fedBytes x.ekPub,
    IdentityFingerprint.fedBytes x.id x.role]

/-- The four ids are the hashes of the four preimages. -/
theorem ids_eq :
    [x.rule.id.bytes,
      (OperatorGrantId.ofGrant blake3 x.grant.operatorId x.grant.grantedBy x.grant.grantedAtUnix
        x.grant.expiresAtUnix x.grant.clusterAdmin x.grant.readOnly x.grant.tenants).bytes,
      (EkFingerprint.ofEkPub blake3 x.ekPub).bytes,
      (IdentityFingerprint.of blake3 x.id x.role).bytes] =
    x.preimages.map fun preimage => (blake3 preimage).take 16 := rfl

theorem fedBytes_rule :
    x.rule.fedBytes x.tenant = utf8 x.tenant.asStr ++ 0 :: x.content.afterTenant :=
  SagRule.fedBytes_eq_content_bytes x.rule x.tenant

/-- A rule reads as a tagged layout exactly when its tenant is named like the tag. -/
theorem fedBytes_rule_eq_tagged_iff {tag : String} {rest : Bytes} (htag : '\x00' ∉ tag.toList) :
    x.rule.fedBytes x.tenant = utf8 tag ++ 0 :: rest ↔
      x.tenant.asStr = tag ∧ x.content.afterTenant = rest := by
  rw [fedBytes_rule]
  constructor
  · intro h
    obtain ⟨htenant, hrest⟩ := Bytes.field_inj x.tenantAccepted.zero_notMem
      (fun hz => htag (Text.zero_mem_utf8_iff.mp hz)) h
    exact ⟨Text.utf8_injective htenant, hrest⟩
  · rintro ⟨htenant, hrest⟩
    rw [htenant, hrest]

theorem fedBytes_rule_eq_grant_iff :
    x.rule.fedBytes x.tenant = x.grant.fedBytes ↔
      x.tenant.asStr = OperatorGrantId.domainTag ∧ x.content.afterTenant = x.grant.fields := by
  rw [GrantContent.fedBytes_eq]
  exact x.fedBytes_rule_eq_tagged_iff (by decide)

theorem fedBytes_rule_eq_ek_iff :
    x.rule.fedBytes x.tenant = EkFingerprint.fedBytes x.ekPub ↔
      x.tenant.asStr = EkFingerprint.domainTag ∧ x.content.afterTenant = x.ekPub := by
  rw [EkFingerprint.fedBytes_eq]
  exact x.fedBytes_rule_eq_tagged_iff (by decide)

theorem fedBytes_identity (id : SpiffeId) (role : Option WorkloadRole) :
    ∃ rest, IdentityFingerprint.fedBytes id role = utf8 "spiffe://" ++ rest := by
  rw [IdentityFingerprint.fedBytes_eq]
  unfold SpiffeId.display
  simp only [Text.utf8_append, List.append_assoc]
  exact ⟨_, rfl⟩

/-- The URI scheme has slashes and no zero byte, so it would lie inside the tenant. -/
theorem fedBytes_rule_ne_identity :
    x.rule.fedBytes x.tenant ≠ IdentityFingerprint.fedBytes x.id x.role := by
  intro h
  obtain ⟨rest, hrest⟩ := fedBytes_identity x.id x.role
  rw [fedBytes_rule, hrest] at h
  have hscheme := Bytes.prefix_of_append_eq (by decide) h
  have hslash : 0x2F ∈ utf8 x.tenant.asStr := hscheme.subset (by decide)
  exact (TenantId.accepted_iff.mp x.tenantAccepted).noSlash (Text.slash_mem_utf8_iff.mp hslash)

theorem fedBytes_grant_ne_ek (g : GrantContent) (ekPub : Bytes) :
    g.fedBytes ≠ EkFingerprint.fedBytes ekPub := by
  intro h
  rw [GrantContent.fedBytes_eq, EkFingerprint.fedBytes_eq] at h
  exact absurd (Bytes.field_inj (by decide) (by decide) h).1 (by decide)

/-- A domain tag does not start like a URI. -/
theorem tagged_ne_identity {tag : String} (htag : ¬ utf8 "spiffe://" <+: utf8 tag) (rest : Bytes)
    (id : SpiffeId) (role : Option WorkloadRole) :
    utf8 tag ++ 0 :: rest ≠ IdentityFingerprint.fedBytes id role := by
  intro h
  obtain ⟨tail, htail⟩ := fedBytes_identity id role
  rw [htail] at h
  exact htag (Bytes.prefix_of_append_eq (by decide) h)

/-- Only a rule against a grant and a rule against an EK can share a preimage. -/
theorem nodup_preimages_iff :
    x.preimages.Nodup ↔ x.rule.fedBytes x.tenant ≠ x.grant.fedBytes ∧
      x.rule.fedBytes x.tenant ≠ EkFingerprint.fedBytes x.ekPub := by
  have hgrant : x.grant.fedBytes ≠ IdentityFingerprint.fedBytes x.id x.role := by
    rw [GrantContent.fedBytes_eq]
    exact tagged_ne_identity (by decide) _ _ _
  have hek : EkFingerprint.fedBytes x.ekPub ≠ IdentityFingerprint.fedBytes x.id x.role := by
    rw [EkFingerprint.fedBytes_eq]
    exact tagged_ne_identity (by decide) _ _ _
  simp [preimages, x.fedBytes_rule_ne_identity, fedBytes_grant_ne_ek, hgrant, hek]

/-- The same inputs with a rule without services and roles, and what follows the tenant in
its layout as the EK. -/
def withRuleAsEk : CoreIdInputs blake3 where
  tenant := x.tenant
  action := .allow
  selectors := fun ctx => (ctx.selector "" none none, ctx.selector "" none none)
  grant := x.grant
  ekPub := [0x00, 0x00, 0x00, 0x00, 0x00, 0x00] ++ utf8 "ALLOW"
  id := x.id
  role := x.role
  tenantAccepted := x.tenantAccepted
  fromRoleAccepted := by simp [TenantCtx.selector]
  toRoleAccepted := by simp [TenantCtx.selector]
  ekPubNonempty := by simp

/-- A grant whose fields are twenty-four zero bytes up to the tenant. -/
def Sample.zeroGrant : GrantContent := ⟨"", "", 0, 0, false, false, ["ALLOW"]⟩

/-- The same inputs with that grant, and a rule with as many zero bytes: six and a service
name of eighteen. -/
def withRuleAsGrant : CoreIdInputs blake3 where
  tenant := x.tenant
  action := .allow
  selectors := fun ctx => (ctx.selector "" none none,
    ctx.selector (String.ofList (List.replicate 18 '\x00')) none none)
  grant := Sample.zeroGrant
  ekPub := x.ekPub
  id := x.id
  role := x.role
  tenantAccepted := x.tenantAccepted
  fromRoleAccepted := by simp [TenantCtx.selector]
  toRoleAccepted := by simp [TenantCtx.selector]
  ekPubNonempty := x.ekPubNonempty

theorem afterTenant_withRuleAsEk :
    x.withRuleAsEk.content.afterTenant = x.withRuleAsEk.ekPub := rfl

theorem afterTenant_withRuleAsGrant :
    x.withRuleAsGrant.content.afterTenant = x.withRuleAsGrant.grant.fields := by
  have hrule : x.withRuleAsGrant.content.afterTenant =
      0 :: 0 :: 0 :: (utf8 (String.ofList (List.replicate 18 '\x00')) ++ 0 :: 0 :: 0 ::
        utf8 "ALLOW") := rfl
  refine hrule.trans ?_
  show _ = Sample.zeroGrant.fields
  decide

/-- The four preimages are pairwise different unless the rule's tenant is named like one
of the two domain tags and the rest of the rule's layout is what follows that tag. A
tenant with another name has no rule that shares a preimage with anything, and the two
that are named like a tag do have one. -/
theorem preimages_nodup_iff :
    (x.preimages.Nodup ↔
      ¬ (x.tenant.asStr = OperatorGrantId.domainTag ∧ x.content.afterTenant = x.grant.fields) ∧
      ¬ (x.tenant.asStr = EkFingerprint.domainTag ∧ x.content.afterTenant = x.ekPub)) ∧
    ((∀ y : CoreIdInputs blake3, y.tenant = x.tenant → y.preimages.Nodup) ↔
      x.tenant.asStr ≠ OperatorGrantId.domainTag ∧ x.tenant.asStr ≠ EkFingerprint.domainTag) := by
  constructor
  · rw [nodup_preimages_iff, ne_eq, ne_eq, fedBytes_rule_eq_grant_iff, fedBytes_rule_eq_ek_iff]
  · constructor
    · intro h
      refine ⟨fun htag => ?_, fun htag => ?_⟩
      · have hne := (nodup_preimages_iff _).mp (h x.withRuleAsGrant rfl)
        exact hne.1 ((fedBytes_rule_eq_grant_iff _).mpr ⟨htag, x.afterTenant_withRuleAsGrant⟩)
      · have hne := (nodup_preimages_iff _).mp (h x.withRuleAsEk rfl)
        exact hne.2 ((fedBytes_rule_eq_ek_iff _).mpr ⟨htag, x.afterTenant_withRuleAsEk⟩)
    · rintro ⟨hgrant, hek⟩ y hy
      rw [nodup_preimages_iff]
      refine ⟨fun h => hgrant ?_, fun h => hek ?_⟩
      · rw [← hy]
        exact ((fedBytes_rule_eq_grant_iff y).mp h).1
      · rw [← hy]
        exact ((fedBytes_rule_eq_ek_iff y).mp h).1

/-- Inputs whose tenant is named like the tag of the EK fingerprint. -/
def Sample.tagTenant (blake3 : Bytes → Bytes) : CoreIdInputs blake3 where
  tenant := ⟨EkFingerprint.domainTag⟩
  action := .allow
  selectors := fun ctx => (ctx.selector "" none none, ctx.selector "" none none)
  grant := ⟨"alice", "root", 0, 3600, false, true, ["acme"]⟩
  ekPub := [0x30]
  id := ⟨"td", "acme", .sa, "db"⟩
  role := none
  tenantAccepted := ⟨_, show TenantId.new EkFingerprint.domainTag = .ok _ by decide⟩
  fromRoleAccepted := by simp [TenantCtx.selector]
  toRoleAccepted := by simp [TenantCtx.selector]
  ekPubNonempty := by simp

/-- A rule of a tenant named like the tag is hashed from the bytes of an EK. -/
theorem rule_preimage_is_ek_preimage :
    ¬ ∀ (blake3 : Bytes → Bytes) (x : CoreIdInputs blake3), x.preimages.Nodup := by
  intro h
  have hne := (nodup_preimages_iff _).mp (h (fun b => b) (Sample.tagTenant _).withRuleAsEk)
  exact hne.2 ((fedBytes_rule_eq_ek_iff _).mpr ⟨rfl, afterTenant_withRuleAsEk _⟩)

end CoreIdInputs

end Fleetos
