import FleetosCore.Identity.Spiffe
import FleetosCore.Identity.Tenant

/-!
# Service authorization rules and their content-derived ids

`PeerSelector`, `SagRule`, `TenantId::create_rule` and `SagRuleId::of_rule` of
`src/policy.rs`. A rule id is a truncated BLAKE3 hash of the rule's fields with a
zero byte after each but the last. Ports are optional and, when present, two raw
big-endian bytes that may themselves be zero.

The layout is therefore not a sequence of separator-free fields, and it is decoded
here from both ends: everything before the from-port and after the to-port is
determined, and what can still be realigned between them is described exactly.
-/

namespace Fleetos

open Text (utf8)

structure ServicePattern where
  tenant : TenantId
  name : String
  deriving DecidableEq, Repr

structure PeerSelector where
  service : ServicePattern
  role : Option WorkloadRole
  port : Option UInt16
  deriving DecidableEq, Repr

inductive SagAction where
  | allow
  | deny
  deriving DecidableEq, Repr

def SagAction.asStr : SagAction → String
  | .allow => "ALLOW"
  | .deny => "DENY"

structure SagRuleId where
  bytes : Bytes
  deriving DecidableEq, Repr

structure SagRule where
  id : SagRuleId
  fromPeer : PeerSelector
  toPeer : PeerSelector
  action : SagAction
  deriving DecidableEq, Repr

/-- The bytes of an optional role. -/
def roleBytes : Option WorkloadRole → Bytes
  | some r => utf8 r.asStr
  | none => []

/-- The bytes of an optional port. -/
def portBytes : Option UInt16 → Bytes
  | some p => Bytes.u16be p
  | none => []

/-- What `of_rule` feeds to the hasher, in order. -/
def SagRuleId.fedBytes (tenant fromService : String) (fromRole : Option WorkloadRole)
    (fromPort : Option UInt16) (toService : String) (toRole : Option WorkloadRole)
    (toPort : Option UInt16) (action : String) : Bytes :=
  utf8 tenant ++ [0x00] ++ utf8 fromService ++ [0x00] ++ roleBytes fromRole ++ [0x00] ++
    portBytes fromPort ++ [0x00] ++ utf8 toService ++ [0x00] ++ roleBytes toRole ++ [0x00] ++
    portBytes toPort ++ [0x00] ++ utf8 action

def SagRuleId.ofRule (blake3 : Bytes → Bytes) (tenant fromService : String)
    (fromRole : Option WorkloadRole) (fromPort : Option UInt16) (toService : String)
    (toRole : Option WorkloadRole) (toPort : Option UInt16) (action : String) : SagRuleId :=
  ⟨(blake3 (fedBytes tenant fromService fromRole fromPort toService toRole toPort action)).take 16⟩

structure TenantCtx where
  tenant : TenantId

namespace TenantCtx

def service (ctx : TenantCtx) (name : String) : ServicePattern := ⟨ctx.tenant, name⟩

def selector (ctx : TenantCtx) (name : String) (role : Option WorkloadRole)
    (port : Option UInt16) : PeerSelector :=
  ⟨ctx.service name, role, port⟩

end TenantCtx

def TenantId.createRule (blake3 : Bytes → Bytes) (tenant : TenantId) (action : SagAction)
    (f : TenantCtx → PeerSelector × PeerSelector) : SagRule :=
  let ctx : TenantCtx := ⟨tenant⟩
  let (fromPeer, toPeer) := f ctx
  let id := SagRuleId.ofRule blake3 tenant.asStr fromPeer.service.name fromPeer.role fromPeer.port
    toPeer.service.name toPeer.role toPeer.port action.asStr
  ⟨id, fromPeer, toPeer, action⟩

/-! ## The content an id is meant to reflect -/

/-- The eight fields of a rule; an absent role is the empty text. -/
@[ext]
structure RuleContent where
  tenant : String
  fromService : String
  fromRole : String
  fromPort : Option UInt16
  toService : String
  toRole : String
  toPort : Option UInt16
  action : SagAction
  deriving DecidableEq, Repr

/-- The content of a rule created by a tenant. -/
def SagRule.content (rule : SagRule) (tenant : TenantId) : RuleContent where
  tenant := tenant.asStr
  fromService := rule.fromPeer.service.name
  fromRole := WorkloadRole.text rule.fromPeer.role
  fromPort := rule.fromPeer.port
  toService := rule.toPeer.service.name
  toRole := WorkloadRole.text rule.toPeer.role
  toPort := rule.toPeer.port
  action := rule.action

/-- The bytes hashed into the id of a rule created by a tenant. -/
def SagRule.fedBytes (rule : SagRule) (tenant : TenantId) : Bytes :=
  SagRuleId.fedBytes tenant.asStr rule.fromPeer.service.name rule.fromPeer.role
    rule.fromPeer.port rule.toPeer.service.name rule.toPeer.role rule.toPeer.port
    rule.action.asStr

namespace RuleContent

/-- The fields the layout treats as separator-free. -/
structure NulFree (c : RuleContent) : Prop where
  tenant : 0 ∉ utf8 c.tenant
  fromService : 0 ∉ utf8 c.fromService
  fromRole : 0 ∉ utf8 c.fromRole
  toService : 0 ∉ utf8 c.toService
  toRole : 0 ∉ utf8 c.toRole

/-- The part of the layout after the from-role. -/
def tail (c : RuleContent) : Bytes :=
  portBytes c.fromPort ++ 0 :: (utf8 c.toService ++ 0 :: (utf8 c.toRole ++ 0 ::
    (portBytes c.toPort ++ 0 :: utf8 c.action.asStr)))

def bytes (c : RuleContent) : Bytes :=
  utf8 c.tenant ++ 0 :: (utf8 c.fromService ++ 0 :: (utf8 c.fromRole ++ 0 :: c.tail))

/-- Two contents with one layout. The first has no from-port, the second one below
256 whose zero high byte is read as the separator; every field up to the to-port
then shifts by one, and the second has no to-port. -/
inductive Realigned (c d : RuleContent) : Prop where
  /-- The low byte of the from-port is the whole to-service of the other rule, and
  the high byte of its to-port is the whole to-role. -/
  | shifted (fromPort toPort : UInt16) (lo hi : UInt8)
      (hc : c.fromPort = none) (hd : d.fromPort = some fromPort)
      (hfrom : Bytes.u16be fromPort = [0, lo]) (hlo : utf8 c.toService = [lo])
      (hrole : c.toRole = d.toService)
      (hcto : c.toPort = some toPort) (hto : Bytes.u16be toPort = [hi, 0])
      (hhi : utf8 d.toRole = [hi]) (hdto : d.toPort = none)
      (same : c.tenant = d.tenant ∧ c.fromService = d.fromService ∧ c.fromRole = d.fromRole ∧
        c.action = d.action)
  /-- Port zero against no port, with nothing between the two ports. -/
  | zero (hc : c.fromPort = none) (hd : d.fromPort = some 0)
      (hcs : c.toService = "") (hds : d.toService = "") (hcr : c.toRole = "") (hdr : d.toRole = "")
      (hcto : c.toPort = some 0) (hdto : d.toPort = none)
      (same : c.tenant = d.tenant ∧ c.fromService = d.fromService ∧ c.fromRole = d.fromRole ∧
        c.action = d.action)

@[simp] theorem portBytes_none : portBytes none = [] := rfl

@[simp] theorem portBytes_some (p : UInt16) : portBytes (some p) = Bytes.u16be p := rfl

theorem portBytes_length (port : Option UInt16) :
    (portBytes port).length = 0 ∨ (portBytes port).length = 2 := by
  cases port with
  | none => exact .inl rfl
  | some p => exact .inr rfl

theorem portBytes_injective {p q : Option UInt16} (h : portBytes p = portBytes q) : p = q := by
  cases p with
  | none =>
      cases q with
      | none => rfl
      | some q => cases h
  | some p =>
      cases q with
      | none => cases h
      | some q => rw [Bytes.u16be_injective h]

theorem portBytes_eq_nil {port : Option UInt16} (h : portBytes port = []) : port = none :=
  portBytes_injective (q := none) h

theorem portBytes_eq_pair {port : Option UInt16} {a b : UInt8} (h : portBytes port = [a, b]) :
    ∃ p, port = some p ∧ Bytes.u16be p = [a, b] := by
  cases port with
  | none => cases h
  | some p => exact ⟨p, rfl, h⟩

theorem zero_notMem_action (action : SagAction) : 0 ∉ utf8 action.asStr := by
  cases action <;> decide

theorem asStr_injective {a b : SagAction} (h : utf8 a.asStr = utf8 b.asStr) : a = b := by
  cases a <;> cases b <;> first | rfl | exact absurd h (by decide)

/-- The tenant, from-service and from-role are read off the front. -/
theorem bytes_eq_iff {c d : RuleContent} (hc : c.NulFree) (hd : d.NulFree) :
    c.bytes = d.bytes ↔
      (c.tenant = d.tenant ∧ c.fromService = d.fromService ∧ c.fromRole = d.fromRole) ∧
        c.tail = d.tail := by
  constructor
  · intro h
    obtain ⟨htenant, h⟩ := Bytes.field_inj hc.tenant hd.tenant h
    obtain ⟨hservice, h⟩ := Bytes.field_inj hc.fromService hd.fromService h
    obtain ⟨hrole, h⟩ := Bytes.field_inj hc.fromRole hd.fromRole h
    exact ⟨⟨Text.utf8_injective htenant, Text.utf8_injective hservice,
      Text.utf8_injective hrole⟩, h⟩
  · rintro ⟨⟨htenant, hservice, hrole⟩, htail⟩
    rw [bytes, bytes, htenant, hservice, hrole, htail]

/-- With one from-port, the layout has one reading. -/
theorem eq_of_fromPort_eq {c d : RuleContent} (hc : c.NulFree) (hd : d.NulFree)
    (same : c.tenant = d.tenant ∧ c.fromService = d.fromService ∧ c.fromRole = d.fromRole)
    (hport : c.fromPort = d.fromPort) (h : c.tail = d.tail) : c = d := by
  simp only [tail, hport] at h
  obtain ⟨-, h⟩ := List.cons.inj (List.append_cancel_left h)
  obtain ⟨hservice, h⟩ := Bytes.field_inj hc.toService hd.toService h
  obtain ⟨hrole, h⟩ := Bytes.field_inj hc.toRole hd.toRole h
  obtain ⟨hto, haction⟩ :=
    Bytes.last_field_inj (zero_notMem_action _) (zero_notMem_action _) h
  exact RuleContent.ext same.1 same.2.1 same.2.2 hport (Text.utf8_injective hservice)
    (Text.utf8_injective hrole) (portBytes_injective hto) (asStr_injective haction)

/-- With the action taken off the back, what is left between a missing from-port and
the action of `c` is the low from-port byte of `d` and what follows it. -/
theorem middle_eq {c d : RuleContent} {fromPort : UInt16} (hc : c.fromPort = none)
    (hd : d.fromPort = some fromPort) (h : c.tail = d.tail) :
    ∃ lo, Bytes.u16be fromPort = [0, lo] ∧ c.action = d.action ∧
      utf8 c.toService ++ 0 :: (utf8 c.toRole ++ 0 :: portBytes c.toPort) =
        lo :: 0 :: (utf8 d.toService ++ 0 :: (utf8 d.toRole ++ 0 :: portBytes d.toPort)) := by
  simp only [tail, hc, hd, portBytes_none, portBytes_some, Bytes.u16be, List.nil_append,
    List.cons_append] at h
  obtain ⟨hhi, h⟩ := List.cons.inj h
  have hback : (utf8 c.toService ++ 0 :: (utf8 c.toRole ++ 0 :: portBytes c.toPort)) ++
        0 :: utf8 c.action.asStr =
      (UInt8.ofNat fromPort.toNat :: 0 :: (utf8 d.toService ++ 0 :: (utf8 d.toRole ++ 0 ::
        portBytes d.toPort))) ++ 0 :: utf8 d.action.asStr := by
    simpa only [List.append_assoc, List.cons_append] using h
  obtain ⟨hmiddle, haction⟩ :=
    Bytes.last_field_inj (zero_notMem_action _) (zero_notMem_action _) hback
  exact ⟨_, by rw [Bytes.u16be, ← hhi], asStr_injective haction, hmiddle⟩

/-- A missing from-port against a present one leaves only the two realignments. -/
theorem realigned_of_tail_eq {c d : RuleContent} {fromPort : UInt16} (hnc : c.NulFree)
    (hnd : d.NulFree) (hc : c.fromPort = none) (hd : d.fromPort = some fromPort)
    (same : c.tenant = d.tenant ∧ c.fromService = d.fromService ∧ c.fromRole = d.fromRole)
    (h : c.tail = d.tail) : Realigned c d := by
  obtain ⟨lo, hfrom, haction, hmiddle⟩ := middle_eq hc hd h
  have hsame : c.tenant = d.tenant ∧ c.fromService = d.fromService ∧ c.fromRole = d.fromRole ∧
      c.action = d.action := ⟨same.1, same.2.1, same.2.2, haction⟩
  by_cases hlo : lo = 0
  · -- The second zero byte closes the to-service as well: both sides are empty there.
    subst hlo
    obtain ⟨hservice, hmiddle⟩ :=
      Bytes.field_inj (y := []) hnc.toService List.not_mem_nil hmiddle
    obtain ⟨hrole, hport⟩ := Bytes.field_inj (y := []) hnc.toRole List.not_mem_nil hmiddle
    have hlen := congrArg List.length hport
    simp only [List.length_append, List.length_cons] at hlen
    have hbound := portBytes_length c.toPort
    have hds : utf8 d.toService = [] := List.eq_nil_of_length_eq_zero (by omega)
    have hdr : utf8 d.toRole = [] := List.eq_nil_of_length_eq_zero (by omega)
    have hdp : portBytes d.toPort = [] := List.eq_nil_of_length_eq_zero (by omega)
    rw [hds, hdr, hdp] at hport
    obtain ⟨toPort, hcto, hto⟩ := portBytes_eq_pair hport
    have hfrom0 : fromPort = 0 := Bytes.u16be_injective (hfrom.trans (by decide))
    have hto0 : toPort = 0 := Bytes.u16be_injective (hto.trans (by decide))
    exact .zero hc (by rw [hd, hfrom0]) (Text.utf8_injective hservice)
      (Text.utf8_injective hds) (Text.utf8_injective hrole) (Text.utf8_injective hdr)
      (by rw [hcto, hto0]) (portBytes_eq_nil hdp) hsame
  · obtain ⟨hservice, hmiddle⟩ := Bytes.field_inj (y := [lo]) hnc.toService
      (by simpa using Ne.symm hlo) hmiddle
    obtain ⟨hrole, hport⟩ := Bytes.field_inj hnc.toRole hnd.toService hmiddle
    have hlen := congrArg List.length hport
    simp only [List.length_append, List.length_cons] at hlen
    have hbound := portBytes_length c.toPort
    have hbound' := portBytes_length d.toPort
    have hdp : portBytes d.toPort = [] := List.eq_nil_of_length_eq_zero (by omega)
    obtain ⟨hi, hhi⟩ := List.length_eq_one_iff.mp (show (utf8 d.toRole).length = 1 by omega)
    rw [hhi, hdp] at hport
    obtain ⟨toPort, hcto, hto⟩ := portBytes_eq_pair hport
    exact .shifted fromPort toPort lo hi hc hd hfrom hservice (Text.utf8_injective hrole) hcto hto
      hhi (portBytes_eq_nil hdp) hsame

theorem Realigned.tail_eq {c d : RuleContent} (h : Realigned c d) : c.tail = d.tail := by
  cases h with
  | shifted fromPort toPort lo hi hc hd hfrom hlo hrole hcto hto hhi hdto same =>
      simp [tail, hc, hd, hcto, hdto, hfrom, hto, hlo, hhi, hrole, same.2.2.2]
  | zero hc hd hcs hds hcr hdr hcto hdto same =>
      simp only [tail, hc, hd, hcto, hdto, hcs, hds, hcr, hdr, portBytes, same.2.2.2]
      rfl

theorem Realigned.prefix_eq {c d : RuleContent} (h : Realigned c d) :
    c.tenant = d.tenant ∧ c.fromService = d.fromService ∧ c.fromRole = d.fromRole := by
  cases h with
  | shifted _ _ _ _ _ _ _ _ _ _ _ _ _ same => exact ⟨same.1, same.2.1, same.2.2.1⟩
  | zero _ _ _ _ _ _ _ _ same => exact ⟨same.1, same.2.1, same.2.2.1⟩

theorem Realigned.ne {c d : RuleContent} (h : Realigned c d) : c ≠ d := by
  rintro rfl
  cases h with
  | shifted _ _ _ _ hc hd => cases hc.symm.trans hd
  | zero hc hd => cases hc.symm.trans hd

/-- Equal layouts are equal contents or one of the two realignments. -/
theorem eq_or_realigned_of_bytes_eq {c d : RuleContent} (hc : c.NulFree) (hd : d.NulFree)
    (h : c.bytes = d.bytes) : c = d ∨ Realigned c d ∨ Realigned d c := by
  obtain ⟨same, htail⟩ := (bytes_eq_iff hc hd).mp h
  cases hcp : c.fromPort with
  | none =>
      cases hdp : d.fromPort with
      | none => exact .inl (eq_of_fromPort_eq hc hd same (hcp.trans hdp.symm) htail)
      | some q => exact .inr (.inl (realigned_of_tail_eq hc hd hcp hdp same htail))
  | some p =>
      cases hdp : d.fromPort with
      | none =>
          exact .inr (.inr (realigned_of_tail_eq hd hc hdp hcp
            ⟨same.1.symm, same.2.1.symm, same.2.2.symm⟩ htail.symm))
      | some q =>
          -- Two present ports occupy two bytes each, so they are compared byte for byte.
          have hbytes := htail
          simp only [tail, hcp, hdp, portBytes_some] at hbytes
          obtain rfl := Bytes.u16be_injective (List.append_inj_left hbytes rfl)
          exact .inl (eq_of_fromPort_eq hc hd same (hcp.trans hdp.symm) htail)

/-- Equal layouts mean equal contents except for the two realignments. -/
theorem bytes_eq_imp_eq_iff {c d : RuleContent} (hc : c.NulFree) (hd : d.NulFree) :
    (c.bytes = d.bytes → c = d) ↔ ¬ Realigned c d ∧ ¬ Realigned d c := by
  constructor
  · intro h
    refine ⟨fun hr => hr.ne (h ?_), fun hr => hr.ne.symm (h ?_)⟩
    · exact (bytes_eq_iff hc hd).mpr ⟨hr.prefix_eq, hr.tail_eq⟩
    · exact ((bytes_eq_iff hd hc).mpr ⟨hr.prefix_eq, hr.tail_eq⟩).symm
  · rintro ⟨hcd, hdc⟩ hbytes
    rcases eq_or_realigned_of_bytes_eq hc hd hbytes with heq | hr | hr
    · exact heq
    · exact absurd hr hcd
    · exact absurd hr hdc

end RuleContent

namespace SagRule

theorem utf8_roleText (role : Option WorkloadRole) :
    utf8 (WorkloadRole.text role) = roleBytes role := by
  cases role with
  | none => rfl
  | some r => rfl

theorem fedBytes_eq_content_bytes (rule : SagRule) (tenant : TenantId) :
    rule.fedBytes tenant = (rule.content tenant).bytes := by
  simp only [fedBytes, SagRuleId.fedBytes, RuleContent.bytes, RuleContent.tail, content,
    utf8_roleText, List.append_assoc, List.cons_append, List.nil_append]

/-- What a rule's fields were checked for before the rule was created. -/
structure Checked (rule : SagRule) (tenant : TenantId) : Prop where
  tenant : tenant.Accepted
  fromRole : ∀ r ∈ rule.fromPeer.role, r.Accepted
  toRole : ∀ r ∈ rule.toPeer.role, r.Accepted
  fromService : '\x00' ∉ rule.fromPeer.service.name.toList
  toService : '\x00' ∉ rule.toPeer.service.name.toList

theorem Checked.nulFree {rule : SagRule} {tenant : TenantId} (h : rule.Checked tenant) :
    (rule.content tenant).NulFree where
  tenant := h.tenant.zero_notMem
  fromService := fun hz => h.fromService (Text.zero_mem_utf8_iff.mp hz)
  fromRole := WorkloadRole.zero_notMem_text h.fromRole
  toService := fun hz => h.toService (Text.zero_mem_utf8_iff.mp hz)
  toRole := WorkloadRole.zero_notMem_text h.toRole

end SagRule

/-- A rule made by `create_rule` from checked fields. -/
structure CreatedRule (blake3 : Bytes → Bytes) where
  tenant : TenantId
  rule : SagRule
  created : ∃ action f, rule = tenant.createRule blake3 action f
  checked : rule.Checked tenant

namespace CreatedRule

variable {blake3 : Bytes → Bytes}

def content (r : CreatedRule blake3) : RuleContent := r.rule.content r.tenant

def fedBytes (r : CreatedRule blake3) : Bytes := r.rule.fedBytes r.tenant

theorem id_eq (r : CreatedRule blake3) : r.rule.id = ⟨(blake3 r.fedBytes).take 16⟩ := by
  obtain ⟨action, f, hrule⟩ := r.created
  rw [fedBytes, hrule]
  rfl

/-- The hashed bytes of two rules determine their content exactly when neither
realigns to the other. -/
theorem fedBytes_determines_content_iff (r₁ r₂ : CreatedRule blake3) :
    (r₁.fedBytes = r₂.fedBytes → r₁.content = r₂.content) ↔
      ¬ RuleContent.Realigned r₁.content r₂.content ∧
        ¬ RuleContent.Realigned r₂.content r₁.content := by
  rw [fedBytes, fedBytes, SagRule.fedBytes_eq_content_bytes, SagRule.fedBytes_eq_content_bytes]
  exact RuleContent.bytes_eq_imp_eq_iff r₁.checked.nulFree r₂.checked.nulFree

/-- `api` may reach service `P` as role `db` on port 0x4100. -/
def wildcardFrom (blake3 : Bytes → Bytes) : CreatedRule blake3 where
  tenant := ⟨"acme"⟩
  rule := TenantId.createRule blake3 ⟨"acme"⟩ .allow fun ctx =>
    (ctx.selector "api" none none, ctx.selector "P" (some ⟨"db"⟩) (some 0x4100))
  created := ⟨_, _, rfl⟩
  checked :=
    { tenant := ⟨"acme", by decide⟩
      fromRole := by simp [TenantId.createRule, TenantCtx.selector]
      toRole := fun r hr => ⟨"db", by obtain rfl := Option.mem_some.mp hr; decide⟩
      fromService := show '\x00' ∉ "api".toList by decide
      toService := show '\x00' ∉ "P".toList by decide }

/-- `api` on port 80 may reach service `db` as role `A` on any port. -/
def exactFrom (blake3 : Bytes → Bytes) : CreatedRule blake3 where
  tenant := ⟨"acme"⟩
  rule := TenantId.createRule blake3 ⟨"acme"⟩ .allow fun ctx =>
    (ctx.selector "api" none (some 80), ctx.selector "db" (some ⟨"A"⟩) none)
  created := ⟨_, _, rfl⟩
  checked :=
    { tenant := ⟨"acme", by decide⟩
      fromRole := by simp [TenantId.createRule, TenantCtx.selector]
      toRole := fun r hr => ⟨"A", by obtain rfl := Option.mem_some.mp hr; decide⟩
      fromService := show '\x00' ∉ "api".toList by decide
      toService := show '\x00' ∉ "db".toList by decide }

/-- Two rules about different services share their hashed bytes, hence their id. -/
theorem distinct_rules_share_fedBytes :
    ¬ ∀ (blake3 : Bytes → Bytes) (r₁ r₂ : CreatedRule blake3),
      r₁.fedBytes = r₂.fedBytes → r₁.content = r₂.content := by
  intro h
  have hcontent := h id (wildcardFrom id) (exactFrom id) (by decide)
  exact absurd hcontent (by decide)

end CreatedRule

/-! ## Rules and their tenant -/

/-- Both ends of a rule belong to the tenant, and the id is that of what the rule stores. -/
structure SagRule.WithinTenant (blake3 : Bytes → Bytes) (rule : SagRule) (tenant : TenantId) :
    Prop where
  fromTenant : rule.fromPeer.service.tenant = tenant
  toTenant : rule.toPeer.service.tenant = tenant
  storedId : rule.id = SagRuleId.ofRule blake3 rule.fromPeer.service.tenant.asStr
    rule.fromPeer.service.name rule.fromPeer.role rule.fromPeer.port rule.toPeer.service.name
    rule.toPeer.role rule.toPeer.port rule.action.asStr

/-- The selector is one that this context hands out. -/
def TenantCtx.Builds (ctx : TenantCtx) (peer : PeerSelector) : Prop :=
  ∃ name role port, peer = ctx.selector name role port

theorem TenantCtx.builds_iff {ctx : TenantCtx} {peer : PeerSelector} :
    ctx.Builds peer ↔ peer.service.tenant = ctx.tenant := by
  constructor
  · rintro ⟨name, role, port, rfl⟩
    rfl
  · intro h
    refine ⟨peer.service.name, peer.role, peer.port, ?_⟩
    rw [selector, service, ← h]

/-- A created rule stays within its tenant exactly when the closure returns two selectors
of the context it was given. -/
theorem TenantId.createRule_withinTenant_iff (blake3 : Bytes → Bytes) (tenant : TenantId)
    (action : SagAction) (f : TenantCtx → PeerSelector × PeerSelector) :
    (tenant.createRule blake3 action f).WithinTenant blake3 tenant ↔
      (TenantCtx.mk tenant).Builds (f ⟨tenant⟩).1 ∧
        (TenantCtx.mk tenant).Builds (f ⟨tenant⟩).2 := by
  rw [TenantCtx.builds_iff, TenantCtx.builds_iff]
  constructor
  · intro h
    exact ⟨h.fromTenant, h.toTenant⟩
  · rintro ⟨hfrom, hto⟩
    refine ⟨hfrom, hto, ?_⟩
    -- The id was computed with the tenant itself, which is the one stored.
    show SagRuleId.ofRule blake3 tenant.asStr _ _ _ _ _ _ _ =
      SagRuleId.ofRule blake3 (f ⟨tenant⟩).1.service.tenant.asStr _ _ _ _ _ _ _
    rw [hfrom]
    rfl

/-- A closure can return a selector it made itself for another tenant. -/
theorem TenantId.createRule_crosses_tenants :
    ¬ ∀ (blake3 : Bytes → Bytes) (tenant : TenantId) (action : SagAction)
        (f : TenantCtx → PeerSelector × PeerSelector),
      tenant.Accepted → (tenant.createRule blake3 action f).WithinTenant blake3 tenant := by
  intro h
  have hwithin := h id ⟨"acme"⟩ .allow
    (fun ctx => (ctx.selector "api" none none, ⟨⟨⟨"globex"⟩, "db"⟩, none, none⟩))
    ⟨"acme", by decide⟩
  exact absurd hwithin.toTenant (by decide)

end Fleetos
