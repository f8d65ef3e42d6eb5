import FleetosCore.Library.Text

/-!
# SPIFFE identities and workload roles

`SpiffeId`, `IdKind` and `WorkloadRole` of `src/spiffe.rs`, with the URI printer,
the URI parser and the byte form that is fed to the hashers. The parser splits at
the leftmost `/ns/` and gives every slash after the kind to the name. Fields are
arbitrary strings otherwise; in particular a NUL is not excluded from any of them.

`WorkloadRole` and `TenantId` are kept as plain wrappers, as in the source: what a
constructor checks is a fact about that constructor, not about the type.
-/

namespace Fleetos

open Text (utf8)

inductive SvidError where
  | invalidFormat
  | invalidKind
  | validationFailed
  | unimplemented
  | delegationKeyExpired
  | targetSvidMismatch
  | ordinalMismatch
  | validityOverrun
  deriving DecidableEq, Repr

inductive RoleError where
  | embeddedNul
  deriving DecidableEq, Repr

inductive IdKind where
  | sa
  | node
  | router
  | gateway
  | ctrl
  | control
  | operator
  deriving DecidableEq, Repr

namespace IdKind

def display : IdKind → String
  | .sa => "sa"
  | .node => "node"
  | .router => "router"
  | .gateway => "gateway"
  | .ctrl => "ctrl"
  | .control => "control"
  | .operator => "operator"

def fromStr (s : String) : Except SvidError IdKind :=
  if s = "sa" then pure .sa
  else if s = "node" then pure .node
  else if s = "router" then pure .router
  else if s = "gateway" then pure .gateway
  else if s = "ctrl" then pure .ctrl
  else if s = "control" then pure .control
  else if s = "operator" then pure .operator
  else throw .invalidKind

/-- `kind_to_bytes`: the third copy of the kind table, as byte strings. -/
def toBytes : IdKind → Bytes
  | .sa => utf8 "sa"
  | .node => utf8 "node"
  | .router => utf8 "router"
  | .gateway => utf8 "gateway"
  | .ctrl => utf8 "ctrl"
  | .control => utf8 "control"
  | .operator => utf8 "operator"

theorem toBytes_eq (kind : IdKind) : kind.toBytes = utf8 kind.display := by
  cases kind <;> rfl

theorem fromStr_display (kind : IdKind) : fromStr kind.display = .ok kind := by
  cases kind <;> decide

/-- The parser and the printer have the same table. -/
theorem fromStr_ok_iff {s : String} {kind : IdKind} :
    fromStr s = .ok kind ↔ s = kind.display := by
  constructor
  · intro h
    simp only [fromStr] at h
    split_ifs at h with h₁ h₂ h₃ h₄ h₅ h₆ h₇ <;> cases h
    · exact h₁
    · exact h₂
    · exact h₃
    · exact h₄
    · exact h₅
    · exact h₆
    · exact h₇
  · rintro rfl
    exact fromStr_display kind

theorem slash_notMem_display (kind : IdKind) : '/' ∉ kind.display.toList := by
  cases kind <;> decide

end IdKind

/-- `spiffe://<trust-domain>/ns/<tenant>/<kind>/<name>` -/
structure SpiffeId where
  trustDomain : String
  tenant : String
  kind : IdKind
  name : String
  deriving DecidableEq, Repr

namespace SpiffeId

def display (id : SpiffeId) : String :=
  "spiffe://" ++ id.trustDomain ++ "/ns/" ++ id.tenant ++ "/" ++ id.kind.display ++ "/" ++ id.name

def fromStr (s : String) : Except SvidError SpiffeId :=
  match Text.stripPrefix "spiffe://".toList s.toList with
  | none => throw .invalidFormat
  | some rest =>
      match Text.splitOnce "/ns/".toList rest with
      | none => throw .invalidFormat
      | some (trustDomain, path) =>
          match Text.splitn 3 '/' path with
          | [tenant, kind, name] =>
              match IdKind.fromStr (String.ofList kind) with
              | .error e => throw e
              | .ok kind => pure ⟨String.ofList trustDomain, String.ofList tenant, kind,
                  String.ofList name⟩
          | _ => throw .invalidFormat

/-- The URI bytes, appended to what the hasher was fed before. -/
def writeUriBytes (id : SpiffeId) (hasher : Bytes) : Bytes :=
  hasher ++ utf8 "spiffe://" ++ utf8 id.trustDomain ++ utf8 "/ns/" ++ utf8 id.tenant ++
    utf8 "/" ++ id.kind.toBytes ++ utf8 "/" ++ utf8 id.name

/-- The hashed form is the printed URI, byte for byte. -/
theorem writeUriBytes_eq (id : SpiffeId) (hasher : Bytes) :
    id.writeUriBytes hasher = hasher ++ utf8 id.display := by
  unfold writeUriBytes display
  simp only [IdKind.toBytes_eq, Text.utf8_append, List.append_assoc]

theorem toList_display (id : SpiffeId) :
    id.display.toList = "spiffe://".toList ++ (id.trustDomain.toList ++ ("/ns/".toList ++
      (id.tenant.toList ++ '/' :: (id.kind.display.toList ++ '/' :: id.name.toList)))) := by
  unfold display
  simp only [String.toList_append, List.append_assoc]
  rfl

/-- The parser accepts the printed identities whose first `/ns/` ends the trust domain
and whose tenant has no slash. -/
theorem fromStr_ok_iff {s : String} {id : SpiffeId} :
    fromStr s = .ok id ↔ s = id.display ∧
      Text.EndsAtFirst "/ns/".toList id.trustDomain.toList ∧ '/' ∉ id.tenant.toList := by
  constructor
  · intro h
    simp only [fromStr] at h
    split at h
    · cases h
    rename_i rest hstrip
    split at h
    · cases h
    rename_i trustDomain path hsplit
    split at h
    · rename_i tenant kind name hparts
      split at h
      · cases h
      rename_i parsed hkind
      obtain rfl := Except.ok.inj h
      have hs := Text.stripPrefix_eq_some_iff.mp hstrip
      obtain ⟨rfl, hends⟩ := Text.splitOnce_eq_some_iff.mp hsplit
      obtain ⟨rfl, htenant, -⟩ := Text.splitn_three_iff.mp hparts
      have htext : ∀ l, (String.ofList l).toList = l := fun _ => String.toList_ofList
      refine ⟨String.toList_inj.mp ?_, ?_, ?_⟩
      · rw [hs, toList_display, ← IdKind.fromStr_ok_iff.mp hkind]
        simp only [htext]
      · rwa [htext trustDomain]
      · rwa [htext tenant]
    · cases h
  · rintro ⟨rfl, hends, htenant⟩
    have hstrip := Text.stripPrefix_eq_some_iff.mpr (toList_display id)
    have hsplit := fun path => (Text.splitOnce_eq_some_iff (s := _ ++ (_ ++ path))).mpr ⟨rfl, hends⟩
    have hparts := (Text.splitn_three_iff (c := id.name.toList)).mpr
      ⟨rfl, htenant, id.kind.slash_notMem_display⟩
    simp only [fromStr, hstrip, hsplit, hparts, String.ofList_toList, IdKind.fromStr_display]
    rfl

/-- What the parser accepts is what the printer prints for the result. -/
theorem display_of_fromStr {s : String} {id : SpiffeId} (h : fromStr s = .ok id) :
    id.display = s :=
  (fromStr_ok_iff.mp h).1.symm

/-- The parser gives one identity to a string, so equal printed forms of accepted
identities come from equal identities. -/
theorem eq_of_display_eq {s₁ s₂ : String} {id₁ id₂ : SpiffeId} (h₁ : fromStr s₁ = .ok id₁)
    (h₂ : fromStr s₂ = .ok id₂) (h : id₁.display = id₂.display) : id₁ = id₂ := by
  have hs : s₁ = s₂ := by
    rw [← display_of_fromStr h₁, ← display_of_fromStr h₂, h]
  subst hs
  exact Except.ok.inj (h₁.symm.trans h₂)

end SpiffeId

/-- Workload role. Not part of the URI. -/
structure WorkloadRole where
  asStr : String
  deriving DecidableEq, Repr

namespace WorkloadRole

def tryFrom (value : String) : Except RoleError WorkloadRole :=
  if value.toList.contains '\x00' then throw .embeddedNul else pure ⟨value⟩

/-- The role was returned by the validating constructor. -/
def Accepted (role : WorkloadRole) : Prop := ∃ value, tryFrom value = .ok role

theorem tryFrom_ok_iff {value : String} {role : WorkloadRole} :
    tryFrom value = .ok role ↔ role.asStr = value ∧ '\x00' ∉ value.toList := by
  rw [tryFrom]
  split
  · rename_i hnul
    constructor
    · intro h
      cases h
    · rintro ⟨-, hfree⟩
      exact absurd (by simpa using hnul) hfree
  · rename_i hnul
    constructor
    · intro h
      obtain rfl := Except.ok.inj h
      exact ⟨rfl, by simpa using hnul⟩
    · rintro ⟨rfl, -⟩
      rfl

theorem accepted_iff {role : WorkloadRole} : role.Accepted ↔ '\x00' ∉ role.asStr.toList := by
  constructor
  · rintro ⟨value, h⟩
    obtain ⟨hvalue, hnul⟩ := tryFrom_ok_iff.mp h
    rwa [hvalue]
  · intro hnul
    exact ⟨role.asStr, tryFrom_ok_iff.mpr ⟨rfl, hnul⟩⟩

/-- The text of an optional role; an absent role has the empty text. -/
def text : Option WorkloadRole → String
  | some role => role.asStr
  | none => ""

theorem zero_notMem_text {role : Option WorkloadRole} (h : ∀ r ∈ role, r.Accepted) :
    0 ∉ utf8 (text role) := by
  rw [Text.zero_mem_utf8_iff]
  cases role with
  | none => simp [text]
  | some r => exact accepted_iff.mp (h r rfl)

end WorkloadRole

end Fleetos
