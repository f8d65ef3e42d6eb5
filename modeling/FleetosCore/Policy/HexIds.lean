import FleetosCore.Library.Fallible
import FleetosCore.Library.Hex
import FleetosCore.Policy.CoreIds

/-!
# The wire form of the core ids

`to_hex`, `from_hex` and the `Display` and `FromStr` built on them, of `src/operator.rs`,
`src/policy.rs` and `src/attestation.rs`. The source has three copies of the two loops;
each id is an array of sixteen bytes, so what there is to say about one copy is said
once, for any wrapper of bytes.
-/

namespace Fleetos

open Text (utf8 toAsciiLowercase)

def OperatorGrantId.toHex (id : OperatorGrantId) : String := Hex.toHex id.bytes

def OperatorGrantId.fromHex (s : String) : Option OperatorGrantId :=
  (Hex.fromHex 16 s).map OperatorGrantId.mk

def OperatorGrantId.display (id : OperatorGrantId) : String := id.toHex

def OperatorGrantId.fromStr (s : String) : Except String OperatorGrantId :=
  Fallible.okOr (fromHex s) "invalid OperatorGrantId hex"

def SagRuleId.toHex (id : SagRuleId) : String := Hex.toHex id.bytes

def SagRuleId.fromHex (s : String) : Option SagRuleId := (Hex.fromHex 16 s).map SagRuleId.mk

def EkFingerprint.toHex (id : EkFingerprint) : String := Hex.toHex id.bytes

def EkFingerprint.fromHex (s : String) : Option EkFingerprint :=
  (Hex.fromHex 16 s).map EkFingerprint.mk

def EkFingerprint.display (id : EkFingerprint) : String := id.toHex

def EkFingerprint.fromStr (s : String) : Except String EkFingerprint :=
  Fallible.okOr (fromHex s) "invalid EkFingerprint hex"

/-- Sixteen bytes as thirty-two digits: which texts are read, and as what. -/
structure HexForm {Id : Type} (bytes : Id → Bytes) (toHex : Id → String)
    (fromHex : String → Option Id) : Prop where
  accepts_iff : ∀ s, (∃ id, fromHex s = some id) ↔
    (utf8 s).length = 32 ∧ ∀ b ∈ utf8 s, Hex.IsDigit b
  sixteen : ∀ s id, fromHex s = some id → (bytes id).length = 16
  lowercased : ∀ s id, fromHex s = some id → toHex id = toAsciiLowercase s
  read_back : ∀ id, (bytes id).length = 16 → fromHex (toHex id) = some id
  case_variant : ∀ s id, (bytes id).length = 16 → toAsciiLowercase s = toHex id →
    fromHex s = some id

section Wrapper

variable {Id : Type} {bytes : Id → Bytes} {mk : Bytes → Id}

theorem map_fromHex_eq_some_iff (hbytes : ∀ b, bytes (mk b) = b) (hmk : ∀ id, mk (bytes id) = id)
    {s : String} {id : Id} :
    (Hex.fromHex 16 s).map mk = some id ↔
      (bytes id).length = 16 ∧ toAsciiLowercase s = Hex.toHex (bytes id) := by
  rw [← Hex.fromHex_eq_some_iff, Option.map_eq_some_iff]
  constructor
  · rintro ⟨octets, h, rfl⟩
    rwa [hbytes]
  · intro h
    exact ⟨bytes id, h, hmk id⟩

/-- Any wrapper of sixteen bytes has this wire form. -/
theorem hexForm_of_wrapper (hbytes : ∀ b, bytes (mk b) = b) (hmk : ∀ id, mk (bytes id) = id) :
    HexForm bytes (fun id => Hex.toHex (bytes id)) (fun s => (Hex.fromHex 16 s).map mk) where
  accepts_iff s := by
    rw [← Hex.exists_fromHex_iff (n := 16)]
    constructor
    · rintro ⟨id, h⟩
      obtain ⟨octets, hoctets, -⟩ := Option.map_eq_some_iff.mp h
      exact ⟨octets, hoctets⟩
    · rintro ⟨octets, h⟩
      exact ⟨mk octets, Option.map_eq_some_iff.mpr ⟨octets, h, rfl⟩⟩
  sixteen s id h := ((map_fromHex_eq_some_iff hbytes hmk).mp h).1
  lowercased s id h := ((map_fromHex_eq_some_iff hbytes hmk).mp h).2.symm
  read_back id hlength :=
    (map_fromHex_eq_some_iff hbytes hmk).mpr ⟨hlength, Hex.toAsciiLowercase_toHex _⟩
  case_variant s id hlength hlower := (map_fromHex_eq_some_iff hbytes hmk).mpr ⟨hlength, hlower⟩

end Wrapper

theorem OperatorGrantId.hexForm : HexForm OperatorGrantId.bytes toHex fromHex :=
  hexForm_of_wrapper (fun _ => rfl) (fun _ => rfl)

theorem SagRuleId.hexForm : HexForm SagRuleId.bytes toHex fromHex :=
  hexForm_of_wrapper (fun _ => rfl) (fun _ => rfl)

theorem EkFingerprint.hexForm : HexForm EkFingerprint.bytes toHex fromHex :=
  hexForm_of_wrapper (fun _ => rfl) (fun _ => rfl)

/-- What `Display` prints is read back by `FromStr`. -/
theorem OperatorGrantId.fromStr_display {id : OperatorGrantId} (h : id.bytes.length = 16) :
    fromStr id.display = .ok id :=
  Fallible.okOr_ok_iff.mpr (hexForm.read_back id h)

theorem EkFingerprint.fromStr_display {id : EkFingerprint} (h : id.bytes.length = 16) :
    fromStr id.display = .ok id :=
  Fallible.okOr_ok_iff.mpr (hexForm.read_back id h)

/-- The three copies read the same texts, and read one text as the same sixteen bytes. -/
theorem coreIds_hexForm :
    HexForm OperatorGrantId.bytes OperatorGrantId.toHex OperatorGrantId.fromHex ∧
    HexForm SagRuleId.bytes SagRuleId.toHex SagRuleId.fromHex ∧
    HexForm EkFingerprint.bytes EkFingerprint.toHex EkFingerprint.fromHex ∧
    ∀ s, (OperatorGrantId.fromHex s).map OperatorGrantId.bytes =
        (SagRuleId.fromHex s).map SagRuleId.bytes ∧
      (SagRuleId.fromHex s).map SagRuleId.bytes =
        (EkFingerprint.fromHex s).map EkFingerprint.bytes := by
  refine ⟨OperatorGrantId.hexForm, SagRuleId.hexForm, EkFingerprint.hexForm, fun s => ?_⟩
  constructor
  · rw [OperatorGrantId.fromHex, SagRuleId.fromHex, Option.map_map, Option.map_map]
    rfl
  · rw [SagRuleId.fromHex, EkFingerprint.fromHex, Option.map_map, Option.map_map]
    rfl

end Fleetos
