import FleetosCore.Attestation.QuoteFormat

/-!
# The public area of an attestation key

`parse_ak_public` of `src/attestation/quote.rs` walks a marshalled TPMT_PUBLIC. Two
layouts are compared here. `TpmtPublic` is the structure as a TPM marshals it: a scheme
or KDF selector is followed by its hash algorithm, ECDAA also by a count, while NULL and
RSAES have no detail. `AkArea` is what the walk reads: it gives every RSA scheme but NULL
a hash algorithm and OAEP a label too, and takes any selector.

The two agree on signing keys, so those are parsed back. The walk stops after the key
material and does not look at what is left.
-/

namespace Fleetos.Attestation

def tpmAlgRsassa : UInt16 := 0x0014
def tpmAlgRsaes : UInt16 := 0x0015
def tpmAlgRsapss : UInt16 := 0x0016
def tpmAlgEcdsa : UInt16 := 0x0018
def tpmAlgEcdh : UInt16 := 0x0019
def tpmAlgSm2 : UInt16 := 0x001B
def tpmAlgEcschnorr : UInt16 := 0x001C
def tpmAlgEcmqv : UInt16 := 0x001D
def tpmAlgMgf1 : UInt16 := 0x0007
def tpmAlgKdf1Sp80056a : UInt16 := 0x0020
def tpmAlgKdf2 : UInt16 := 0x0021
def tpmAlgKdf1Sp800108 : UInt16 := 0x0022

/-! ## The parts of a public area -/

/-- TPMT_ECC_SCHEME. -/
inductive EccScheme where
  | null
  | hash (scheme hashAlg : UInt16) (h : scheme ≠ tpmAlgNull ∧ scheme ≠ tpmAlgEcdaa)
  | ecdaa (hashAlg count : UInt16)

namespace EccScheme

def selector : EccScheme → UInt16
  | .null => tpmAlgNull
  | .hash scheme _ _ => scheme
  | .ecdaa _ _ => tpmAlgEcdaa

def detail : EccScheme → Bytes
  | .null => []
  | .hash _ hashAlg _ => Bytes.u16be hashAlg
  | .ecdaa hashAlg count => Bytes.u16be hashAlg ++ Bytes.u16be count

/-- The selector is one of the schemes of TPMT_ECC_SCHEME. -/
def Assigned (s : EccScheme) : Prop :=
  s.selector ∈ [tpmAlgNull, tpmAlgEcdsa, tpmAlgEcdh, tpmAlgEcdaa, tpmAlgSm2, tpmAlgEcschnorr,
    tpmAlgEcmqv]

end EccScheme

/-- TPMT_KDF_SCHEME. -/
inductive KdfScheme where
  | null
  | hash (kdf hashAlg : UInt16) (h : kdf ≠ tpmAlgNull)

namespace KdfScheme

def selector : KdfScheme → UInt16
  | .null => tpmAlgNull
  | .hash kdf _ _ => kdf

def detail : KdfScheme → Bytes
  | .null => []
  | .hash _ hashAlg _ => Bytes.u16be hashAlg

/-- The selector is one of the functions of TPMT_KDF_SCHEME. -/
def Assigned (s : KdfScheme) : Prop :=
  s.selector ∈ [tpmAlgNull, tpmAlgMgf1, tpmAlgKdf1Sp80056a, tpmAlgKdf2, tpmAlgKdf1Sp800108]

end KdfScheme

/-- Parameters and unique field, over the form of the RSA scheme. -/
inductive KeyFields (RsaScheme : Type) where
  | rsa (scheme : RsaScheme) (keyBits : UInt16) (exponent : UInt32) (modulus : Bytes)
      (h : modulus.length < 2 ^ 16)
  | ecc (scheme : EccScheme) (curve : UInt16) (kdf : KdfScheme) (x y : Bytes)
      (hx : x.length < 2 ^ 16) (hy : y.length < 2 ^ 16)

/-- A public area with a NULL symmetric algorithm. -/
structure PublicArea (RsaScheme : Type) where
  nameAlg : UInt16
  attributes : UInt32
  authPolicy : Bytes
  fields : KeyFields RsaScheme
  authPolicy_lt : authPolicy.length < 2 ^ 16

/-- What the two layouts of an RSA scheme have in common. -/
class Selected (RsaScheme : Type) where
  selector : RsaScheme → UInt16
  detail : RsaScheme → Bytes

section

variable {RsaScheme : Type} [Selected RsaScheme]

namespace KeyFields

def typ : KeyFields RsaScheme → UInt16
  | .rsa .. => tpmAlgRsa
  | .ecc .. => tpmAlgEcc

/-- What follows the symmetric algorithm. -/
def bytes : KeyFields RsaScheme → Bytes
  | .rsa scheme keyBits exponent modulus _ =>
      Bytes.u16be (Selected.selector scheme) ++ (Selected.detail scheme ++
        (Bytes.u16be keyBits ++ (Bytes.u32be exponent ++ Bytes.sized16 modulus)))
  | .ecc scheme curve kdf x y _ _ =>
      Bytes.u16be scheme.selector ++ (scheme.detail ++ (Bytes.u16be curve ++
        (Bytes.u16be kdf.selector ++ (kdf.detail ++ (Bytes.sized16 x ++ Bytes.sized16 y)))))

/-- Key material; the exponent field 0 stands for 65537. -/
def material : KeyFields RsaScheme → AkPublic
  | .rsa _ _ exponent modulus _ => .rsa modulus (if exponent = 0 then 65537 else exponent)
  | .ecc _ _ _ x y _ _ => .ecc x y

end KeyFields

namespace PublicArea

/-- The fields between the type and the symmetric algorithm. -/
def leading (area : PublicArea RsaScheme) : Bytes :=
  Bytes.u16be area.nameAlg ++ (Bytes.u32be area.attributes ++ Bytes.sized16 area.authPolicy)

def bytes (area : PublicArea RsaScheme) : Bytes :=
  Bytes.u16be area.fields.typ ++ (area.leading ++
    (Bytes.u16be tpmAlgNull ++ area.fields.bytes))

end PublicArea

end

/-! ## The area as the walk reads it -/

/-- The RSA scheme as it is walked. -/
inductive WalkedScheme where
  | null
  | hash (scheme hashAlg : UInt16) (h : scheme ≠ tpmAlgNull ∧ scheme ≠ tpmAlgOaep)
  | oaep (hashAlg : UInt16) (label : Bytes) (h : label.length < 2 ^ 16)

namespace WalkedScheme

def selector : WalkedScheme → UInt16
  | .null => tpmAlgNull
  | .hash scheme _ _ => scheme
  | .oaep _ _ _ => tpmAlgOaep

def detail : WalkedScheme → Bytes
  | .null => []
  | .hash _ hashAlg _ => Bytes.u16be hashAlg
  | .oaep hashAlg label _ => Bytes.u16be hashAlg ++ Bytes.sized16 label

instance : Selected WalkedScheme := ⟨selector, detail⟩

end WalkedScheme

abbrev AkArea : Type := PublicArea WalkedScheme

open Cursor (Reads)
open Reader

/-- The scheme of the RSA branch. -/
def walkRsaScheme : Reader Unit := do
  let scheme ← Reader.u16
  if scheme ≠ tpmAlgNull then
    let _schemeHash ← Reader.u16
    if scheme = tpmAlgOaep then
      Reader.skipSized
    else
      pure ()
  else
    pure ()

def walkEccScheme : Reader Unit := do
  let scheme ← Reader.u16
  if scheme ≠ tpmAlgNull then
    let _schemeHash ← Reader.u16
    if scheme = tpmAlgEcdaa then
      let _ecdaaCount ← Reader.u16
      pure ()
    else
      pure ()
  else
    pure ()

def walkKdf : Reader Unit := do
  let kdf ← Reader.u16
  if kdf ≠ tpmAlgNull then
    let _kdfHash ← Reader.u16
    pure ()
  else
    pure ()

/-- The RSA branch, part by part. -/
theorem parseRsaParameters_eq :
    parseRsaParameters = (do
      expectNullSymmetric
      walkRsaScheme
      let _keyBits ← Reader.u16
      let exponentRaw ← Reader.u32
      let modulus ← Reader.sized
      return .rsa modulus (if exponentRaw = 0 then 65537 else exponentRaw)) := by
  simp only [parseRsaParameters, walkRsaScheme, skipSized, sized, bind_assoc]
  refine bind_congr fun _ => bind_congr fun scheme => ?_
  split
  · simp only [bind_assoc]
    refine bind_congr fun _ => ?_
    split
    · simp only [bind_assoc]
    · simp only [pure_bind]
  · simp only [pure_bind]

theorem parseEccParameters_eq :
    parseEccParameters = (do
      expectNullSymmetric
      walkEccScheme
      let _curveId ← Reader.u16
      walkKdf
      let x ← Reader.sized
      let y ← Reader.sized
      return .ecc x y) := by
  have hkdf : ∀ next : Unit → Reader AkPublic,
      (walkKdf >>= next) = (do
        let kdf ← Reader.u16
        if kdf ≠ tpmAlgNull then
          let _kdfHash ← Reader.u16
          next ()
        else
          next ()) := by
    intro next
    rw [walkKdf, bind_assoc]
    refine bind_congr fun kdf => ?_
    split
    · simp only [bind_assoc, pure_bind]
    · rw [pure_bind]
  simp only [parseEccParameters, walkEccScheme, hkdf, sized, bind_assoc]
  refine bind_congr fun _ => bind_congr fun scheme => ?_
  split
  · simp only [bind_assoc]
    refine bind_congr fun _ => ?_
    split
    · simp only [bind_assoc, pure_bind]
    · simp only [pure_bind]
  · simp only [pure_bind]

/-! ## What the walk accepts -/

private theorem reads_expectNullSymmetric :
    Reads expectNullSymmetric (fun b _ => b = Bytes.u16be tpmAlgNull) := by
  refine (Reads.bind reads_u16 fun alg =>
    reads_require (alg = tpmAlgNull)).consequence fun b _ => ?_
  constructor
  · rintro ⟨_, _, _, rfl, rfl, rfl, rfl⟩
    exact List.append_nil _
  · rintro rfl
    exact ⟨_, _, [], (List.append_nil _).symm, rfl, rfl, rfl⟩

/-- A selector and the detail it calls for. -/
private theorem reads_selected {σ : Type} {selector : σ → UInt16} {detail : σ → Bytes}
    {walk : UInt16 → Reader Unit}
    (h : ∀ sel, Reads (walk sel) (fun b _ => ∃ s, selector s = sel ∧ b = detail s)) :
    Reads (u16 >>= walk) (fun b _ => ∃ s, b = Bytes.u16be (selector s) ++ detail s) := by
  refine (Reads.bind reads_u16 h).consequence fun b _ => ?_
  constructor
  · rintro ⟨_, _, _, rfl, rfl, s, rfl, rfl⟩
    exact ⟨s, rfl⟩
  · rintro ⟨s, rfl⟩
    exact ⟨_, _, _, rfl, rfl, s, rfl, rfl⟩

private theorem reads_hash {α : Type} (x : α) :
    Reads (u16 >>= fun _ => pure x) (fun b y => y = x ∧ ∃ hashAlg, b = Bytes.u16be hashAlg) := by
  refine (Reads.bind reads_u16 fun _ => Reads.pure x).consequence fun b y => ?_
  constructor
  · rintro ⟨hashAlg, _, _, rfl, rfl, rfl, rfl⟩
    exact ⟨rfl, hashAlg, List.append_nil _⟩
  · rintro ⟨rfl, hashAlg, rfl⟩
    exact ⟨hashAlg, _, [], (List.append_nil _).symm, rfl, rfl, rfl⟩

/-- NULL has no detail, in all three layouts. -/
private theorem reads_unless_null {σ : Type} {selector : σ → UInt16} {detail : σ → Bytes}
    {sel : UInt16} {walk : Reader Unit} (null : σ) (hselector : selector null = tpmAlgNull)
    (hdetail : ∀ s, selector s = tpmAlgNull → detail s = [])
    (hother : sel ≠ tpmAlgNull → Reads walk (fun b _ => ∃ s, selector s = sel ∧ b = detail s)) :
    Reads (if sel ≠ tpmAlgNull then walk else pure ())
      (fun b _ => ∃ s, selector s = sel ∧ b = detail s) := by
  split
  · rename_i hne
    exact hother hne
  · rename_i heq
    obtain rfl := not_not.mp heq
    refine (Reads.pure ()).consequence fun b _ => ?_
    constructor
    · rintro ⟨rfl, -⟩
      exact ⟨null, hselector, (hdetail null hselector).symm⟩
    · rintro ⟨s, hsel, rfl⟩
      exact ⟨hdetail s hsel, rfl⟩

theorem WalkedScheme.detail_of_null {s : WalkedScheme} (h : s.selector = tpmAlgNull) :
    s.detail = [] := by
  cases s with
  | null => rfl
  | hash _ _ hne => exact absurd h hne.1
  | oaep _ _ _ => exact absurd (show tpmAlgOaep = tpmAlgNull from h) (by decide)

theorem EccScheme.detail_of_null {s : EccScheme} (h : s.selector = tpmAlgNull) :
    s.detail = [] := by
  cases s with
  | null => rfl
  | hash _ _ hne => exact absurd h hne.1
  | ecdaa _ _ => exact absurd (show tpmAlgEcdaa = tpmAlgNull from h) (by decide)

theorem KdfScheme.detail_of_null {s : KdfScheme} (h : s.selector = tpmAlgNull) :
    s.detail = [] := by
  cases s with
  | null => rfl
  | hash _ _ hne => exact absurd h hne

private theorem reads_walkRsaScheme :
    Reads walkRsaScheme
      (fun b _ => ∃ s : WalkedScheme, b = Bytes.u16be s.selector ++ s.detail) := by
  refine reads_selected fun scheme => ?_
  refine reads_unless_null .null rfl (fun _ => WalkedScheme.detail_of_null) fun hnull => ?_
  by_cases hoaep : scheme = tpmAlgOaep
  · simp only [if_pos hoaep]
    refine (Reads.bind reads_u16 fun _ => reads_skipSized).consequence fun b _ => ?_
    constructor
    · rintro ⟨hashAlg, _, _, rfl, rfl, label, rfl, hlt⟩
      exact ⟨.oaep hashAlg label hlt, hoaep.symm, rfl⟩
    · rintro ⟨s, hsel, rfl⟩
      cases s with
      | null => exact absurd hsel.symm hnull
      | hash _ _ h => exact absurd (hsel.trans hoaep) h.2
      | oaep hashAlg label hlt => exact ⟨hashAlg, _, _, rfl, rfl, label, rfl, hlt⟩
  · simp only [if_neg hoaep]
    refine (reads_hash ()).consequence fun b _ => ?_
    constructor
    · rintro ⟨-, hashAlg, rfl⟩
      exact ⟨.hash scheme hashAlg ⟨hnull, hoaep⟩, rfl, rfl⟩
    · rintro ⟨s, hsel, rfl⟩
      cases s with
      | null => exact absurd hsel.symm hnull
      | hash _ hashAlg _ => exact ⟨rfl, hashAlg, rfl⟩
      | oaep _ _ _ => exact absurd hsel.symm hoaep

private theorem reads_walkEccScheme :
    Reads walkEccScheme (fun b _ => ∃ s : EccScheme, b = Bytes.u16be s.selector ++ s.detail) := by
  refine reads_selected fun scheme => ?_
  refine reads_unless_null .null rfl (fun _ => EccScheme.detail_of_null) fun hnull => ?_
  by_cases hecdaa : scheme = tpmAlgEcdaa
  · simp only [if_pos hecdaa]
    refine (Reads.bind reads_u16 fun _ => reads_hash ()).consequence fun b _ => ?_
    constructor
    · rintro ⟨hashAlg, _, _, rfl, rfl, -, count, rfl⟩
      exact ⟨.ecdaa hashAlg count, hecdaa.symm, rfl⟩
    · rintro ⟨s, hsel, rfl⟩
      cases s with
      | null => exact absurd hsel.symm hnull
      | hash _ _ h => exact absurd (hsel.trans hecdaa) h.2
      | ecdaa hashAlg count => exact ⟨hashAlg, _, _, rfl, rfl, rfl, count, rfl⟩
  · simp only [if_neg hecdaa]
    refine (reads_hash ()).consequence fun b _ => ?_
    constructor
    · rintro ⟨-, hashAlg, rfl⟩
      exact ⟨.hash scheme hashAlg ⟨hnull, hecdaa⟩, rfl, rfl⟩
    · rintro ⟨s, hsel, rfl⟩
      cases s with
      | null => exact absurd hsel.symm hnull
      | hash _ hashAlg _ => exact ⟨rfl, hashAlg, rfl⟩
      | ecdaa _ _ => exact absurd hsel.symm hecdaa

private theorem reads_walkKdf :
    Reads walkKdf (fun b _ => ∃ s : KdfScheme, b = Bytes.u16be s.selector ++ s.detail) := by
  refine reads_selected fun kdf => ?_
  refine reads_unless_null .null rfl (fun _ => KdfScheme.detail_of_null) fun hnull => ?_
  refine (reads_hash ()).consequence fun b _ => ?_
  constructor
  · rintro ⟨-, hashAlg, rfl⟩
    exact ⟨.hash kdf hashAlg hnull, rfl, rfl⟩
  · rintro ⟨s, hsel, rfl⟩
    cases s with
    | null => exact absurd hsel.symm hnull
    | hash _ hashAlg _ => exact ⟨rfl, hashAlg, rfl⟩

/-- The two branches read the fields of a key of their type. -/
private theorem reads_parseRsaParameters :
    Reads parseRsaParameters (fun b ak => ∃ fields : KeyFields WalkedScheme,
      fields.typ = tpmAlgRsa ∧ b = Bytes.u16be tpmAlgNull ++ fields.bytes ∧
        ak = fields.material) := by
  rw [parseRsaParameters_eq]
  refine (Reads.bind reads_expectNullSymmetric fun _ => Reads.bind reads_walkRsaScheme fun _ =>
    Reads.bind reads_u16 fun _ => Reads.bind reads_u32 fun exponentRaw =>
    Reads.bind reads_sized fun modulus => Reads.pure _).consequence fun b ak => ?_
  constructor
  · rintro ⟨_, _, _, rfl, rfl, _, _, _, rfl, ⟨scheme, rfl⟩, keyBits, _, _, rfl, rfl, exponent, _,
      _, rfl, rfl, modulus, _, _, rfl, ⟨rfl, hlt⟩, rfl, rfl⟩
    refine ⟨.rsa scheme keyBits exponent modulus hlt, rfl, ?_, rfl⟩
    simp only [KeyFields.bytes, Selected.selector, Selected.detail, List.append_assoc,
      List.append_nil]
  · rintro ⟨fields, htyp, rfl, rfl⟩
    cases fields with
    | ecc => exact absurd (show tpmAlgEcc = tpmAlgRsa from htyp) (by decide)
    | rsa scheme keyBits exponent modulus hlt =>
        exact ⟨(), _, _, rfl, rfl, (), _, _, (List.append_assoc _ _ _).symm, ⟨scheme, rfl⟩,
          keyBits, _, _, rfl, rfl, exponent, _, _, rfl, rfl, modulus, _, [],
          (List.append_nil _).symm, ⟨rfl, hlt⟩, rfl, rfl⟩

private theorem reads_parseEccParameters :
    Reads parseEccParameters (fun b ak => ∃ fields : KeyFields WalkedScheme,
      fields.typ = tpmAlgEcc ∧ b = Bytes.u16be tpmAlgNull ++ fields.bytes ∧
        ak = fields.material) := by
  rw [parseEccParameters_eq]
  refine (Reads.bind reads_expectNullSymmetric fun _ => Reads.bind reads_walkEccScheme fun _ =>
    Reads.bind reads_u16 fun _ => Reads.bind reads_walkKdf fun _ =>
    Reads.bind reads_sized fun x => Reads.bind reads_sized fun y =>
    Reads.pure _).consequence fun b ak => ?_
  constructor
  · rintro ⟨_, _, _, rfl, rfl, _, _, _, rfl, ⟨scheme, rfl⟩, curve, _, _, rfl, rfl, _, _, _, rfl,
      ⟨kdf, rfl⟩, x, _, _, rfl, ⟨rfl, hx⟩, y, _, _, rfl, ⟨rfl, hy⟩, rfl, rfl⟩
    refine ⟨.ecc scheme curve kdf x y hx hy, rfl, ?_, rfl⟩
    simp only [KeyFields.bytes, List.append_assoc, List.append_nil]
  · rintro ⟨fields, htyp, rfl, rfl⟩
    cases fields with
    | rsa => exact absurd (show tpmAlgRsa = tpmAlgEcc from htyp) (by decide)
    | ecc scheme curve kdf x y hx hy =>
        exact ⟨(), _, _, rfl, rfl, (), _, _, (List.append_assoc _ _ _).symm, ⟨scheme, rfl⟩,
          curve, _, _, rfl, rfl, (), _, _, (List.append_assoc _ _ _).symm, ⟨kdf, rfl⟩,
          x, _, _, rfl, ⟨rfl, hx⟩, y, _, [], (List.append_nil _).symm, ⟨rfl, hy⟩, rfl, rfl⟩

private theorem reads_keyFields (typ : UInt16) :
    Reads (if typ = tpmAlgRsa then parseRsaParameters
        else if typ = tpmAlgEcc then parseEccParameters else throw .verificationFailed)
      (fun b ak => ∃ fields : KeyFields WalkedScheme, fields.typ = typ ∧
        b = Bytes.u16be tpmAlgNull ++ fields.bytes ∧ ak = fields.material) := by
  split
  · rename_i hrsa
    rw [hrsa]
    exact reads_parseRsaParameters
  · rename_i hrsa
    split
    · rename_i hecc
      rw [hecc]
      exact reads_parseEccParameters
    · rename_i hecc
      refine (Reads.throw _).consequence fun b ak => ⟨False.elim, ?_⟩
      rintro ⟨fields, rfl, -, -⟩
      cases fields with
      | rsa => exact hrsa rfl
      | ecc => exact hecc rfl

/-- The walk accepts exactly the areas it has a layout for. -/
theorem reads_akPublicWalk :
    Reads akPublicWalk (fun b ak => ∃ area : AkArea, b = area.bytes ∧
      ak = area.fields.material) := by
  have hwalk : akPublicWalk = (do
      let typ ← Reader.u16
      let _nameAlg ← Reader.u16
      let _objAttrs ← Reader.u32
      Reader.skipSized
      if typ = tpmAlgRsa then parseRsaParameters
        else if typ = tpmAlgEcc then parseEccParameters else throw .verificationFailed) := by
    simp only [akPublicWalk, skipSized, bind_assoc]
  rw [hwalk]
  refine (Reads.bind reads_u16 fun typ => Reads.bind reads_u16 fun _ => Reads.bind reads_u32
    fun _ => Reads.bind reads_skipSized fun _ => reads_keyFields typ).consequence fun b ak => ?_
  constructor
  · rintro ⟨_, _, _, rfl, rfl, nameAlg, _, _, rfl, rfl, attributes, _, _, rfl, rfl, _, _, _, rfl,
      ⟨authPolicy, rfl, hlt⟩, fields, rfl, rfl, rfl⟩
    refine ⟨⟨nameAlg, attributes, authPolicy, fields, hlt⟩, ?_, rfl⟩
    simp only [PublicArea.bytes, PublicArea.leading, List.append_assoc]
  · rintro ⟨area, rfl, rfl⟩
    refine ⟨area.fields.typ, _, _, rfl, rfl, area.nameAlg, _, _, List.append_assoc _ _ _, rfl,
      area.attributes, _, _, List.append_assoc _ _ _, rfl, (), _, _, rfl,
      ⟨area.authPolicy, rfl, area.authPolicy_lt⟩, area.fields, rfl, rfl, rfl⟩

/-- A parsed key is that of the area the bytes start with. -/
theorem parseAkPublic_ok_iff {bytes : Bytes} {ak : AkPublic} :
    parseAkPublic bytes = .ok ak ↔
      ∃ (area : AkArea) (rest : Bytes), bytes = area.bytes ++ rest ∧
        ak = area.fields.material := by
  simp only [parseAkPublic, Fallible.bind_ok_iff, Fallible.pure_ok_iff, Prod.exists]
  constructor
  · rintro ⟨_, rest, hwalk, rfl⟩
    obtain ⟨_, rfl, area, rfl, hmaterial⟩ := (reads_akPublicWalk _ _ _).mp hwalk
    exact ⟨area, rest, rfl, hmaterial⟩
  · rintro ⟨area, rest, rfl, rfl⟩
    exact ⟨_, rest, (reads_akPublicWalk _ _ _).mpr ⟨_, rfl, area, rfl, rfl⟩, rfl⟩

/-! ## The area as a TPM marshals it -/

/-- TPMT_RSA_SCHEME. -/
inductive RsaScheme where
  | null
  | rsaes
  | hash (scheme hashAlg : UInt16) (h : scheme ≠ tpmAlgNull ∧ scheme ≠ tpmAlgRsaes)

namespace RsaScheme

def selector : RsaScheme → UInt16
  | .null => tpmAlgNull
  | .rsaes => tpmAlgRsaes
  | .hash scheme _ _ => scheme

def detail : RsaScheme → Bytes
  | .null => []
  | .rsaes => []
  | .hash _ hashAlg _ => Bytes.u16be hashAlg

instance : Selected RsaScheme := ⟨selector, detail⟩

/-- The selector is one of the schemes of TPMT_RSA_SCHEME. -/
def Assigned (s : RsaScheme) : Prop :=
  s.selector ∈ [tpmAlgNull, tpmAlgRsassa, tpmAlgRsaes, tpmAlgRsapss, tpmAlgOaep]

end RsaScheme

/-- The selector of an RSA key that can sign. -/
def signingSelectors : List UInt16 := [tpmAlgNull, tpmAlgRsassa, tpmAlgRsapss]

abbrev TpmtPublic : Type := PublicArea RsaScheme

section Recoding

variable {σ τ : Type} [Selected σ] [Selected τ]

/-- A condition on the RSA scheme, or one on the ECC scheme and the KDF. -/
def KeyFields.Satisfies (P : σ → Prop) (E : EccScheme → KdfScheme → Prop) : KeyFields σ → Prop
  | .rsa scheme .. => P scheme
  | .ecc scheme _ kdf .. => E scheme kdf

/-- Layouts that agree on a scheme agree on every area with that scheme. -/
theorem PublicArea.exists_recoded {P : σ → Prop} {Q : τ → Prop}
    {E : EccScheme → KdfScheme → Prop}
    (hrecode : ∀ s, P s → ∃ t, Q t ∧ Selected.selector t = Selected.selector s ∧
      Selected.detail t = Selected.detail s)
    (area : PublicArea σ) (h : area.fields.Satisfies P E) :
    ∃ other : PublicArea τ, other.fields.Satisfies Q E ∧ other.bytes = area.bytes ∧
      other.fields.material = area.fields.material := by
  obtain ⟨nameAlg, attributes, authPolicy, fields, hlt⟩ := area
  cases fields with
  | rsa scheme keyBits exponent modulus hmodulus =>
      obtain ⟨t, ht, hselector, hdetail⟩ := hrecode scheme h
      refine ⟨⟨nameAlg, attributes, authPolicy, .rsa t keyBits exponent modulus hmodulus, hlt⟩,
        ht, ?_, rfl⟩
      simp only [PublicArea.bytes, PublicArea.leading, KeyFields.bytes, KeyFields.typ, hselector,
        hdetail]
  | ecc scheme curve kdf x y hx hy =>
      exact ⟨⟨nameAlg, attributes, authPolicy, .ecc scheme curve kdf x y hx hy, hlt⟩, h, rfl, rfl⟩

end Recoding

namespace TpmtPublic

def marshal (p : TpmtPublic) : Bytes := p.bytes

def keyMaterial (p : TpmtPublic) : AkPublic := p.fields.material

/-- Every scheme and KDF is one that TPM 2.0 assigns. -/
def Assigned (p : TpmtPublic) : Prop :=
  p.fields.Satisfies RsaScheme.Assigned fun scheme kdf => scheme.Assigned ∧ kdf.Assigned

/-- An RSA key has no encryption scheme; an ECC key may have any scheme and any KDF. -/
def Signing (p : TpmtPublic) : Prop :=
  p.fields.Satisfies (fun scheme => scheme.selector ∈ signingSelectors) fun _ _ => True

end TpmtPublic

/-- The two layouts agree on the schemes of signing keys. -/
theorem RsaScheme.exists_walked {s : RsaScheme} (h : s.selector ∈ signingSelectors) :
    ∃ t : WalkedScheme, t.selector ∈ signingSelectors ∧ t.selector = s.selector ∧
      t.detail = s.detail := by
  cases s with
  | null => exact ⟨.null, by decide, rfl, rfl⟩
  | rsaes => exact absurd (show tpmAlgRsaes ∈ signingSelectors from h) (by decide)
  | hash scheme hashAlg hne =>
      have hoaep : scheme ≠ tpmAlgOaep := by
        rintro rfl
        exact absurd (show tpmAlgOaep ∈ signingSelectors from h) (by decide)
      exact ⟨.hash scheme hashAlg ⟨hne.1, hoaep⟩, h, rfl, rfl⟩

theorem WalkedScheme.exists_marshalled {s : WalkedScheme} (h : s.selector ∈ signingSelectors) :
    ∃ t : RsaScheme, t.Assigned ∧ t.selector = s.selector ∧ t.detail = s.detail := by
  cases s with
  | null => exact ⟨.null, List.mem_cons_self, rfl, rfl⟩
  | oaep => exact absurd (show tpmAlgOaep ∈ signingSelectors from h) (by decide)
  | hash scheme hashAlg hne =>
      have hrsaes : scheme ≠ tpmAlgRsaes := by
        rintro rfl
        exact absurd (show tpmAlgRsaes ∈ signingSelectors from h) (by decide)
      refine ⟨.hash scheme hashAlg ⟨hne.1, hrsaes⟩, ?_, rfl, rfl⟩
      have hmem : scheme ∈ signingSelectors := h
      simp only [signingSelectors, List.mem_cons, List.not_mem_nil, or_false] at hmem
      simp only [RsaScheme.Assigned, RsaScheme.selector, List.mem_cons, List.not_mem_nil, or_false]
      tauto

/-- A marshalled signing key is parsed back to its key material. -/
theorem parseAkPublic_marshal (p : TpmtPublic) (h : p.Signing) :
    parseAkPublic p.marshal = .ok p.keyMaterial := by
  obtain ⟨area, -, hbytes, hmaterial⟩ :=
    PublicArea.exists_recoded (fun _ => RsaScheme.exists_walked) p h
  refine parseAkPublic_ok_iff.mpr ⟨area, [], ?_, hmaterial.symm⟩
  rw [List.append_nil, hbytes]
  rfl

theorem emptyPolicy_lt : ([] : Bytes).length < 2 ^ 16 := by decide

/-- An RSASSA key with SHA-256 and the default exponent. -/
def sampleRsaAk : TpmtPublic :=
  ⟨tpmAlgSha256, 0x00050072, [],
    .rsa (.hash tpmAlgRsassa tpmAlgSha256 (by decide)) 2048 0 [0xC5, 0x97, 0x0D] (by decide),
    emptyPolicy_lt⟩

theorem sampleRsaAk_parsed_back :
    sampleRsaAk.Signing ∧
      parseAkPublic sampleRsaAk.marshal = .ok (.rsa [0xC5, 0x97, 0x0D] 65537) := by
  have hsigning : sampleRsaAk.Signing := show tpmAlgRsassa ∈ signingSelectors by decide
  exact ⟨hsigning, parseAkPublic_marshal sampleRsaAk hsigning⟩

/-! ## Bytes behind the key material -/

/-- The bytes are all of a marshalled TPMT_PUBLIC with the parsed key material. -/
def CompleteStructure (bytes : Bytes) : Prop :=
  ∀ ak, parseAkPublic bytes = .ok ak →
    ∃ p : TpmtPublic, p.Assigned ∧ p.marshal = bytes ∧ p.keyMaterial = ak

/-- The RSA scheme is one of a signing key, or ECC scheme and KDF are assigned. -/
def AkArea.Assigned (area : AkArea) : Prop :=
  area.fields.Satisfies (fun scheme => scheme.selector ∈ signingSelectors)
    fun scheme kdf => scheme.Assigned ∧ kdf.Assigned

/-- Whatever follows an accepted structure is accepted with it. -/
theorem parseAkPublic_append {bytes : Bytes} {ak : AkPublic} (h : parseAkPublic bytes = .ok ak)
    (extension : Bytes) : parseAkPublic (bytes ++ extension) = .ok ak := by
  obtain ⟨area, rest, rfl, rfl⟩ := parseAkPublic_ok_iff.mp h
  exact parseAkPublic_ok_iff.mpr ⟨area, rest ++ extension, List.append_assoc _ _ _, rfl⟩

theorem EccScheme.detail_length (s : EccScheme) : s.detail.length =
    if s.selector = tpmAlgNull then 0 else if s.selector = tpmAlgEcdaa then 4 else 2 := by
  cases s with
  | null => rfl
  | hash scheme hashAlg h => rw [selector, if_neg h.1, if_neg h.2, detail, Bytes.u16be_length]
  | ecdaa hashAlg count => rfl

theorem KdfScheme.detail_length (s : KdfScheme) : s.detail.length =
    if s.selector = tpmAlgNull then 0 else 2 := by
  cases s with
  | null => rfl
  | hash kdf hashAlg h => rw [selector, if_neg h, detail, Bytes.u16be_length]

theorem RsaScheme.detail_length (s : RsaScheme) : s.detail.length =
    if s.selector = tpmAlgNull ∨ s.selector = tpmAlgRsaes then 0 else 2 := by
  cases s with
  | null => rfl
  | rsaes => rfl
  | hash scheme hashAlg h =>
      rw [selector, if_neg (not_or.mpr h), detail, Bytes.u16be_length]

/-- The walk takes a hash algorithm for every scheme but NULL, and a label for OAEP. -/
theorem WalkedScheme.detail_length (s : WalkedScheme) : ∃ label, s.detail.length =
    if s.selector = tpmAlgNull then 0 else if s.selector = tpmAlgOaep then 4 + label else 2 := by
  cases s with
  | null => exact ⟨0, rfl⟩
  | hash scheme hashAlg h =>
      refine ⟨0, ?_⟩
      rw [selector, if_neg h.1, if_neg h.2, detail, Bytes.u16be_length]
  | oaep hashAlg label h =>
      refine ⟨label.length, ?_⟩
      rw [selector, if_neg (by decide), if_pos rfl, detail, List.length_append, Bytes.sized16,
        List.length_append, Bytes.u16be_length, Bytes.u16be_length]
      omega

section Coincidence

variable {rest : Bytes}

/-- Areas that are marshalled alike up to further bytes have the type in common, and so
have their fields. -/
theorem fields_of_bytes_eq {σ τ : Type} [Selected σ] [Selected τ] {p : PublicArea σ}
    {area : PublicArea τ} (h : p.bytes = area.bytes ++ rest) :
    p.fields.typ = area.fields.typ ∧ p.fields.bytes = area.fields.bytes ++ rest := by
  simp only [PublicArea.bytes, PublicArea.leading, List.append_assoc] at h
  obtain ⟨htyp, h⟩ := List.append_inj h (by simp)
  obtain ⟨-, h⟩ := List.append_inj h (by simp)
  obtain ⟨-, h⟩ := List.append_inj h (by simp)
  obtain ⟨-, h⟩ := Bytes.sized16_inj p.authPolicy_lt area.authPolicy_lt h
  exact ⟨Bytes.u16be_injective htyp, List.append_cancel_left h⟩

/-- With one modulus in both, the details of the schemes make up for what follows. -/
theorem rsa_coincidence {p : RsaScheme} {s : WalkedScheme} {keyBits keyBits' : UInt16}
    {exponent exponent' : UInt32} {modulus : Bytes} (hp : p.Assigned)
    (h : Bytes.u16be p.selector ++ (p.detail ++
        (Bytes.u16be keyBits ++ (Bytes.u32be exponent ++ Bytes.sized16 modulus))) =
      Bytes.u16be s.selector ++ (s.detail ++
        (Bytes.u16be keyBits' ++ (Bytes.u32be exponent' ++ Bytes.sized16 modulus))) ++ rest) :
    s.selector ∈ signingSelectors ∧ rest = [] := by
  rw [List.append_assoc] at h
  obtain ⟨hselector, h⟩ := List.append_inj h (by simp)
  have hselector := Bytes.u16be_injective hselector
  have hlength := congrArg List.length h
  simp only [List.length_append, Bytes.u16be_length, Bytes.u32be_length] at hlength
  obtain ⟨label, hwalked⟩ := s.detail_length
  rw [p.detail_length, hwalked, hselector] at hlength
  simp only [RsaScheme.Assigned, hselector, List.mem_cons, List.not_mem_nil, or_false] at hp
  rcases hp with heq | heq | heq | heq | heq <;> rw [heq] at hlength ⊢
  · rw [if_pos (by decide), if_pos rfl] at hlength
    exact ⟨by decide, List.length_eq_zero_iff.mp (by omega)⟩
  · rw [if_neg (by decide), if_neg (by decide), if_neg (by decide)] at hlength
    exact ⟨by decide, List.length_eq_zero_iff.mp (by omega)⟩
  · -- RSAES: the walk took a hash algorithm that is not there
    rw [if_pos (by decide), if_neg (by decide), if_neg (by decide)] at hlength
    omega
  · rw [if_neg (by decide), if_neg (by decide), if_neg (by decide)] at hlength
    exact ⟨by decide, List.length_eq_zero_iff.mp (by omega)⟩
  · -- OAEP: the walk took a label that is not there
    rw [if_neg (by decide), if_neg (by decide), if_pos rfl] at hlength
    omega

theorem ecc_coincidence {p s : EccScheme} {kdf kdf' : KdfScheme} {curve curve' : UInt16}
    {x y : Bytes} (hp : p.Assigned) (hkdf : kdf.Assigned)
    (h : Bytes.u16be p.selector ++ (p.detail ++ (Bytes.u16be curve ++
        (Bytes.u16be kdf.selector ++ (kdf.detail ++ (Bytes.sized16 x ++ Bytes.sized16 y))))) =
      Bytes.u16be s.selector ++ (s.detail ++ (Bytes.u16be curve' ++
        (Bytes.u16be kdf'.selector ++ (kdf'.detail ++ (Bytes.sized16 x ++ Bytes.sized16 y))))) ++
          rest) :
    (s.Assigned ∧ kdf'.Assigned) ∧ rest = [] := by
  simp only [List.append_assoc] at h
  obtain ⟨hselector, h⟩ := List.append_inj h (by simp)
  have hselector := Bytes.u16be_injective hselector
  obtain ⟨-, h⟩ := List.append_inj h (by rw [p.detail_length, s.detail_length, hselector])
  obtain ⟨-, h⟩ := List.append_inj h (by simp)
  obtain ⟨hkdfSelector, h⟩ := List.append_inj h (by simp)
  have hkdfSelector := Bytes.u16be_injective hkdfSelector
  obtain ⟨-, h⟩ :=
    List.append_inj h (by rw [kdf.detail_length, kdf'.detail_length, hkdfSelector])
  have hlength := congrArg List.length h
  simp only [List.length_append] at hlength
  refine ⟨⟨?_, ?_⟩, List.length_eq_zero_iff.mp (by omega)⟩
  · rwa [EccScheme.Assigned, ← hselector]
  · rwa [KdfScheme.Assigned, ← hkdfSelector]

/-- A structure and a walked area with one key material coincide. -/
theorem coincidence {p : TpmtPublic} {area : AkArea} (hp : p.Assigned)
    (hbytes : p.marshal = area.bytes ++ rest)
    (hmaterial : p.keyMaterial = area.fields.material) : area.Assigned ∧ rest = [] := by
  obtain ⟨htyp, h⟩ := fields_of_bytes_eq hbytes
  rw [TpmtPublic.Assigned] at hp
  rw [AkArea.Assigned]
  rw [TpmtPublic.keyMaterial] at hmaterial
  cases hfields : p.fields with
  | rsa scheme keyBits exponent modulus hmodulus =>
      cases hwalked : area.fields with
      | rsa scheme' keyBits' exponent' modulus' hmodulus' =>
          rw [hfields, hwalked] at h hmaterial
          rw [hfields] at hp
          obtain ⟨rfl, -⟩ := AkPublic.rsa.inj hmaterial
          exact rsa_coincidence hp h
      | ecc =>
          rw [hfields, hwalked] at hmaterial
          cases hmaterial
  | ecc scheme curve kdf x y hx hy =>
      cases hwalked : area.fields with
      | rsa =>
          rw [hfields, hwalked] at hmaterial
          cases hmaterial
      | ecc scheme' curve' kdf' x' y' hx' hy' =>
          rw [hfields, hwalked] at h hmaterial
          rw [hfields] at hp
          obtain ⟨rfl, rfl⟩ := AkPublic.ecc.inj hmaterial
          exact ecc_coincidence hp.1 hp.2 h

end Coincidence

/-- The parsed bytes are a complete structure exactly when nothing follows the walked
area and its selectors are those of a signing key; further bytes are never refused. -/
theorem completeStructure_iff (bytes : Bytes) :
    (CompleteStructure bytes ↔
      ∀ (area : AkArea) (rest : Bytes), bytes = area.bytes ++ rest →
        area.Assigned ∧ rest = []) ∧
    ∀ ak, parseAkPublic bytes = .ok ak →
      ∀ extension, parseAkPublic (bytes ++ extension) = .ok ak := by
  refine ⟨⟨?_, ?_⟩, fun ak hparse => parseAkPublic_append hparse⟩
  · rintro hcomplete area rest rfl
    obtain ⟨p, hassigned, hbytes, hmaterial⟩ :=
      hcomplete _ (parseAkPublic_ok_iff.mpr ⟨area, rest, rfl, rfl⟩)
    exact coincidence hassigned hbytes hmaterial
  · intro hwhole ak hparse
    obtain ⟨area, rest, rfl, rfl⟩ := parseAkPublic_ok_iff.mp hparse
    obtain ⟨hassigned, rfl⟩ := hwhole area rest rfl
    obtain ⟨p, hp, hbytes, hmaterial⟩ :=
      PublicArea.exists_recoded (fun _ => WalkedScheme.exists_marshalled) area hassigned
    exact ⟨p, hp, by rw [List.append_nil]; exact hbytes, hmaterial⟩

/-- The sample key as it is walked. -/
def sampleRsaArea : AkArea :=
  ⟨tpmAlgSha256, 0x00050072, [],
    .rsa (.hash tpmAlgRsassa tpmAlgSha256 (by decide)) 2048 0 [0xC5, 0x97, 0x0D] (by decide),
    emptyPolicy_lt⟩

theorem parseAkPublic_sampleRsaArea (rest : Bytes) :
    parseAkPublic (sampleRsaArea.bytes ++ rest) = .ok (.rsa [0xC5, 0x97, 0x0D] 65537) :=
  parseAkPublic_ok_iff.mpr ⟨sampleRsaArea, rest, rfl, rfl⟩

/-- A second byte behind the sample key. -/
theorem sampleRsaArea_extended :
    parseAkPublic (sampleRsaArea.bytes ++ [0x00] ++ [0x00]) =
      .ok (.rsa [0xC5, 0x97, 0x0D] 65537) :=
  (completeStructure_iff (sampleRsaArea.bytes ++ [0x00])).2 _ (parseAkPublic_sampleRsaArea [0x00])
    [0x00]

/-- One byte behind a marshalled key changes nothing for the parser. -/
theorem trailing_byte_accepted : ¬ ∀ bytes : Bytes, CompleteStructure bytes := by
  intro h
  obtain ⟨p, hassigned, hbytes, hmaterial⟩ :=
    h (sampleRsaArea.bytes ++ [0x00]) _ (parseAkPublic_sampleRsaArea [0x00])
  obtain ⟨-, hnone⟩ := coincidence hassigned hbytes hmaterial
  cases hnone

end Fleetos.Attestation
