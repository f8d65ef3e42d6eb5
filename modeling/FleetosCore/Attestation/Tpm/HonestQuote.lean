import FleetosCore.Attestation.QuoteTrust
import FleetosCore.Attestation.Tpm.Manager
import Mathlib.Data.List.Perm.Subperm

/-!
# What an honest node's quote contains

The TPM hashes and returns the selected registers in ascending order, at most eight of
them; the node pairs what it gets with the caller's list by position. This module says
exactly when the pairing is right, and that the verifier then accepts the quote.
-/

namespace Fleetos.Tpm

open Attestation (PcrValue QuoteAttest HashKind selectedIndices selects bitSet findPcr
  verifyPcrBinding boundBytes submittedDigest Submits)

/-! ## The selection as a set of registers -/

/-- The requested registers in ascending order, each once. -/
def ascending (pcrIndices : List UInt8) : List UInt8 :=
  ((List.range 24).map UInt8.ofNat).filter pcrIndices.contains

private theorem bitSet_fold (p : Nat → Bool) {bit : Nat} (hbit : bit < 8) :
    bitSet ((List.range 8).foldl
      (fun acc bit => if p bit then acc ||| (1 <<< UInt8.ofNat bit) else acc) 0) bit = p bit := by
  have hall : ∀ b₀ b₁ b₂ b₃ b₄ b₅ b₆ b₇ : Bool, ∀ bit < 8,
      bitSet ([(0, b₀), (1, b₁), (2, b₂), (3, b₃), (4, b₄), (5, b₅), (6, b₆), (7, b₇)].foldl
        (fun acc x => if x.2 then acc ||| (1 <<< UInt8.ofNat x.1) else acc) 0) bit =
      [b₀, b₁, b₂, b₃, b₄, b₅, b₆, b₇].getD bit false := by
    decide +kernel
  have h := hall (p 0) (p 1) (p 2) (p 3) (p 4) (p 5) (p 6) (p 7) bit hbit
  interval_cases bit <;> exact h

theorem selects_selectionBitmap {pcrIndices : List UInt8} {i : Nat} (hi : i < 24) :
    selects (selectionBitmap pcrIndices) i = pcrIndices.contains (UInt8.ofNat i) := by
  have hbyte : i / 8 < 3 := by omega
  rw [selects, selectionBitmap, List.getElem?_map, List.getElem?_range hbyte]
  simp only [Option.map_some, Option.any_some]
  rw [bitSet_fold (fun bit => pcrIndices.contains (UInt8.ofNat (i / 8 * 8 + bit)))
    (Nat.mod_lt i (by decide))]
  rw [show i / 8 * 8 + i % 8 = i by omega]

theorem selectedIndices_selectionBitmap (pcrIndices : List UInt8) :
    selectedIndices (selectionBitmap pcrIndices) = ascending pcrIndices := by
  rw [Attestation.selectedIndices_eq, ascending, List.filter_map]
  congr 1
  apply List.filter_congr
  intro i hi
  exact selects_selectionBitmap (List.mem_range.mp hi)

theorem ascending_nodup (pcrIndices : List UInt8) : (ascending pcrIndices).Nodup := by
  apply List.Nodup.filter
  decide

theorem mem_ascending_iff {pcrIndices : List UInt8} (h : ∀ i ∈ pcrIndices, i.toNat ≤ 23)
    {i : UInt8} : i ∈ ascending pcrIndices ↔ i ∈ pcrIndices := by
  rw [ascending, List.mem_filter, List.mem_map]
  constructor
  · rintro ⟨-, hmem⟩
    simpa using hmem
  · intro hmem
    refine ⟨⟨i.toNat, List.mem_range.mpr ?_, UInt8.ofNat_toNat⟩, by simpa using hmem⟩
    have := h i hmem
    omega

/-! ## When positions and registers agree -/

/-- At most eight different registers, none repeated before all have been named, and at
each position the register named there holds what the register in its ascending place
holds. -/
structure PairsCorrectly (pcrBank : UInt8 → Bytes) (pcrIndices : List UInt8) : Prop where
  atMostEight : (ascending pcrIndices).length ≤ 8
  nodup : (pcrIndices.take (ascending pcrIndices).length).Nodup
  agree : ∀ p ∈ pcrIndices.zip (ascending pcrIndices), pcrBank p.1 = pcrBank p.2

private theorem map_fst_zip_take {α β : Type} (l : List α) (k : List β) :
    (l.zip k).map Prod.fst = l.take k.length := by
  induction l generalizing k with
  | nil => simp
  | cons a l ih =>
      cases k with
      | nil => rfl
      | cons b k => simp [ih]

section Pairing

variable {pcrBank : UInt8 → Bytes} {pcrIndices : List UInt8}

/-- What the node submits for a list of requested registers. -/
def submittedPcrs (pcrBank : UInt8 → Bytes) (pcrIndices : List UInt8) : List PcrValue :=
  pairDigests pcrIndices (((ascending pcrIndices).take 8).map pcrBank)

theorem mem_submittedPcrs_iff {pv : PcrValue} :
    pv ∈ submittedPcrs pcrBank pcrIndices ↔
      ∃ p ∈ pcrIndices.zip ((ascending pcrIndices).take 8), pv = ⟨p.1, 0x000B, pcrBank p.2⟩ := by
  rw [submittedPcrs, pairDigests, List.zip_map_right, List.map_map, List.mem_map]
  exact ⟨fun ⟨p, hp, h⟩ => ⟨p, hp, h.symm⟩, fun ⟨p, hp, h⟩ => ⟨p, hp, h.symm⟩⟩

/-- Every requested register is submitted with its content. -/
def Covers (pcrBank : UInt8 → Bytes) (pcrIndices : List UInt8) (values : List PcrValue) : Prop :=
  ∀ i ∈ pcrIndices, ∃ pv ∈ values, pv.index = i ∧ pv.digest = pcrBank i

theorem covers_submittedPcrs_iff :
    Covers pcrBank pcrIndices (submittedPcrs pcrBank pcrIndices) ↔
      ∀ i ∈ pcrIndices, ∃ p ∈ pcrIndices.zip ((ascending pcrIndices).take 8),
        p.1 = i ∧ pcrBank p.2 = pcrBank i := by
  refine forall₂_congr fun i _ => ?_
  constructor
  · rintro ⟨pv, hpv, rfl, hdigest⟩
    obtain ⟨p, hp, rfl⟩ := mem_submittedPcrs_iff.mp hpv
    exact ⟨p, hp, rfl, hdigest⟩
  · rintro ⟨p, hp, rfl, hdigest⟩
    exact ⟨_, mem_submittedPcrs_iff.mpr ⟨p, hp, rfl⟩, rfl, hdigest⟩

/-- Covering every register leaves no room: the first positions name each register once. -/
theorem perm_take_of_covers (hrange : ∀ i ∈ pcrIndices, i.toNat ≤ 23)
    (h : Covers pcrBank pcrIndices (submittedPcrs pcrBank pcrIndices)) :
    (ascending pcrIndices).length ≤ 8 ∧
      (ascending pcrIndices).Perm (pcrIndices.take (ascending pcrIndices).length) := by
  rw [covers_submittedPcrs_iff] at h
  have hsubset : ascending pcrIndices ⊆
      pcrIndices.take ((ascending pcrIndices).take 8).length := by
    intro i hi
    obtain ⟨p, hp, rfl, -⟩ := h i ((mem_ascending_iff hrange).mp hi)
    rw [← map_fst_zip_take]
    exact List.mem_map_of_mem hp
  have hsubperm := List.subperm_of_subset (ascending_nodup pcrIndices) hsubset
  have hlen := hsubperm.length_le
  rw [List.length_take, List.length_take] at hlen
  have hm : min 8 (ascending pcrIndices).length = (ascending pcrIndices).length := by omega
  rw [List.length_take, hm] at hsubperm
  refine ⟨by omega, hsubperm.perm_of_length_le ?_⟩
  rw [List.length_take]
  omega

theorem PairsCorrectly.perm_take (hrange : ∀ i ∈ pcrIndices, i.toNat ≤ 23)
    (h : PairsCorrectly pcrBank pcrIndices) :
    (pcrIndices.take (ascending pcrIndices).length).Perm (ascending pcrIndices) := by
  have hle := (List.subperm_of_subset (ascending_nodup pcrIndices)
    fun i hi => (mem_ascending_iff hrange).mp hi).length_le
  have hsubset : pcrIndices.take (ascending pcrIndices).length ⊆ ascending pcrIndices :=
    fun i hi => (mem_ascending_iff hrange).mpr (List.mem_of_mem_take hi)
  refine (List.subperm_of_subset h.nodup hsubset).perm_of_length_le ?_
  rw [List.length_take]
  omega

/-- The node's list covers the requested registers exactly when it pairs correctly. -/
theorem covers_iff_pairsCorrectly (hrange : ∀ i ∈ pcrIndices, i.toNat ≤ 23) :
    Covers pcrBank pcrIndices (submittedPcrs pcrBank pcrIndices) ↔
      PairsCorrectly pcrBank pcrIndices := by
  constructor
  · intro h
    obtain ⟨height, hperm⟩ := perm_take_of_covers hrange h
    have hnodup := hperm.nodup_iff.mp (ascending_nodup pcrIndices)
    refine ⟨height, hnodup, fun p hp => ?_⟩
    rw [covers_submittedPcrs_iff, List.take_of_length_le height] at h
    obtain ⟨q, hq, hqp, hbank⟩ := h p.1 (List.of_mem_zip hp).1
    -- Positions name each register once, so the covering entry is the one at `p`.
    rw [← map_fst_zip_take] at hnodup
    rw [← List.inj_on_of_nodup_map hnodup hq hp hqp]
    rw [hqp]
    exact hbank.symm
  · intro h
    rw [covers_submittedPcrs_iff, List.take_of_length_le h.atMostEight]
    intro i hi
    have hmem : i ∈ pcrIndices.take (ascending pcrIndices).length :=
      (h.perm_take hrange).mem_iff.mpr ((mem_ascending_iff hrange).mpr hi)
    rw [← map_fst_zip_take] at hmem
    obtain ⟨p, hp, rfl⟩ := List.mem_map.mp hmem
    exact ⟨p, hp, rfl, (h.agree p hp).symm⟩

theorem PairsCorrectly.findPcr_eq (hrange : ∀ i ∈ pcrIndices, i.toNat ≤ 23)
    (h : PairsCorrectly pcrBank pcrIndices) {i : UInt8} (hi : i ∈ pcrIndices) :
    findPcr (submittedPcrs pcrBank pcrIndices) i 0x000B = some ⟨i, 0x000B, pcrBank i⟩ := by
  cases hfind : findPcr (submittedPcrs pcrBank pcrIndices) i 0x000B with
  | none =>
      obtain ⟨pv, hpv, rfl, -⟩ := (covers_iff_pairsCorrectly hrange).mpr h i hi
      have halg : pv.hashAlgorithm = 0x000B := by
        obtain ⟨p, -, rfl⟩ := mem_submittedPcrs_iff.mp hpv
        rfl
      have hnone := List.find?_eq_none.mp hfind pv hpv
      simp [halg] at hnone
  | some found =>
      obtain ⟨hmem, rfl, -⟩ := Attestation.findPcr_some hfind
      obtain ⟨p, hp, rfl⟩ := mem_submittedPcrs_iff.mp hmem
      rw [List.take_of_length_le h.atMostEight] at hp
      simp only [Option.some.injEq, PcrValue.mk.injEq, true_and]
      exact (h.agree p hp).symm

end Pairing

/-! ## The quote itself -/

section Quote

variable {dev : Device} {env : Env} {serverNonce : Bytes} {pcrIndices : List UInt8}

/-- A correctly paired list passes the binding check against the quote. -/
theorem verifyPcrBinding_of_pairsCorrectly (hrange : ∀ i ∈ pcrIndices, i.toNat ≤ 23)
    (h : PairsCorrectly env.pcrBank pcrIndices) (ak : Public)
    (hq : serverNonce.length ≤ maxDataSize) :
    verifyPcrBinding dev.sha (attestation dev env ak serverNonce hq pcrIndices).encode
      (submittedPcrs env.pcrBank pcrIndices) = .ok () := by
  have hselected : ∀ i ∈ selectedIndices (selectionBitmap pcrIndices),
      findPcr (submittedPcrs env.pcrBank pcrIndices) i 0x000B =
        some ⟨i, 0x000B, env.pcrBank i⟩ := by
    intro i hi
    rw [selectedIndices_selectionBitmap, mem_ascending_iff hrange] at hi
    exact h.findPcr_eq hrange hi
  rw [Attestation.verifyPcrBinding_ok_iff]
  refine ⟨attestation dev env ak serverNonce hq pcrIndices, .sha256,
    ⟨[], (List.append_nil _).symm⟩, rfl, ?_, ?_⟩
  · intro i hi
    exact ⟨_, hselected i hi, env.pcrBank_length i⟩
  · have hbound : boundBytes (attestation dev env ak serverNonce hq pcrIndices)
        (submittedPcrs env.pcrBank pcrIndices) =
          selectedPcrs env (selectionBitmap pcrIndices) := by
      rw [boundBytes, selectedPcrs]
      congr 1
      apply List.map_congr_left
      intro i hi
      show submittedDigest _ 0x000B i = _
      rw [submittedDigest, hselected i hi]
      rfl
    rw [hbound]
    rfl

/-- What a returned quote consists of. -/
structure QuoteOf (dev : Device) (env : Env) (serverNonce : Bytes) (pcrIndices : List UInt8)
    (out : QuoteOutput) : Prop where
  inRange : ∀ i ∈ pcrIndices, i.toNat ≤ 23
  quote : ∃ ak hq, out.quote = (attestation dev env ak serverNonce hq pcrIndices).encode
  pcrValues : out.pcrValues = submittedPcrs env.pcrBank pcrIndices

theorem pcrSlots_ok {step : Step} {indices slots : List UInt8} {ctx ctx' : Context}
    (h : pcrSlots step indices ctx = .ok slots ctx') :
    slots = indices ∧ ∀ i ∈ indices, i.toNat ≤ 23 := by
  induction indices generalizing slots ctx' with
  | nil =>
      obtain ⟨rfl, -⟩ := Effect.pure_ok_iff.mp h
      exact ⟨rfl, by simp⟩
  | cons i indices ih =>
      rw [pcrSlots] at h
      split at h
      · rename_i hi
        obtain ⟨rest, _, hrest, hpure⟩ := Effect.bind_ok_iff.mp h
        obtain ⟨rfl, -⟩ := Effect.pure_ok_iff.mp hpure
        obtain ⟨rfl, hall⟩ := ih hrest
        exact ⟨rfl, by simpa using ⟨hi, hall⟩⟩
      · cases h

theorem pcrRead_ok {bitmap : Bytes} {digests : List Bytes} {ctx ctx' : Context}
    (h : pcrRead env bitmap ctx = .ok digests ctx') :
    digests = ((selectedIndices bitmap).take 8).map env.pcrBank := by
  obtain ⟨_, _, -, hpure⟩ := Effect.bind_ok_iff.mp h
  exact (Effect.pure_ok_iff.mp hpure).1.symm

theorem readPcrValues_ok {values : List PcrValue} {ctx ctx' : Context}
    (h : readPcrValues env pcrIndices ctx = .ok values ctx') :
    values = submittedPcrs env.pcrBank pcrIndices := by
  obtain ⟨slots, _, hslots, h⟩ := Effect.bind_ok_iff.mp h
  obtain ⟨_, _, -, h⟩ := Effect.bind_ok_iff.mp h
  obtain ⟨digests, _, hread, h⟩ := Effect.bind_ok_iff.mp h
  obtain ⟨rfl, -⟩ := Effect.pure_ok_iff.mp h
  obtain ⟨rfl, -⟩ := pcrSlots_ok hslots
  rw [submittedPcrs, pcrRead_ok hread, selectedIndices_selectionBitmap]

theorem executeWithNullauthSession_ok {α : Type} {f : TpmM α} {a : α} {ctx ctx' : Context}
    (h : executeWithNullauthSession f ctx = .ok a ctx') : ∃ s s', f s = .ok a s' := by
  rw [executeWithNullauthSession] at h
  split at h
  · rename_i b s' hf
    obtain ⟨rfl, -⟩ := EStateM.Result.ok.inj h
    exact ⟨_, s', hf⟩
  · cases h

/-- Both quote functions return this when they return. -/
theorem quoteWithKey_ok {akHandle : ObjectHandle} {out : QuoteOutput} {ctx ctx' : Context}
    (h : quoteWithKey dev env akHandle serverNonce pcrIndices ctx = .ok out ctx') :
    QuoteOf dev env serverNonce pcrIndices out := by
  obtain ⟨slots, _, hslots, h⟩ := Effect.bind_ok_iff.mp h
  obtain ⟨rfl, hrange⟩ := pcrSlots_ok hslots
  obtain ⟨_, _, -, h⟩ := Effect.bind_ok_iff.mp h
  split at h
  · rename_i hq
    obtain ⟨_, _, -, h⟩ := Effect.bind_ok_iff.mp h
    obtain ⟨⟨attest, sig⟩, _, hexec, h⟩ := Effect.bind_ok_iff.mp h
    obtain ⟨_, _, -, h⟩ := Effect.bind_ok_iff.mp h
    obtain ⟨values, _, hvalues, h⟩ := Effect.bind_ok_iff.mp h
    obtain ⟨signature, _, -, h⟩ := Effect.bind_ok_iff.mp h
    obtain ⟨rfl, -⟩ := Effect.pure_ok_iff.mp h
    obtain ⟨_, _, hquote⟩ := executeWithNullauthSession_ok hexec
    obtain ⟨ak, _, -, hquote⟩ := Effect.bind_ok_iff.mp hquote
    obtain ⟨_, _, -, hquote⟩ := Effect.bind_ok_iff.mp hquote
    obtain ⟨hattest, -⟩ := Effect.pure_ok_iff.mp hquote
    exact ⟨hrange, ⟨ak.publicArea, hq, (Prod.mk.inj hattest).1.symm⟩, readPcrValues_ok hvalues⟩
  · cases h

theorem pcrSlots_of_inRange {step : Step} {indices : List UInt8} {ctx : Context}
    (h : ∀ i ∈ indices, i.toNat ≤ 23) : pcrSlots step indices ctx = .ok indices ctx := by
  induction indices with
  | nil => rfl
  | cons i indices ih =>
      rw [pcrSlots, if_pos (h i List.mem_cons_self),
        Effect.bind_of_ok (ih fun j hj => h j (List.mem_cons_of_mem _ hj))]
      rfl

theorem readPcrValues_returns (hsmooth : env.Smooth) (hrange : ∀ i ∈ pcrIndices, i.toNat ≤ 23)
    (ctx : Context) : ∃ values, readPcrValues env pcrIndices ctx = .ok values ctx := by
  rw [readPcrValues, Effect.bind_of_ok (pcrSlots_of_inRange hrange),
    Effect.bind_of_ok (attempt_of_none (hsmooth _)), pcrRead]
  exact ⟨_, Effect.bind_of_ok (Effect.bind_of_ok (attempt_of_none (hsmooth _)))⟩

theorem marshalSignature_returns {sig : Signature} (h : sig ≠ .other) (ctx : Context) :
    ∃ bytes, marshalSignature sig ctx = .ok bytes ctx := by
  cases sig with
  | ecDsa r s => exact ⟨_, rfl⟩
  | rsaSsa bytes => exact ⟨_, rfl⟩
  | other => exact absurd rfl h

theorem tpmQuote_of_lookup (hsmooth : env.Smooth) (hq : serverNonce.length ≤ maxDataSize)
    {akHandle : ObjectHandle} {ak : Object} {ctx : Context}
    (hak : ctx.objects.lookup akHandle = some ak) :
    tpmQuote dev env akHandle serverNonce hq pcrIndices ctx =
      .ok ((attestation dev env ak.publicArea serverNonce hq pcrIndices).encode,
        dev.sign ak.publicArea
          (attestation dev env ak.publicArea serverNonce hq pcrIndices).encode) ctx := by
  rw [tpmQuote, Effect.bind_of_ok (useObject_of_lookup hak),
    Effect.bind_of_ok (attempt_of_none (hsmooth _))]
  rfl

/-- Nothing but a place that fails keeps a quote with a loaded key from being made. -/
theorem quoteWithKey_returns (hsmooth : env.Smooth) (hrange : ∀ i ∈ pcrIndices, i.toNat ≤ 23)
    (hq : serverNonce.length ≤ maxDataSize) {akHandle : ObjectHandle} {ak : Object} {ctx : Context}
    (hak : ctx.objects.lookup akHandle = some ak)
    (hsign : ∀ attest, dev.sign ak.publicArea attest ≠ .other) :
    ∃ out, quoteWithKey dev env akHandle serverNonce pcrIndices ctx = .ok out ctx := by
  let attest := (attestation dev env ak.publicArea serverNonce hq pcrIndices).encode
  let inner : Context := { ctx with slots := ⟨some .nullauth, none, none⟩ }
  have hquote : tpmQuote dev env akHandle serverNonce hq pcrIndices inner =
      .ok (attest, dev.sign ak.publicArea attest) inner := tpmQuote_of_lookup hsmooth hq hak
  have hexec := executeWithNullauthSession_of_ok hquote
  obtain ⟨values, hvalues⟩ := readPcrValues_returns hsmooth hrange ctx
  obtain ⟨signature, hsignature⟩ := marshalSignature_returns (hsign attest) ctx
  refine ⟨⟨attest, signature, values⟩, ?_⟩
  rw [quoteWithKey, Effect.bind_of_ok (pcrSlots_of_inRange hrange),
    Effect.bind_of_ok (attempt_of_none (hsmooth _)), dif_pos hq,
    Effect.bind_of_ok (attempt_of_none (hsmooth _)), Effect.bind_of_ok hexec]
  dsimp only [inner]
  rw [Effect.bind_of_ok (attempt_of_none (hsmooth _)), Effect.bind_of_ok hvalues,
    Effect.bind_of_ok hsignature]
  rfl

/-- The AK of a session can be used, and signs with a supported scheme. -/
def AkUsable (dev : Device) (ctx : Context) : KeyState → Prop
  | .live handle => ∃ ak, ctx.objects.lookup handle = some ak ∧
      ∀ attest, dev.sign ak.publicArea attest ≠ .other
  | .saved context => ∀ attest, dev.sign context.object.publicArea attest ≠ .other

theorem ensureLoaded_ak_returns (hsmooth : env.Smooth)
    {s : Context × ManagedAttestationSession} (h : AkUsable dev s.1 s.2.akState) :
    ∃ handle s' ak, TpmContextManager.ensureLoaded env .ak s = .ok handle s' ∧
      s'.1.objects.lookup handle = some ak ∧
        ∀ attest, dev.sign ak.publicArea attest ≠ .other := by
  obtain ⟨ctx, session⟩ := s
  have hkey : keyState .ak (ctx, session) = .ok session.akState (ctx, session) := rfl
  rw [TpmContextManager.ensureLoaded, Effect.bind_of_ok hkey]
  cases hstate : session.akState with
  | live handle =>
      rw [hstate] at h
      obtain ⟨ak, hak, hsign⟩ := h
      exact ⟨handle, (ctx, session), ak, rfl, hak, hsign⟩
  | saved context =>
      rw [hstate] at h
      have hload : contextLoad env (.contextLoad .ak)
          (fun e => .esapi ("context_load failed: " ++ e)) context ctx =
            loadObject context.object ctx := by
        rw [contextLoad, Effect.bind_of_ok (attempt_of_none (hsmooth _))]
      dsimp only
      rw [Effect.bind_of_ok (Effect.onFst_of_ok hload)]
      exact ⟨_, _, context.object, rfl, HandleTable.lookup_alloc_self, h⟩

theorem quote_returns (hsmooth : env.Smooth) (hrange : ∀ i ∈ pcrIndices, i.toNat ≤ 23)
    (hq : serverNonce.length ≤ maxDataSize) (hasResourceManager : Bool)
    {s : Context × ManagedAttestationSession} (h : AkUsable dev s.1 s.2.akState) :
    ∃ out s', TpmContextManager.quote dev env hasResourceManager serverNonce pcrIndices s =
      .ok out s' := by
  obtain ⟨handle, s', ak, hload, hak, hsign⟩ := ensureLoaded_ak_returns hsmooth h
  obtain ⟨out, hout⟩ := quoteWithKey_returns hsmooth hrange hq hak hsign
  obtain ⟨s'', hclean⟩ :=
    Effect.ignore_returns (TpmContextManager.saveIfNeeded env hasResourceManager .ak) s'
  refine ⟨out, s'', Effect.andThenCleanup_of_ok ?_ hclean⟩
  rw [TpmContextManager.quoteInner, Effect.bind_of_ok hload, Effect.onFst_of_ok hout]

/-- The quote carries every requested register and passes the binding check. -/
def Honest (dev : Device) (env : Env) (pcrIndices : List UInt8) (out : QuoteOutput) : Prop :=
  Covers env.pcrBank pcrIndices out.pcrValues ∧
    verifyPcrBinding dev.sha out.quote out.pcrValues = .ok ()

theorem QuoteOf.honest_iff {out : QuoteOutput} (h : QuoteOf dev env serverNonce pcrIndices out) :
    Honest dev env pcrIndices out ↔ PairsCorrectly env.pcrBank pcrIndices := by
  obtain ⟨hrange, ⟨ak, hq, hquote⟩, hvalues⟩ := h
  rw [Honest, hvalues, covers_iff_pairsCorrectly hrange]
  refine ⟨fun hh => hh.1, fun hh => ⟨hh, ?_⟩⟩
  rw [hquote]
  exact verifyPcrBinding_of_pairsCorrectly hrange hh ak hq

theorem quote_ok {hasResourceManager : Bool} {out : QuoteOutput}
    {s s' : Context × ManagedAttestationSession}
    (h : TpmContextManager.quote dev env hasResourceManager serverNonce pcrIndices s = .ok out s') :
    QuoteOf dev env serverNonce pcrIndices out := by
  obtain ⟨_, hinner⟩ := Effect.andThenCleanup_ok h
  obtain ⟨akHandle, _, -, hquote⟩ := Effect.bind_ok_iff.mp hinner
  exact quoteWithKey_ok (Effect.onFst_ok hquote)

end Quote

/-- A returned quote, of either kind of session, is honest exactly when the requested
registers pair correctly with the ascending ones; and where no place fails, a quote with
a usable key is returned. -/
theorem quote_honest_iff (dev : Device) (env : Env) (serverNonce : Bytes)
    (pcrIndices : List UInt8) :
    (∀ (session : AttestationSession) (ctx ctx' : Context) (out : QuoteOutput),
      session.quote dev env serverNonce pcrIndices ctx = .ok out ctx' →
        (Honest dev env pcrIndices out ↔ PairsCorrectly env.pcrBank pcrIndices)) ∧
    (∀ (hasResourceManager : Bool) (s s' : Context × ManagedAttestationSession)
      (out : QuoteOutput),
      TpmContextManager.quote dev env hasResourceManager serverNonce pcrIndices s = .ok out s' →
        (Honest dev env pcrIndices out ↔ PairsCorrectly env.pcrBank pcrIndices)) ∧
    (env.Smooth → (∀ i ∈ pcrIndices, i.toNat ≤ 23) → serverNonce.length ≤ maxDataSize →
      (∀ (session : AttestationSession) (ctx : Context),
        AkUsable dev ctx (.live session.akHandle) →
          ∃ out ctx', session.quote dev env serverNonce pcrIndices ctx = .ok out ctx') ∧
      (∀ (hasResourceManager : Bool) (s : Context × ManagedAttestationSession),
        AkUsable dev s.1 s.2.akState →
          ∃ out s', TpmContextManager.quote dev env hasResourceManager serverNonce pcrIndices s =
            .ok out s')) := by
  refine ⟨fun _ _ _ _ h => (quoteWithKey_ok h).honest_iff,
    fun _ _ _ _ h => (quote_ok h).honest_iff, fun hsmooth hrange hq => ⟨?_, ?_⟩⟩
  · rintro session ctx ⟨ak, hak, hsign⟩
    obtain ⟨out, hout⟩ := quoteWithKey_returns hsmooth hrange hq hak hsign
    exact ⟨out, ctx, hout⟩
  · intro hasResourceManager s husable
    exact quote_returns hsmooth hrange hq hasResourceManager husable

/-! ## Two quotes of one TPM -/

namespace Sample

def device : Device where
  primary _ template :=
    match template with
    | .ek => .rsa (List.replicate 256 0xE1) 0
    | .ak => .other Attestation.sampleAkPub
    | .srk => .rsa (List.replicate 256 0x51) 0
    | .sealedObject policyDigest unique => .other (policyDigest ++ unique)
  primarySensitive _ _ := []
  marshall
    | .rsa unique exponent => unique ++ Bytes.u32be exponent
    | .other area => area
  unmarshall area := .other area
  sha := Attestation.sampleSha2
  activateCredential _ _ _ secret := secret
  qualifiedSigner _ := []
  qualifiedSigner_lt _ := by decide
  sign _ _ := .ecDsa (List.replicate 32 0x01) (List.replicate 32 0x01)
  policyPcrDigest _ digest := digest
  create _ _ data := (data, .other [])
  unwrap _ privateArea _ := privateArea
  unsealData sensitive := sensitive
  wrongParamSize := "wrong parameter size"

/-- No fault, and register `i` holds 32 octets `i + 1`. -/
def env : Env where
  faults _ := none
  pcrBank i := List.replicate 32 (i + 1)
  pcrBank_length _ := List.length_replicate
  clock := List.replicate 25 0
  clock_length := rfl
  ekCert := none

/-- A context with one AK loaded, at handle 0. -/
def loaded : Context :=
  { Context.empty with objects := HandleTable.empty.alloc (device.primaryObject .endorsement .ak) }

def session : AttestationSession := ⟨0, 1, [], []⟩

theorem loaded_lookup :
    loaded.objects.lookup session.akHandle = some (device.primaryObject .endorsement .ak) := rfl

theorem sign_supported (ak : Public) (attest : Bytes) : device.sign ak attest ≠ .other := by
  intro h
  cases h

end Sample

/-- A quote of registers 0, 7 and 9, which hold different values, is returned and honest. -/
theorem quote_honest_of_ascending_registers :
    ∃ out ctx', Sample.session.quote Sample.device Sample.env (List.replicate 32 0xAA) [0, 7, 9]
      Sample.loaded = .ok out ctx' ∧ Honest Sample.device Sample.env [0, 7, 9] out := by
  obtain ⟨hiff, -, hreturns⟩ :=
    quote_honest_iff Sample.device Sample.env (List.replicate 32 0xAA) [0, 7, 9]
  obtain ⟨out, ctx', hout⟩ := (hreturns (fun _ => rfl) (by simp) (by decide)).1 Sample.session
    Sample.loaded ⟨_, Sample.loaded_lookup, Sample.sign_supported _⟩
  have hascending : ascending [0, 7, 9] = [0, 7, 9] := by decide
  refine ⟨out, ctx', hout, (hiff _ _ _ _ hout).mpr ?_⟩
  refine ⟨by rw [hascending]; decide, by rw [hascending]; decide, ?_⟩
  rw [hascending]
  simp

/-- Registers 7 and 0, asked for in this order, come back with each other's content. -/
theorem quote_of_descending_registers_not_honest :
    ¬ ∀ (dev : Device) (env : Env) (serverNonce : Bytes) (pcrIndices : List UInt8)
      (session : AttestationSession) (ctx ctx' : Context) (out : QuoteOutput),
      (∀ i ∈ pcrIndices, i.toNat ≤ 23) →
        session.quote dev env serverNonce pcrIndices ctx = .ok out ctx' →
          Honest dev env pcrIndices out := by
  intro h
  have hreturns : ∃ out, Sample.session.quote Sample.device Sample.env (List.replicate 32 0xAA)
      [7, 0] Sample.loaded = .ok out Sample.loaded :=
    quoteWithKey_returns (fun _ => rfl) (by simp) (by decide) Sample.loaded_lookup
      (Sample.sign_supported _)
  obtain ⟨out, hout⟩ := hreturns
  have hpairs := (quoteWithKey_ok hout).honest_iff.mp (h _ _ _ _ _ _ _ _ (by simp) hout)
  exact absurd (hpairs.agree (7, 0) (by decide)) (by decide)

end Fleetos.Tpm
