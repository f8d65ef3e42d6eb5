import FleetosCore.Attestation.Tpm.Operations
import Mathlib.Logic.Relation

/-!
# The keys of a session

Between operations a session's keys move between the TPM and memory. All of it is made
of two steps, loading a saved key at a new handle and saving a loaded one before its
handle is flushed. What these steps keep is proved once and carried to every sequence of
them: the entries that are not the session's own, the balance of loaded objects against
live keys, and that a key state tells the truth about its key.
-/

namespace Fleetos.Tpm

open Effect (Contract)
open HandleTable (without)

namespace ManagedAttestationSession

variable {session : ManagedAttestationSession} {role role' : KeyRole} {state : KeyState}

@[simp] theorem key_setKey_self : (session.setKey role state).key role = state := by
  cases role with
  | ek => rfl
  | ak => rfl

theorem key_setKey_of_ne (hne : role' ≠ role) :
    (session.setKey role state).key role' = session.key role' := by
  cases role with
  | ek =>
      cases role' with
      | ek => exact absurd rfl hne
      | ak => rfl
  | ak =>
      cases role' with
      | ek => rfl
      | ak => exact absurd rfl hne

end ManagedAttestationSession

def KeyState.IsSaved : KeyState → Prop
  | .live _ => False
  | .saved _ => True

/-- The loaded objects together with a session's view of its keys. -/
abbrev Keys : Type := List (ObjectHandle × Object) × ManagedAttestationSession

/-- One key of the given roles is loaded or saved. -/
inductive KeyStep (roles : KeyRole → Bool) : Keys → Keys → Prop
  | load {O : List (ObjectHandle × Object)} {session : ManagedAttestationSession}
      {role : KeyRole} {saved : TpmsContext} {handle : ObjectHandle} :
      roles role → session.key role = .saved saved → handle ∉ O.map Prod.fst →
        KeyStep roles (O, session)
          (O ++ [(handle, saved.object)], session.setKey role (.live handle))
  | save {O : List (ObjectHandle × Object)} {session : ManagedAttestationSession}
      {role : KeyRole} {handle : ObjectHandle} {object : Object} :
      roles role → session.key role = .live handle → (O.map Prod.fst).Nodup →
        (handle, object) ∈ O →
          KeyStep roles (O, session) (without handle O, session.setKey role (.saved ⟨object⟩))

abbrev KeySteps (roles : KeyRole → Bool) : Keys → Keys → Prop :=
  Relation.ReflTransGen (KeyStep roles)

/-! ## Entries of others -/

/-- The handle is not that of a live key. -/
def Spare (roles : KeyRole → Bool) (session : ManagedAttestationSession)
    (handle : ObjectHandle) : Prop :=
  ∀ role, roles role → session.key role ≠ .live handle

instance {roles : KeyRole → Bool} {session : ManagedAttestationSession}
    {handle : ObjectHandle} : Decidable (Spare roles session handle) :=
  decidable_of_iff ((roles .ek → session.key .ek ≠ .live handle) ∧
      (roles .ak → session.key .ak ≠ .live handle))
    ⟨fun h role => by
      cases role with
      | ek => exact h.1
      | ak => exact h.2,
    fun h => ⟨h .ek, h .ak⟩⟩

/-- The loaded objects that are not the session's. -/
def others (roles : KeyRole → Bool) (k : Keys) : List (ObjectHandle × Object) :=
  k.1.filter fun e => Spare roles k.2 e.1

variable {roles : KeyRole → Bool} {k k' : Keys}

theorem spare_setKey {session : ManagedAttestationSession} {role : KeyRole} {state : KeyState}
    {handle : ObjectHandle} (hrole : roles role) :
    Spare roles (session.setKey role state) handle ↔
      state ≠ .live handle ∧ ∀ role' ≠ role, roles role' → session.key role' ≠ .live handle := by
  constructor
  · intro h
    refine ⟨fun hstate => h role hrole (by simp [hstate]), fun role' hne hrole' => ?_⟩
    rw [← ManagedAttestationSession.key_setKey_of_ne hne]
    exact h role' hrole'
  · rintro ⟨hstate, hrest⟩ role' hrole'
    by_cases hne : role' = role
    · rw [hne, ManagedAttestationSession.key_setKey_self]
      exact hstate
    · rw [ManagedAttestationSession.key_setKey_of_ne hne]
      exact hrest role' hne hrole'

theorem spare_iff {session : ManagedAttestationSession} {role : KeyRole}
    {handle : ObjectHandle} (hrole : roles role) :
    Spare roles session handle ↔ session.key role ≠ .live handle ∧
      ∀ role' ≠ role, roles role' → session.key role' ≠ .live handle := by
  refine ⟨fun h => ⟨h role hrole, fun role' _ => h role'⟩, ?_⟩
  rintro ⟨hkey, hrest⟩ role' hrole'
  by_cases hne : role' = role
  · exact hne ▸ hkey
  · exact hrest role' hne hrole'

theorem KeyStep.others_eq (h : KeyStep roles k k') : others roles k' = others roles k := by
  cases h with
  | load hrole hkey hfresh =>
      rename_i O session role saved handle
      rw [others, others, List.filter_append]
      have hself : ¬ Spare roles (session.setKey role (.live handle)) handle := by
        rw [spare_setKey hrole]
        exact fun h => h.1 rfl
      rw [List.filter_cons_of_neg (by simpa using hself), List.filter_nil, List.append_nil]
      apply List.filter_congr
      intro e he
      have hne : e.1 ≠ handle := fun heq => hfresh (heq ▸ List.mem_map_of_mem he)
      rw [decide_eq_decide, spare_setKey hrole, spare_iff hrole, hkey]
      refine and_congr_left fun _ => iff_of_true ?_ KeyState.noConfusion
      exact fun heq => hne (KeyState.live.inj heq).symm
  | save hrole hkey hnodup hmem =>
      rename_i O session role handle object
      rw [others, others, without, List.filter_filter]
      apply List.filter_congr
      intro e _
      have hiff : (Spare roles (session.setKey role (.saved ⟨object⟩)) e.1 ∧ e.1 ≠ handle) ↔
          Spare roles session e.1 := by
        rw [spare_setKey hrole, spare_iff hrole, hkey]
        constructor
        · rintro ⟨⟨-, hrest⟩, hne⟩
          exact ⟨fun heq => hne (KeyState.live.inj heq).symm, hrest⟩
        · rintro ⟨hne, hrest⟩
          exact ⟨⟨KeyState.noConfusion, hrest⟩, fun heq => hne (heq ▸ rfl)⟩
      rw [Bool.eq_iff_iff, Bool.and_eq_true, decide_eq_true_eq, decide_eq_true_eq,
        decide_eq_true_eq, hiff]

/-- Entries of others stay as they are, in their order. -/
theorem KeySteps.others_eq (h : KeySteps roles k k') : others roles k' = others roles k := by
  induction h with
  | refl => rfl
  | tail _ hstep ih => exact hstep.others_eq.trans ih

theorem others_eq_self (hsaved : ∀ role, roles role → (k.2.key role).IsSaved) :
    others roles k = k.1 := by
  rw [others, List.filter_eq_self]
  intro e _
  rw [decide_eq_true_eq]
  intro role hrole hkey
  have := hsaved role hrole
  rw [hkey] at this
  exact this

/-! ## Loaded objects against live keys -/

def KeyState.weight : KeyState → Nat
  | .live _ => 1
  | .saved _ => 0

/-- The number of live keys of the given roles. -/
def liveKeys (roles : KeyRole → Bool) (session : ManagedAttestationSession) : Nat :=
  (if roles .ek then (session.key .ek).weight else 0) +
    (if roles .ak then (session.key .ak).weight else 0)

theorem KeyState.weight_eq_zero_iff {state : KeyState} : state.weight = 0 ↔ state.IsSaved := by
  cases state with
  | live handle => exact iff_of_false Nat.one_ne_zero id
  | saved context => exact iff_of_true rfl trivial

theorem liveKeys_setKey (session : ManagedAttestationSession) {role : KeyRole}
    (state : KeyState) (hrole : roles role) :
    liveKeys roles (session.setKey role state) + (session.key role).weight =
      liveKeys roles session + state.weight := by
  cases role with
  | ek =>
      simp only [liveKeys, hrole, if_true, ManagedAttestationSession.key,
        ManagedAttestationSession.setKey]
      omega
  | ak =>
      simp only [liveKeys, hrole, if_true, ManagedAttestationSession.key,
        ManagedAttestationSession.setKey]
      omega

theorem liveKeys_eq_zero_iff {session : ManagedAttestationSession} :
    liveKeys roles session = 0 ↔ ∀ role, roles role → (session.key role).IsSaved := by
  rw [liveKeys, Nat.add_eq_zero_iff]
  constructor
  · rintro ⟨hek, hak⟩ role hrole
    cases role with
    | ek => exact KeyState.weight_eq_zero_iff.mp (by rwa [if_pos hrole] at hek)
    | ak => exact KeyState.weight_eq_zero_iff.mp (by rwa [if_pos hrole] at hak)
  · intro h
    refine ⟨?_, ?_⟩
    · split
      · exact KeyState.weight_eq_zero_iff.mpr (h .ek ‹_›)
      · rfl
    · split
      · exact KeyState.weight_eq_zero_iff.mpr (h .ak ‹_›)
      · rfl

theorem KeyStep.balance (h : KeyStep roles k k') :
    k'.1.length + liveKeys roles k.2 = k.1.length + liveKeys roles k'.2 := by
  cases h with
  | load hrole hkey hfresh =>
      rename_i O session role saved handle
      have hlive := liveKeys_setKey session (.live handle) hrole
      rw [hkey] at hlive
      simp only [KeyState.weight] at hlive
      dsimp only
      rw [List.length_append, List.length_singleton]
      omega
  | save hrole hkey hnodup hmem =>
      rename_i O session role handle object
      have hlive := liveKeys_setKey session (.saved ⟨object⟩) hrole
      rw [hkey] at hlive
      simp only [KeyState.weight] at hlive
      have hlength := HandleTable.length_without hnodup hmem
      dsimp only
      omega

/-- Every live key stands for one loaded object. -/
theorem KeySteps.balance (h : KeySteps roles k k') :
    k'.1.length + liveKeys roles k.2 = k.1.length + liveKeys roles k'.2 := by
  induction h with
  | refl => rfl
  | tail _ hstep ih =>
      have := hstep.balance
      omega

/-! ## Truthful key states -/

/-- A live key is loaded at its handle; a saved key can be loaded from its context. -/
def KeyState.Holds (O : List (ObjectHandle × Object)) (object : Object) : KeyState → Prop
  | .live handle => (handle, object) ∈ O
  | .saved context => context.object = object

/-- Both key states are truthful, and no handle stands for both keys. -/
structure Truthful (dev : Device) (k : Keys) : Prop where
  holds : ∀ role, (k.2.key role).Holds k.1 (keyObject dev role)
  distinct : ∀ handle, k.2.key .ek = .live handle → k.2.key .ak ≠ .live handle

variable {dev : Device}

theorem Truthful.key_ne {role role' : KeyRole} {handle : ObjectHandle} (h : Truthful dev k)
    (hne : role' ≠ role) (hkey : k.2.key role = .live handle) : k.2.key role' ≠ .live handle := by
  intro hkey'
  cases role with
  | ek =>
      cases role' with
      | ek => exact hne rfl
      | ak => exact h.distinct handle hkey hkey'
  | ak =>
      cases role' with
      | ek => exact h.distinct handle hkey' hkey
      | ak => exact hne rfl

/-- One key changes its state truthfully; the other key's handle stays loaded and is not
the new one. -/
theorem Truthful.setKey {role : KeyRole} {state : KeyState}
    {O : List (ObjectHandle × Object)} (h : Truthful dev k)
    (hself : state.Holds O (keyObject dev role))
    (hrest : ∀ role' ≠ role, ∀ handle, k.2.key role' = .live handle →
      state ≠ .live handle ∧ ∀ object, (handle, object) ∈ k.1 → (handle, object) ∈ O) :
    Truthful dev (O, k.2.setKey role state) := by
  have hother : ∀ role' ≠ role, (k.2.key role').Holds O (keyObject dev role') := by
    intro role' hne
    have hheld := h.holds role'
    cases hkey : k.2.key role' with
    | live handle =>
        rw [hkey] at hheld
        exact (hrest role' hne handle hkey).2 _ hheld
    | saved context =>
        rw [hkey] at hheld
        exact hheld
  refine ⟨fun role' => ?_, fun handle hek hak => ?_⟩
  · by_cases hne : role' = role
    · rw [hne, ManagedAttestationSession.key_setKey_self]
      exact hself
    · rw [ManagedAttestationSession.key_setKey_of_ne hne]
      exact hother role' hne
  · cases role with
    | ek => exact (hrest .ak KeyRole.noConfusion handle hak).1 hek
    | ak => exact (hrest .ek KeyRole.noConfusion handle hek).1 hak

theorem KeyStep.truthful (h : KeyStep roles k k') (hk : Truthful dev k) : Truthful dev k' := by
  cases h with
  | load hrole hkey hfresh =>
      rename_i O session role saved handle
      apply hk.setKey
      · have hheld := hk.holds role
        rw [hkey] at hheld
        have hobject : saved.object = keyObject dev role := hheld
        exact hobject ▸ List.mem_append_right _ List.mem_cons_self
      · intro role' _ handle' hkey'
        have hheld := hk.holds role'
        rw [hkey'] at hheld
        refine ⟨fun heq => hfresh ?_, fun object hmem => List.mem_append_left _ hmem⟩
        rw [KeyState.live.inj heq]
        exact List.mem_map_of_mem hheld
  | save hrole hkey hnodup hmem =>
      rename_i O session role handle object
      apply hk.setKey
      · have hheld := hk.holds role
        rw [hkey] at hheld
        exact (Prod.mk.inj (List.inj_on_of_nodup_map hnodup hmem hheld rfl)).2
      · intro role' hne handle' hkey'
        refine ⟨KeyState.noConfusion, fun object' hmem' => ?_⟩
        refine HandleTable.mem_without.mpr ⟨hmem', fun heq => ?_⟩
        exact hk.key_ne hne hkey (heq ▸ hkey')

/-- Key states stay truthful. -/
theorem KeySteps.truthful (h : KeySteps roles k k') (hk : Truthful dev k) : Truthful dev k' := by
  induction h with
  | refl => exact hk
  | tail _ hstep ih => exact hstep.truthful ih

/-- What is loaded besides does not matter. -/
theorem Truthful.mono {O O' : List (ObjectHandle × Object)} {session : ManagedAttestationSession}
    (h : Truthful dev (O, session)) (hsub : ∀ role handle, session.key role = .live handle →
      (handle, keyObject dev role) ∈ O → (handle, keyObject dev role) ∈ O') :
    Truthful dev (O', session) := by
  refine ⟨fun role => ?_, h.distinct⟩
  have hheld := h.holds role
  cases hkey : session.key role with
  | live handle =>
      rw [hkey] at hheld
      exact hsub role handle hkey hheld
  | saved context =>
      rw [hkey] at hheld
      exact hheld

theorem Truthful.mem_of_live {role : KeyRole} {handle : ObjectHandle} (h : Truthful dev k)
    (hkey : k.2.key role = .live handle) : (handle, keyObject dev role) ∈ k.1 := by
  have hheld := h.holds role
  rwa [hkey] at hheld

theorem KeyStep.publishes (h : KeyStep roles k k') (hk : Publishes dev k.2) :
    Publishes dev k'.2 := by
  cases h with
  | load hrole hkey hfresh =>
      rename_i role _ _
      cases role with
      | ek => exact ⟨hk.ak, hk.ek⟩
      | ak => exact ⟨hk.ak, hk.ek⟩
  | save hrole hkey hnodup hmem =>
      rename_i role _ _
      cases role with
      | ek => exact ⟨hk.ak, hk.ek⟩
      | ak => exact ⟨hk.ak, hk.ek⟩

theorem KeySteps.publishes (h : KeySteps roles k k') (hk : Publishes dev k.2) :
    Publishes dev k'.2 := by
  induction h with
  | refl => exact hk
  | tail _ hstep ih => exact hstep.publishes ih

theorem KeyStep.mono {roles' : KeyRole → Bool} (hroles : ∀ role, roles role → roles' role)
    (h : KeyStep roles k k') : KeyStep roles' k k' := by
  cases h with
  | load hrole hkey hfresh => exact .load (hroles _ hrole) hkey hfresh
  | save hrole hkey hnodup hmem => exact .save (hroles _ hrole) hkey hnodup hmem

theorem KeySteps.mono {roles' : KeyRole → Bool} (hroles : ∀ role, roles role → roles' role)
    (h : KeySteps roles k k') : KeySteps roles' k k' := by
  induction h with
  | refl => exact .refl
  | tail _ hstep ih => exact ih.tail (hstep.mono hroles)

/-- Keys of other roles are not touched. -/
theorem KeyStep.key_eq {role : KeyRole} (h : KeyStep roles k k') (hrole : ¬ roles role) :
    k'.2.key role = k.2.key role := by
  cases h with
  | load hrole' hkey hfresh =>
      exact ManagedAttestationSession.key_setKey_of_ne fun heq => hrole (heq ▸ hrole')
  | save hrole' hkey hnodup hmem =>
      exact ManagedAttestationSession.key_setKey_of_ne fun heq => hrole (heq ▸ hrole')

theorem KeySteps.key_eq {role : KeyRole} (h : KeySteps roles k k') (hrole : ¬ roles role) :
    k'.2.key role = k.2.key role := by
  induction h with
  | refl => rfl
  | tail _ hstep ih => exact (hstep.key_eq hrole).trans ih

end Fleetos.Tpm
