import FleetosCore.Attestation.Tpm.Manager

/-!
# What an operation holds

A `Holding` is what a program knows to be loaded, together with the session slots.
`Held fr F H` ties it to a context: the tables show `H`, and `F` are the places that
failed since the frame `fr` was fixed. Every command has one contract in these terms, so
an early return leaves behind exactly what was held at its place.

A frame can be exact, when the tables hold nothing else; this needs every flush to
succeed. It can be strict, when no command was given a handle that is not loaded.
-/

namespace Fleetos.Tpm

open Effect (Contract)
open HandleTable (without)

@[ext] structure Holding where
  objects : List (ObjectHandle × Object)
  sessions : List (SessionHandle × SessionType)
  slots : Slots

namespace Holding

def of (ctx : Context) : Holding := ⟨ctx.objects.entries, ctx.sessions.entries, ctx.slots⟩

variable (H : Holding)

def load (handle : ObjectHandle) (object : Object) : Holding :=
  { H with objects := H.objects ++ [(handle, object)] }

def drop (handle : ObjectHandle) : Holding := { H with objects := without handle H.objects }

def openSession (handle : SessionHandle) (session : SessionType) : Holding :=
  { H with sessions := H.sessions ++ [(handle, session)] }

def closeSession (handle : SessionHandle) : Holding :=
  { H with sessions := without handle H.sessions }

def setSlots (slots : Slots) : Holding := { H with slots := slots }

end Holding

structure Frame where
  exact : Prop
  strict : Prop
  failed : List Step
  stale : List Step
  /-- No more objects than this were ever loaded at once. -/
  bound : Nat

structure Held (fr : Frame) (F : List Step) (H : Holding) (s : Context) : Prop where
  objects : s.objects.Shows fr.exact H.objects
  sessions : s.sessions.Shows fr.exact H.sessions
  slots : s.slots = H.slots
  failed : fr.exact → s.failed = fr.failed ++ F
  stale : fr.strict → s.staleUses = fr.stale
  peak : fr.exact → s.peak ≤ fr.bound

/-- Stopped at `step`, for an admitted reason, while holding `H`. -/
def Halts (fr : Frame) (F : List Step) (why : Step → Prop) (step : Step) (H : Holding)
    (s : Context) : Prop :=
  why step ∧ Held fr (F ++ [step]) H s

/-- Stopped at the first failing place, leaving behind what `leaves` says of it. -/
def Stopped (fr : Frame) (why : Step → Prop) (leaves : Step → Holding → Prop) (s : Context) :
    Prop :=
  ∃ step H, leaves step H ∧ Halts fr [] why step H s

/-- A handle that is loaded, or whose use may fail. -/
def Usable (fr : Frame) (why : Step → Prop) (step : Step) (H : Holding)
    (handle : ObjectHandle) : Prop :=
  (∃ object, (handle, object) ∈ H.objects) ∨ (fr.exact ∧ ¬ fr.strict ∧ why step)

variable {fr : Frame} {F : List Step} {H : Holding} {s : Context} {step : Step}
  {why : Step → Prop} {leaves : Step → Holding → Prop}

/-- A context shows all it holds, before anything is done. -/
theorem held_of (exact strict : Prop) {bound : Nat} (hpeak : s.peak ≤ bound) :
    Held ⟨exact, strict, s.failed, s.staleUses, bound⟩ [] (.of s) s :=
  ⟨.refl, .refl, rfl, fun _ => by simp, fun _ => rfl, fun _ => hpeak⟩

theorem Held.of_eq (h : Held fr F H s) (hexact : fr.exact) : Holding.of s = H :=
  Holding.ext (h.objects.entries_eq hexact) (h.sessions.entries_eq hexact) h.slots

theorem Halts.stopped (h : Halts fr [] why step H s) (hleaves : leaves step H) :
    Stopped fr why leaves s :=
  ⟨step, H, hleaves, h⟩

theorem Held.drop_load {handle : ObjectHandle} {object : Object}
    (h : Held fr F (H.load handle object) s) : (H.load handle object).drop handle = H := by
  refine Holding.ext ?_ rfl rfl
  exact (HandleTable.without_of_split h.objects.nodup).trans (List.append_nil _)

theorem Held.drop_load_load {handle handle' : ObjectHandle} {object object' : Object}
    (h : Held fr F ((H.load handle object).load handle' object') s) :
    ((H.load handle object).load handle' object').drop handle = H.load handle' object' := by
  refine Holding.ext ?_ rfl rfl
  have hnodup := h.objects.nodup
  show without handle (H.objects ++ [(handle, object)] ++ [(handle', object')]) = _
  rw [Holding.load, Holding.load, List.append_assoc, List.singleton_append] at hnodup
  rw [List.append_assoc, List.singleton_append, HandleTable.without_of_split hnodup]
  rfl

theorem Held.object_eq {handle : ObjectHandle} {object object' : Object} (h : Held fr F H s)
    (hmem : (handle, object) ∈ H.objects) (hmem' : (handle, object') ∈ H.objects) :
    object = object' := by
  have hlookup := h.objects.lookup_of_mem hmem
  rw [h.objects.lookup_of_mem hmem', Option.some.injEq] at hlookup
  exact hlookup.symm

theorem Held.close_open {handle : SessionHandle} {session : SessionType}
    (h : Held fr F (H.openSession handle session) s) :
    (H.openSession handle session).closeSession handle = H := by
  refine Holding.ext rfl ?_ rfl
  exact (HandleTable.without_of_split h.sessions.nodup).trans (List.append_nil _)

/-! ## Contracts of the commands -/

section

variable {dev : Device} {env : Env} {wrap : String → TssError} {α : Type}
  {P : Context → Prop} {Q : α → Context → Prop} {handle : ObjectHandle} {object : Object}

/-- A command that can only halt at one place stops its caller there. -/
theorem stops {m : TpmM α} (hm : Contract P m Q fun _ => Halts fr [] why step H)
    (hleaves : leaves step H) : Contract P m Q fun _ => Stopped fr why leaves :=
  hm.mono_fail fun _ _ h => h.stopped hleaves

theorem Held.refused (h : Held fr F H s) :
    Held fr (F ++ [step]) H { s with failed := s.failed ++ [step] } :=
  ⟨h.objects, h.sessions, h.slots, fun hexact => by rw [h.failed hexact, List.append_assoc],
    h.stale, h.peak⟩

theorem held_refuse {e : TssError} (hwhy : why step) :
    Contract (Held fr F H) (refuse step e) Q fun _ => Halts fr F why step H :=
  fun _ hs => ⟨hwhy, hs.refused⟩

/-- A place that was passed does not fail in this environment. -/
theorem held_pass (hfault : env.faults step ≠ none → why step) :
    Contract (Held fr F H) (attempt env step wrap)
      (fun _ s => env.faults step = none ∧ Held fr F H s) fun _ => Halts fr F why step H := by
  intro s hs
  rw [attempt]
  cases hfaults : env.faults step with
  | none => exact ⟨rfl, hs⟩
  | some e => exact ⟨hfault (by rw [hfaults]; exact Option.some_ne_none e), hs.refused⟩

theorem held_attempt (hfault : env.faults step ≠ none → why step) :
    Contract (Held fr F H) (attempt env step wrap) (fun _ => Held fr F H)
      fun _ => Halts fr F why step H :=
  (held_pass hfault).consequence (fun _ hs => hs) (fun _ _ hs => hs.2) fun _ _ hs => hs

theorem held_useObject (husable : Usable fr why step H handle) :
    Contract (Held fr F H) (useObject step wrap handle)
      (fun object s => (handle, object) ∈ H.objects ∧ Held fr F H s)
      fun _ => Halts fr F why step H := by
  intro s hs
  rw [useObject]
  cases hlookup : s.objects.lookup handle with
  | some object =>
      refine ⟨?_, hs⟩
      obtain ⟨object', hmem⟩ | ⟨hexact, -, -⟩ := husable
      · have := hs.objects.lookup_of_mem hmem
        rw [hlookup, Option.some.injEq] at this
        exact this ▸ hmem
      · exact hs.objects.mem_of_lookup hexact hlookup
  | none =>
      obtain ⟨object', hmem⟩ | ⟨-, hlax, hwhy⟩ := husable
      · rw [hs.objects.lookup_of_mem hmem] at hlookup
        cases hlookup
      · have hstale : Held fr F H { s with staleUses := s.staleUses ++ [step] } :=
          ⟨hs.objects, hs.sessions, hs.slots, hs.failed, fun h => absurd h hlax, hs.peak⟩
        exact ⟨hwhy, hstale.refused⟩

theorem held_useSession {session : SessionType} (hmem : (handle, session) ∈ H.sessions) :
    Contract (Held fr F H) (useSession step wrap handle) (fun _ => Held fr F H)
      fun _ => Halts fr F why step H := by
  intro s hs
  rw [useSession, hs.sessions.lookup_of_mem hmem]
  exact hs

theorem held_loadObject {E : TssError → Context → Prop}
    (hroom : fr.exact → H.objects.length + 1 ≤ fr.bound) :
    Contract (Held fr F H) (loadObject object) (fun handle => Held fr F (H.load handle object))
      E := by
  intro s hs
  refine ⟨hs.objects.alloc, hs.sessions, hs.slots, hs.failed, hs.stale, ?_⟩
  intro hexact
  have hlength : (s.objects.alloc object).entries.length = H.objects.length + 1 := by
    rw [HandleTable.alloc_entries, hs.objects.entries_eq hexact, List.length_append,
      List.length_singleton]
  exact max_le (hs.peak hexact) (hlength ▸ hroom hexact)

theorem held_loadSession {session : SessionType} {E : TssError → Context → Prop} :
    Contract (Held fr F H) (loadSession session)
      (fun handle => Held fr F (H.openSession handle session)) E :=
  fun _ hs => ⟨hs.objects, hs.sessions.alloc, hs.slots, hs.failed, hs.stale, hs.peak⟩

theorem held_setSessions {slots : Slots} {E : TssError → Context → Prop} :
    Contract (Held fr F H) (setSessions slots) (fun _ => Held fr F (H.setSlots slots)) E :=
  fun _ hs => ⟨hs.objects, hs.sessions, rfl, hs.failed, hs.stale, hs.peak⟩

/-- The slots are the only thing the wrapper changes, and it puts them back. -/
theorem held_nullauth {f : TpmM α} {φ : α → Prop} {G : α → Holding}
    (hslots : ∀ a, (G a).slots = H.slots)
    (hf : ∀ slots, Contract (Held fr F (H.setSlots slots)) f
      (fun a s => φ a ∧ Held fr F ((G a).setSlots slots) s)
      fun _ => Halts fr F why step (H.setSlots slots)) :
    Contract (Held fr F H) (executeWithNullauthSession f) (fun a s => φ a ∧ Held fr F (G a) s)
      fun _ => Halts fr F why step H := by
  intro s hs
  have hrun := hf ⟨some .nullauth, none, none⟩ { s with slots := ⟨some .nullauth, none, none⟩ }
    ⟨hs.objects, hs.sessions, rfl, hs.failed, hs.stale, hs.peak⟩
  rw [executeWithNullauthSession]
  cases hf' : f { s with slots := ⟨some .nullauth, none, none⟩ } with
  | ok a s' =>
      rw [hf'] at hrun
      obtain ⟨hφ, hheld⟩ := hrun
      exact ⟨hφ, hheld.objects, hheld.sessions, hs.slots.trans (hslots a).symm, hheld.failed,
        hheld.stale, hheld.peak⟩
  | error e s' =>
      rw [hf'] at hrun
      obtain ⟨hwhy, hheld⟩ := hrun
      exact ⟨hwhy, hheld.objects, hheld.sessions, hs.slots, hheld.failed, hheld.stale, hheld.peak⟩

theorem held_nullauth_keep {f : TpmM α}
    (hf : ∀ slots, Contract (Held fr F (H.setSlots slots)) f
      (fun _ => Held fr F (H.setSlots slots)) fun _ => Halts fr F why step (H.setSlots slots)) :
    Contract (Held fr F H) (executeWithNullauthSession f) (fun _ => Held fr F H)
      fun _ => Halts fr F why step H := by
  have hrun := held_nullauth (φ := fun _ => True) (G := fun _ => H) (fun _ => rfl) fun slots =>
    (hf slots).consequence (fun _ hs => hs) (fun _ _ hs => ⟨trivial, hs⟩) fun _ _ hs => hs
  exact hrun.consequence (fun _ hs => hs) (fun _ _ hs => hs.2) fun _ _ hs => hs

theorem held_createPrimary {hierarchy : Hierarchy} {template : Template}
    (hfault : env.faults step ≠ none → why step)
    (hroom : fr.exact → H.objects.length + 1 ≤ fr.bound) :
    Contract (Held fr F H) (executeWithNullauthSession
        (createPrimary dev env step wrap hierarchy template))
      (fun key s => key.2 = dev.primary hierarchy template ∧
        Held fr F (H.load key.1 (dev.primaryObject hierarchy template)) s)
      fun _ => Halts fr F why step H := by
  refine held_nullauth (fun _ => rfl) fun slots => ?_
  apply Contract.bind (held_attempt hfault)
  intro _
  apply Contract.bind (held_loadObject (H := H.setSlots slots) hroom)
  intro handle
  exact Contract.pure fun _ hs => ⟨rfl, hs⟩

theorem held_contextSave (husable : Usable fr why step H handle)
    (hfault : env.faults step ≠ none → why step) :
    Contract (Held fr F H) (contextSave env step wrap handle)
      (fun saved s => (handle, saved.object) ∈ H.objects ∧ Held fr F H s)
      fun _ => Halts fr F why step H := by
  apply Contract.bind (held_useObject husable)
  intro object
  apply Contract.assume
  intro hmem
  apply Contract.bind (held_attempt hfault)
  intro _
  exact Contract.pure fun _ hs => ⟨hmem, hs⟩

theorem held_contextSave_of_mem (hmem : (handle, object) ∈ H.objects)
    (hfault : env.faults step ≠ none → why step) :
    Contract (Held fr F H) (contextSave env step wrap handle)
      (fun saved s => saved = ⟨object⟩ ∧ Held fr F H s) fun _ => Halts fr F why step H := by
  refine (held_contextSave (.inl ⟨object, hmem⟩) hfault).consequence (fun _ hs => hs) ?_
    fun _ _ hs => hs
  rintro saved s ⟨hsaved, hs⟩
  exact ⟨congrArg TpmsContext.mk (hs.object_eq hsaved hmem), hs⟩

theorem held_contextLoad {saved : TpmsContext} (hfault : env.faults step ≠ none → why step)
    (hroom : fr.exact → H.objects.length + 1 ≤ fr.bound) :
    Contract (Held fr F H) (contextLoad env step wrap saved)
      (fun handle => Held fr F (H.load handle saved.object)) fun _ => Halts fr F why step H :=
  Contract.bind (held_attempt hfault) fun _ => held_loadObject hroom

/-- A flush that fails leaves the object loaded, but no longer known. -/
theorem held_flushObject {E : TssError → Context → Prop}
    (hflush : fr.exact → env.faults step = none) (hmem : (handle, object) ∈ H.objects) :
    Contract (Held fr F H) (flushObject env step handle)
      (fun _ => Held fr F (H.drop handle)) E := by
  apply Contract.ignore
  intro s hs
  rw [Effect.bind_of_ok (useObject_of_lookup (hs.objects.lookup_of_mem hmem))]
  cases hfaults : env.faults step with
  | none =>
      rw [Effect.bind_of_ok (attempt_of_none hfaults)]
      exact ⟨hs.objects.free, hs.sessions, hs.slots, hs.failed, hs.stale, hs.peak⟩
  | some e =>
      have hinexact : ¬ fr.exact := fun hexact => by
        rw [hflush hexact] at hfaults
        cases hfaults
      rw [Effect.bind_of_error (attempt_of_some hfaults)]
      exact ⟨hs.objects.forget hinexact, hs.sessions, hs.slots,
        fun hexact => absurd hexact hinexact, hs.stale, hs.peak⟩

theorem held_unload {E : TssError → Context → Prop}
    (hflush : fr.exact → env.faults step = none) :
    Contract (Held fr F (H.load handle object)) (flushObject env step handle)
      (fun _ => Held fr F H) E := by
  intro s hs
  have hmem : (handle, object) ∈ (H.load handle object).objects :=
    List.mem_append_right _ List.mem_cons_self
  have hrun := held_flushObject (E := E) hflush hmem s hs
  rwa [hs.drop_load] at hrun

theorem held_unload_under {handle' : ObjectHandle} {object' : Object}
    {E : TssError → Context → Prop} (hflush : fr.exact → env.faults step = none) :
    Contract (Held fr F ((H.load handle object).load handle' object'))
      (flushObject env step handle) (fun _ => Held fr F (H.load handle' object')) E := by
  intro s hs
  have hmem : (handle, object) ∈ ((H.load handle object).load handle' object').objects :=
    List.mem_append_left _ (List.mem_append_right _ List.mem_cons_self)
  have hrun := held_flushObject (E := E) hflush hmem s hs
  rwa [hs.drop_load_load] at hrun

theorem held_flushSession {session : SessionType} {E : TssError → Context → Prop}
    (hflush : fr.exact → env.faults .flushSession = none) :
    Contract (Held fr F (H.openSession handle session)) (flushSession env handle)
      (fun _ => Held fr F H) E := by
  apply Contract.ignore
  intro s hs
  have hmem : (handle, session) ∈ (H.openSession handle session).sessions :=
    List.mem_append_right _ List.mem_cons_self
  have huse : useSession .flushSession .esapi handle s = .ok session s := by
    rw [useSession, hs.sessions.lookup_of_mem hmem]
  rw [Effect.bind_of_ok huse]
  cases hfaults : env.faults .flushSession with
  | none =>
      rw [Effect.bind_of_ok (attempt_of_none hfaults)]
      have hheld : Held fr F ((H.openSession handle session).closeSession handle)
          { s with sessions := s.sessions.free handle } :=
        ⟨hs.objects, hs.sessions.free, hs.slots, hs.failed, hs.stale, hs.peak⟩
      rwa [hs.close_open] at hheld
  | some e =>
      have hinexact : ¬ fr.exact := fun hexact => by
        rw [hflush hexact] at hfaults
        cases hfaults
      rw [Effect.bind_of_error (attempt_of_some hfaults)]
      have hheld : Held fr F ((H.openSession handle session).closeSession handle)
          { s with failed := s.failed ++ [.flushSession] } :=
        ⟨hs.objects, hs.sessions.forget hinexact, hs.slots,
          fun hexact => absurd hexact hinexact, hs.stale, hs.peak⟩
      rwa [hs.close_open] at hheld

/-- `policySecret` and `policyPcr`. -/
theorem held_policyCommand {session : SessionType} (hfault : env.faults step ≠ none → why step)
    (hmem : (handle, session) ∈ H.sessions) :
    Contract (Held fr F H)
      (do
        let _ ← useSession step wrap handle
        attempt env step wrap)
      (fun _ => Held fr F H) fun _ => Halts fr F why step H := by
  apply Contract.bind (held_useSession hmem)
  intro _
  exact held_attempt hfault

end

end Fleetos.Tpm
