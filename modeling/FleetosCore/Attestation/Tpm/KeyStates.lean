import FleetosCore.Attestation.Tpm.Runs

/-!
# No session holds a dangling key

Whatever fails and whichever backend is used, every key state of every open session is
truthful after every call: a live handle has that session's key loaded, a saved context
restores it, no two live keys share a handle, and no command was ever given a handle
that is not loaded. The invariant is kept by each operation because key steps touch the
session's own entries only, and because an inexact frame survives failing flushes.
-/

namespace Fleetos.Tpm

open HandleTable (without)

/-- No handle stands for a key of both sessions. -/
def Apart (a b : ManagedAttestationSession) : Prop :=
  ∀ role role' handle, a.key role = .live handle → b.key role' ≠ .live handle

theorem Apart.symm {a b : ManagedAttestationSession} (h : Apart a b) : Apart b a :=
  fun role role' handle hb ha => h role' role handle ha hb

theorem Apart.spare {roles : KeyRole → Bool} {a b : ManagedAttestationSession} {role : KeyRole}
    {handle : ObjectHandle} (h : Apart a b) (hb : b.key role = .live handle) :
    Spare roles a handle :=
  fun role' _ ha => h role' role handle ha hb

structure Sound (dev : Device) (m : Managed) : Prop where
  truthful : ∀ session ∈ m.sessions, Truthful dev (m.context.objects.entries, session)
  publishes : ∀ session ∈ m.sessions, Publishes dev session
  apart : m.sessions.Pairwise Apart
  stale : m.context.staleUses = []

/-- Flushes may fail, and no handle may be used that is not loaded. -/
def looseFrame (ctx : Context) : Frame := ⟨False, True, ctx.failed, [], ctx.peak⟩

section

variable {dev : Device} {m : Managed} {ctx : Context} {F : List Step} {H : Holding}
  {session : ManagedAttestationSession}

theorem Sound.held (h : Sound dev m) :
    Held (looseFrame m.context) [] (.of m.context) m.context := by
  have hheld := held_of (s := m.context) False True (Nat.le_refl m.context.peak)
  rwa [h.stale] at hheld

/-- Other sessions' objects are still there. -/
theorem Sound.keep (h : Sound dev m) (hheld : Held (looseFrame m.context) F H ctx)
    (hobjects : m.context.objects.entries ⊆ H.objects) : Sound dev ⟨ctx, m.sessions⟩ := by
  refine ⟨fun session hsession => ?_, h.publishes, h.apart, hheld.stale trivial⟩
  refine (h.truthful session hsession).mono fun role handle _ hmem => ?_
  exact hheld.objects.sublist.subset (hobjects hmem)

theorem rest_subset {before after : List ManagedAttestationSession}
    (hsessions : m.sessions = before ++ session :: after) : before ++ after ⊆ m.sessions := by
  intro other hmem
  rw [hsessions]
  exact List.mem_append.mpr ((List.mem_append.mp hmem).imp_right (List.mem_cons_of_mem _))

/-- The session at a place has nothing in common with the rest. -/
theorem Sound.apart_at {before after : List ManagedAttestationSession} (h : Sound dev m)
    (hsessions : m.sessions = before ++ session :: after) :
    (∀ other ∈ before ++ after, Apart session other) ∧ (before ++ after).Pairwise Apart := by
  have hpair := h.apart
  rw [hsessions, List.pairwise_middle Apart.symm, List.pairwise_cons] at hpair
  exact hpair

/-- A live key of another session is not among the session's own objects. -/
theorem Apart.mem_others {roles : KeyRole → Bool} {k : Keys} {other : ManagedAttestationSession}
    {role : KeyRole} {handle : ObjectHandle} (hapart : Apart k.2 other)
    (htruthful : Truthful dev (k.1, other)) (hkey : other.key role = .live handle) :
    (handle, keyObject dev role) ∈ others roles k :=
  List.mem_filter.mpr ⟨htruthful.mem_of_live hkey, decide_eq_true (hapart.spare hkey)⟩

theorem mem_others {roles : KeyRole → Bool} {k : Keys} {e : ObjectHandle × Object} :
    e ∈ others roles k ↔ e ∈ k.1 ∧ Spare roles k.2 e.1 := by
  rw [others, List.mem_filter, decide_eq_true_eq]

theorem Sound.replace {place : Nat} {roles : KeyRole → Bool}
    {S : List (SessionHandle × SessionType)} {slots : Slots}
    {s : Context × ManagedAttestationSession} (h : Sound dev m)
    (hplace : m.sessions[place]? = some session)
    (hreach : Reaches (looseFrame m.context) roles F (.of m.context) session S slots s) :
    Sound dev ⟨s.1, m.sessions.set place s.2⟩ := by
  obtain ⟨before, after, hsessions, hset, -⟩ := Managed.split_sessions hplace
  obtain ⟨hapart, hrest⟩ := h.apart_at hsessions
  obtain ⟨k, hsteps, hheld, hk⟩ := hreach
  have hsteps : KeySteps bothKeys (m.context.objects.entries, session) k :=
    hsteps.mono fun _ _ => rfl
  have hsession := List.mem_of_getElem? hplace
  have hloaded := hheld.objects.sublist.subset
  have hother := rest_subset hsessions
  have hkept : ∀ other ∈ before ++ after, ∀ role handle, other.key role = .live handle →
      (handle, keyObject dev role) ∈ others bothKeys k := by
    intro other hmem role handle hkey
    rw [hsteps.others_eq]
    exact (hapart other hmem).mem_others (h.truthful other (hother hmem)) hkey
  have hmembers : ∀ other, other ∈ m.sessions.set place s.2 →
      other = k.2 ∨ other ∈ before ++ after := by
    intro other hmem
    rw [hset, hk, List.mem_append, List.mem_cons] at hmem
    rw [List.mem_append]
    tauto
  refine ⟨fun other hmem => ?_, fun other hmem => ?_, ?_, hheld.stale trivial⟩
  · obtain rfl | hmem := hmembers other hmem
    · exact (hsteps.truthful (h.truthful session hsession)).mono fun _ _ _ => @hloaded _
    · refine (h.truthful other (hother hmem)).mono fun role handle hkey _ => hloaded ?_
      exact (mem_others.mp (hkept other hmem role handle hkey)).1
  · obtain rfl | hmem := hmembers other hmem
    · exact hsteps.publishes (h.publishes session hsession)
    · exact h.publishes other (hother hmem)
  · show (m.sessions.set place s.2).Pairwise Apart
    rw [hset, List.pairwise_middle Apart.symm, List.pairwise_cons]
    refine ⟨fun other hmem role role' handle hkey hkey' => ?_, hrest⟩
    exact (mem_others.mp (hkept other hmem role' handle hkey')).2 role rfl (hk ▸ hkey)

theorem Sound.remove {place : Nat} (h : Sound dev m)
    (hplace : m.sessions[place]? = some session)
    (hheld : Held (looseFrame m.context) F { Holding.of m.context with
      objects := others bothKeys (m.context.objects.entries, session) } ctx) :
    Sound dev ⟨ctx, m.sessions.eraseIdx place⟩ := by
  obtain ⟨before, after, hsessions, -, herase⟩ := Managed.split_sessions hplace
  obtain ⟨hapart, hrest⟩ := h.apart_at hsessions
  have hother := rest_subset hsessions
  rw [herase]
  refine ⟨fun other hmem => ?_, fun other hmem => h.publishes other (hother hmem), hrest,
    hheld.stale trivial⟩
  refine (h.truthful other (hother hmem)).mono fun role handle hkey _ => ?_
  apply hheld.objects.sublist.subset
  exact (hapart other hmem).mem_others (h.truthful other (hother hmem)) hkey

/-- A session begins truthfully, with handles of its own. -/
theorem Begun.fresh {hasResourceManager : Bool} {H₀ : Holding}
    (hbegun : Begun dev H₀ session H hasResourceManager)
    (hheld : Held (looseFrame m.context) F H ctx) :
    H₀.objects ⊆ H.objects ∧ Truthful dev (H.objects, session) ∧
      ∀ role handle, session.key role = .live handle → handle ∉ H₀.objects.map Prod.fst := by
  cases hasResourceManager with
  | true =>
      obtain ⟨ek, ak, hek, hak, rfl⟩ := hbegun
      have hfreshAk : ak ∉ (H₀.objects ++ [(ek, keyObject dev .ek)]).map Prod.fst :=
        hheld.objects.fresh_of_append
      have hfreshEk : ek ∉ H₀.objects.map Prod.fst := by
        have hshows := hheld.objects
        rw [Holding.load, Holding.load, List.append_assoc] at hshows
        exact hshows.fresh_of_append
      rw [List.map_append, List.mem_append, not_or] at hfreshAk
      refine ⟨fun e he => List.mem_append_left _ (List.mem_append_left _ he), ⟨?_, ?_⟩, ?_⟩
      · intro role
        cases role with
        | ek =>
            show session.ekState.Holds _ _
            rw [hek]
            exact List.mem_append_left _ (List.mem_append_right _ List.mem_cons_self)
        | ak =>
            show session.akState.Holds _ _
            rw [hak]
            exact List.mem_append_right _ List.mem_cons_self
      · intro handle hkey hkey'
        have hekHandle := KeyState.live.inj (hek.symm.trans hkey)
        have hakHandle := KeyState.live.inj (hak.symm.trans hkey')
        exact hfreshAk.2 (by simp [hekHandle, hakHandle])
      · intro role handle hkey
        cases role with
        | ek => exact KeyState.live.inj (hek.symm.trans hkey) ▸ hfreshEk
        | ak => exact KeyState.live.inj (hak.symm.trans hkey) ▸ hfreshAk.1
  | false =>
      obtain ⟨hsaved, rfl⟩ := hbegun
      refine ⟨fun _ he => he, ⟨fun role => ?_, fun handle hkey => ?_⟩, fun role handle hkey => ?_⟩
      · rw [hsaved]
        rfl
      · rw [hsaved] at hkey
        cases hkey
      · rw [hsaved] at hkey
        cases hkey

theorem Sound.add {hasResourceManager : Bool} (h : Sound dev m) (hpub : Publishes dev session)
    (hbegun : Begun dev (.of m.context) session H hasResourceManager)
    (hheld : Held (looseFrame m.context) F H ctx) :
    Sound dev ⟨ctx, m.sessions ++ [session]⟩ := by
  obtain ⟨hobjects, htruthful, hnew⟩ := hbegun.fresh hheld
  have hkeep := h.keep hheld hobjects
  refine ⟨fun other hmem => ?_, fun other hmem => ?_, ?_, hkeep.stale⟩
  · obtain hmem | hmem := List.mem_append.mp hmem
    · exact hkeep.truthful other hmem
    · rw [List.mem_singleton.mp hmem]
      exact htruthful.mono fun _ _ _ hmem => hheld.objects.sublist.subset hmem
  · obtain hmem | hmem := List.mem_append.mp hmem
    · exact h.publishes other hmem
    · rw [List.mem_singleton.mp hmem]
      exact hpub
  · refine List.pairwise_append.mpr ⟨h.apart, List.pairwise_singleton _ _, ?_⟩
    intro other hother session' hsession' role role' handle hkey hkey'
    rw [List.mem_singleton.mp hsession'] at hkey'
    exact hnew role' handle hkey' (List.mem_map_of_mem ((h.truthful other hother).mem_of_live hkey))

theorem Sound.stopped {why ahead : Step → Prop} {leaky : Step → Bool} (h : Sound dev m)
    (hstopped : Stopped (looseFrame m.context) why (Leaves (.of m.context) leaky ahead) ctx) :
    Sound dev ⟨ctx, m.sessions⟩ := by
  obtain ⟨step, H', hleaves, -, hheld⟩ := hstopped
  exact h.keep hheld hleaves.objects.subset

/-- Every call keeps the sessions sound. -/
theorem Sound.step (h : Sound dev m) (hasResourceManager : Bool) (turn : Turn) :
    Sound dev (m.step dev hasResourceManager turn) := by
  obtain ⟨call, env⟩ := turn
  have hfaults : ∀ step, env.faults step ≠ none → (fun _ => True) step := fun _ _ => trivial
  have hflush : (looseFrame m.context).exact → ∀ step, step.IsFlush → env.faults step = none :=
    False.elim
  have hroom : ∀ n, (looseFrame m.context).exact → n ≤ (looseFrame m.context).bound :=
    fun _ => False.elim
  have hkeys : ∀ session ∈ m.sessions, Manageable (looseFrame m.context) (fun _ => True) dev
      ((Holding.of m.context).objects, session) :=
    fun session hsession => .inr (h.truthful session hsession)
  show Sound dev (m.respond dev hasResourceManager env call).1
  cases call with
  | beginAttestation =>
      refine Managed.after_of_contract (R := fun r => Sound dev r.1)
        (held_beginAttestation hfaults hflush (hroom _) fun _ => trivial) h.held ?_ ?_
      · rintro session ctx ⟨H', hpub, hbegun, hheld⟩
        exact h.add hpub hbegun hheld
      · exact fun _ _ => h.stopped
  | activate place credentialBlob secret =>
      rw [Managed.respond]
      split
      · rename_i session hplace
        refine Managed.afterSession_of_contract (R := fun r => Sound dev r.1) (held_activate
          (hkeys session (List.mem_of_getElem? hplace)) hfaults hflush (hroom _))
          ⟨h.held, rfl⟩ ?_ ?_
        · rintro _ s ⟨F', -, -, hreach⟩
          exact h.replace hplace hreach
        · rintro _ s ⟨step, S, slots, -, -, -, F', -, -, hreach⟩
          exact h.replace hplace hreach
      · exact h
  | quote place serverNonce pcrIndices =>
      rw [Managed.respond]
      split
      · rename_i session hplace
        refine Managed.afterSession_of_contract (R := fun r => Sound dev r.1) (held_quote
          (hkeys session (List.mem_of_getElem? hplace)) hfaults hflush (hroom _))
          ⟨h.held, rfl⟩ ?_ ?_
        · rintro _ s ⟨F', -, -, hreach⟩
          exact h.replace hplace hreach
        · rintro _ s ⟨step, F', -, -, hreach⟩
          exact h.replace hplace hreach
      · exact h
  | sealToPcr plaintext pcrIndices =>
      refine Managed.after_of_contract (R := fun r => Sound dev r.1)
        (held_sealToPcr hfaults hflush (hroom _) (fun _ => trivial) fun _ => trivial) h.held ?_ ?_
      · exact fun _ ctx hheld => h.keep hheld (List.Subset.refl _)
      · exact fun _ _ => h.stopped
  | unsealBlob blob =>
      refine Managed.after_of_contract (R := fun r => Sound dev r.1)
        (held_unsealBlob hfaults hflush (hroom _) fun _ => trivial) h.held ?_ ?_
      · exact fun _ ctx hheld => h.keep hheld (List.Subset.refl _)
      · exact fun _ _ => h.stopped
  | finishAttestation place =>
      rw [Managed.respond]
      split
      · rename_i session hplace
        refine Managed.after_of_contract (R := fun r => Sound dev r.1) (held_finishAttestation
          (E := fun _ _ => False) hflush (h.truthful session (List.mem_of_getElem? hplace)))
          h.held ?_ ?_
        · exact fun _ ctx hheld => h.remove hplace hheld
        · exact fun _ _ => False.elim
      · exact h
  | readEkCert =>
      have hleaves : ∀ step, Leaves (.of m.context) (fun _ => false) (fun _ => True) step
          (.of m.context) := fun _ => .nothing rfl trivial
      refine Managed.after_of_contract (R := fun r => Sound dev r.1)
        (held_readEkCert (fun _ => trivial) hleaves) h.held ?_ ?_
      · rintro _ ctx ⟨F, -, hheld⟩
        exact h.keep hheld (List.Subset.refl _)
      · exact fun _ _ => h.stopped

end

/-- A live key is loaded at its handle; a saved key is loaded by the next `context_load`
that does not fail. -/
def Available (ctx : Context) (object : Object) : KeyState → Prop
  | .live handle => ctx.objects.lookup handle = some object
  | .saved context => ∀ env step wrap, env.faults step = none → ∃ handle ctx',
      contextLoad env step wrap context ctx = .ok handle ctx' ∧
        ctx'.objects.lookup handle = some object

theorem Truthful.available {dev : Device} {ctx : Context} {session : ManagedAttestationSession}
    (h : Truthful dev (ctx.objects.entries, session)) (role : KeyRole) :
    Available ctx (keyObject dev role) (session.key role) := by
  have hheld := h.holds role
  cases hkey : session.key role with
  | live handle =>
      rw [hkey] at hheld
      exact HandleTable.lookup_eq_some_iff.mpr hheld
  | saved context =>
      rw [hkey] at hheld
      intro env step wrap hfault
      have hobject : context.object = keyObject dev role := hheld
      have hload : contextLoad env step wrap context ctx = loadObject context.object ctx :=
        Effect.bind_of_ok (attempt_of_none hfault)
      refine ⟨_, _, hload, ?_⟩
      rw [hobject]
      exact HandleTable.lookup_alloc_self

theorem Sound.new (dev : Device) : Sound dev .new :=
  ⟨by simp [Managed.new], by simp [Managed.new], List.Pairwise.nil, rfl⟩

theorem Sound.run (dev : Device) (hasResourceManager : Bool) (turns : List Turn) :
    Sound dev (Managed.new.run dev hasResourceManager turns) :=
  Managed.run_induction (fun _ turn (_ : True) hm => hm.step hasResourceManager turn)
    (Sound.new dev) fun _ _ => trivial

/-- After any run, on either backend and with any places failing: every open session
publishes the TPM's two keys and has both of them available, no handle stands for two
keys, and no command was given a handle that is not loaded. -/
theorem session_keys_available (dev : Device) (hasResourceManager : Bool) (turns : List Turn) :
    let m := Managed.new.run dev hasResourceManager turns
    (∀ session ∈ m.sessions, Publishes dev session ∧
      (∀ role, Available m.context (keyObject dev role) (session.key role)) ∧
      ∀ handle, session.ekState = .live handle → session.akState ≠ .live handle) ∧
    m.sessions.Pairwise Apart ∧ m.context.staleUses = [] := by
  have hsound := Sound.run dev hasResourceManager turns
  refine ⟨fun session hsession => ?_, hsound.apart, hsound.stale⟩
  have htruthful := hsound.truthful session hsession
  exact ⟨hsound.publishes session hsession, htruthful.available, htruthful.distinct⟩

end Fleetos.Tpm
