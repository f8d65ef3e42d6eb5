import FleetosCore.Attestation.Tpm.PlainSession

/-!
# Operations in two contexts

What an operation answers does not depend on the context it runs in, as far as the
handles it is given stand for the same objects. `Alike` relates two contexts through the
handles a program knows in each of them, and every operation is followed in both. The two
ways to begin a session differ in the order of their places and in the saves of the
manager; with an RSA endorsement key and saves that pass, they answer alike too.
-/

namespace Fleetos.Tpm

open Effect (Agree Contract)

/-! ## Two contexts side by side -/

/-- Both contexts hold these objects and have these sessions open, at their own handles;
the first context has no two of the objects at one handle. -/
structure Alike (O : List (ObjectHandle × ObjectHandle × Object))
    (S : List (SessionHandle × SessionHandle)) (s t : Context) : Prop where
  distinct : (O.map Prod.fst).Nodup
  objects : ∀ e ∈ O, s.objects.lookup e.1 = some e.2.2 ∧ t.objects.lookup e.2.1 = some e.2.2
  sessions : ∀ e ∈ S, (∃ a, s.sessions.lookup e.1 = some a) ∧ ∃ b, t.sessions.lookup e.2 = some b

theorem Alike.nothing (s t : Context) : Alike [] [] s t := ⟨by simp, by simp, by simp⟩

section

variable {O : List (ObjectHandle × ObjectHandle × Object)}
  {S : List (SessionHandle × SessionHandle)} {s t : Context} {step : Step}
  {wrap : String → TssError} {dev : Device} {env : Env} {P : Context → Context → Prop}

theorem Alike.slots (h : Alike O S s t) (slots slots' : Slots) :
    Alike O S { s with slots := slots } { t with slots := slots' } :=
  ⟨h.distinct, h.objects, h.sessions⟩

theorem agree_attempt : Agree P (attempt env step wrap) (attempt env step wrap)
    fun _ _ => P := by
  intro s t hst
  cases hfault : env.faults step with
  | none => exact .inl ⟨(), (), s, t, attempt_of_none hfault, attempt_of_none hfault, hst⟩
  | some e => exact .inr ⟨_, _, _, attempt_of_some hfault, attempt_of_some hfault⟩

/-- A new object stands at new handles, and the others where they were. -/
theorem agree_loadObject {object : Object} :
    Agree (Alike O S) (loadObject object) (loadObject object)
      fun h h' => Alike ((h, h', object) :: O) S := by
  intro s t hst
  refine .inl ⟨_, _, _, _, rfl, rfl, List.nodup_cons.mpr ⟨?_, hst.distinct⟩, ?_, hst.sessions⟩
  · intro hmem
    obtain ⟨e, he, heq⟩ := List.mem_map.mp hmem
    have hlt := s.objects.fresh _ (HandleTable.lookup_eq_some_iff.mp (hst.objects e he).1)
    exact Nat.lt_irrefl _ (heq ▸ hlt)
  intro e he
  obtain rfl | he := List.mem_cons.mp he
  · exact ⟨HandleTable.lookup_alloc_self, HandleTable.lookup_alloc_self⟩
  · obtain ⟨hs, ht⟩ := hst.objects e he
    exact ⟨HandleTable.lookup_alloc_of_some hs, HandleTable.lookup_alloc_of_some ht⟩

theorem agree_nullauth {α β : Type} {f : TpmM α} {g : TpmM β} {φ : α → β → Prop}
    {N : α → β → List (ObjectHandle × ObjectHandle × Object)}
    (h : Agree (Alike O S) f g fun a b s t => φ a b ∧ Alike (N a b) S s t) :
    Agree (Alike O S) (executeWithNullauthSession f) (executeWithNullauthSession g)
      fun a b s t => φ a b ∧ Alike (N a b) S s t := by
  intro s t hst
  obtain ⟨a, b, s', t', hf, hg, hφ, hst'⟩ | ⟨e, s', t', hf, hg⟩ := h _ _ (hst.slots
    ⟨some .nullauth, none, none⟩ ⟨some .nullauth, none, none⟩)
  · exact .inl ⟨a, b, _, _, executeWithNullauthSession_of_ok hf,
      executeWithNullauthSession_of_ok hg, hφ, hst'.slots _ _⟩
  · refine .inr ⟨e, { s' with slots := s.slots }, { t' with slots := t.slots }, ?_, ?_⟩
    · simp only [executeWithNullauthSession, hf]
    · simp only [executeWithNullauthSession, hg]

theorem agree_createPrimary {hierarchy : Hierarchy} {template : Template} :
    Agree (Alike O S)
      (executeWithNullauthSession (createPrimary dev env step wrap hierarchy template))
      (executeWithNullauthSession (createPrimary dev env step wrap hierarchy template))
      fun a b s t => (a.2 = dev.primary hierarchy template ∧ b.2 = dev.primary hierarchy template) ∧
        Alike ((a.1, b.1, dev.primaryObject hierarchy template) :: O) S s t := by
  apply agree_nullauth (α := ObjectHandle × Public) (β := ObjectHandle × Public)
    (N := fun a b => (a.1, b.1, dev.primaryObject hierarchy template) :: O)
  apply Agree.bind agree_attempt
  intro _ _
  apply Agree.bind agree_loadObject
  intro h h'
  exact Agree.pure fun _ _ hst => ⟨⟨rfl, rfl⟩, hst⟩

/-- A save that passes changes nothing. -/
theorem contract_contextSave {P : Context → Prop} {h : ObjectHandle} {object : Object}
    (hfault : env.faults step = none) (hP : ∀ s, P s → s.objects.lookup h = some object) :
    Contract P (contextSave env step wrap h) (fun _ => P) fun _ _ => False := by
  intro s hs
  rw [contextSave, Effect.bind_of_ok (useObject_of_lookup (hP s hs)),
    Effect.bind_of_ok (attempt_of_none hfault)]
  exact hs

/-- A flush leaves the objects at other handles loaded. -/
theorem contract_flushObject_other {h h' : ObjectHandle} {object : Object} (hne : h' ≠ h) :
    Contract (fun s => s.objects.lookup h' = some object) (flushObject env step h)
      (fun _ s => s.objects.lookup h' = some object) fun _ _ => False := by
  apply Contract.ignore
  refine Contract.bind (Q := fun _ s => s.objects.lookup h' = some object) ?_ fun _ => ?_
  · intro s hs
    rw [useObject]
    cases s.objects.lookup h with
    | some object => exact hs
    | none => exact hs
  · refine Contract.bind (Q := fun _ s => s.objects.lookup h' = some object) ?_ fun _ => ?_
    · intro s hs
      cases hfault : env.faults step with
      | none =>
          rw [attempt_of_none hfault]
          exact hs
      | some e =>
          rw [attempt_of_some hfault]
          exact hs
    · intro s hs
      exact HandleTable.lookup_eq_some_iff.mpr
        (List.mem_filter.mpr ⟨HandleTable.lookup_eq_some_iff.mp hs, by simpa using hne⟩)

/-- Without the saves of a manager on a TPM that needs them, both ways to begin a session
fail at the same places and publish the same keys. -/
theorem agree_begin {hasResourceManager : Bool} {unique : Bytes} {exponent : UInt32}
    (hrsa : dev.primary .endorsement .ek = .rsa unique exponent)
    (hsave : hasResourceManager = false → ∀ role, env.faults (.beginSave role) = none) :
    Agree P (TpmContextManager.beginAttestation dev env hasResourceManager)
      (AttestationSession.begin dev env)
      fun a b _ _ => Answer.begun a.akPub a.ekSpki = .begun b.akPub b.ekSpki := by
  apply Agree.consequence ?_ (fun s t _ => Alike.nothing s t) fun _ _ _ _ h => h
  have hek : Agree (Alike [] []) (ekTemplate env) (ekTemplate env)
      fun a b s t => (a = .ek ∧ b = .ek) ∧ Alike [] [] s t := by
    apply Agree.bind agree_attempt
    intro _ _
    apply Agree.bind agree_attempt
    intro _ _
    apply Agree.bind agree_attempt
    intro _ _
    apply Agree.bind agree_attempt
    intro _ _
    exact Agree.pure fun _ _ hst => ⟨⟨rfl, rfl⟩, hst⟩
  apply Agree.bind hek
  intro _ _
  apply Agree.assume
  rintro ⟨rfl, rfl⟩
  apply Agree.bind agree_createPrimary
  rintro ⟨ek, ekOut⟩ ⟨ek', ekOut'⟩
  apply Agree.assume
  rintro ⟨rfl, rfl⟩
  -- the plain session converts the EK here already, which an RSA key always passes
  have hextract : extractRsaPublic (dev.primary .endorsement .ek) =
      pure (unique, if exponent = 0 then 65537 else exponent) := by
    rw [hrsa]
    rfl
  simp only [hextract, pure_bind]
  have hak : Agree (Alike [(ek, ek', dev.primaryObject .endorsement .ek)] []) (akTemplate env)
      (akTemplate env) fun a b s t => (a = .ak ∧ b = .ak) ∧
        Alike [(ek, ek', dev.primaryObject .endorsement .ek)] [] s t := by
    apply Agree.bind agree_attempt
    intro _ _
    exact Agree.pure fun _ _ hst => ⟨⟨rfl, rfl⟩, hst⟩
  apply Agree.bind hak
  intro _ _
  apply Agree.assume
  rintro ⟨rfl, rfl⟩
  apply Agree.bind agree_createPrimary
  rintro ⟨ak, akOut⟩ ⟨ak', akOut'⟩
  apply Agree.assume
  rintro ⟨rfl, rfl⟩
  apply Agree.bind agree_attempt
  intro _ _
  cases hasResourceManager with
  | true => exact Agree.pure fun _ _ _ => rfl
  | false =>
      simp only [Bool.false_eq_true, if_false]
      apply Agree.skip fun t => contract_contextSave (hsave rfl .ek) fun s hst =>
        (hst.objects _ (List.mem_cons_of_mem _ List.mem_cons_self)).1
      intro ekSaved
      apply Agree.skip
        (R := fun _ s _ => s.objects.lookup ak = some (dev.primaryObject .endorsement .ak))
      · intro t
        refine Contract.derive (fun s hst => ?_) fun hne : ak ≠ ek =>
          (contract_flushObject_other hne).consequence
            (fun s hst => (hst.objects _ List.mem_cons_self).1) (fun _ _ hs => hs) fun _ _ => id
        exact fun heq => (List.nodup_cons.mp hst.distinct).1 (by simp [heq])
      intro _
      apply Agree.skip fun t => contract_contextSave (hsave rfl .ak) fun s hs => hs
      intro akSaved
      apply Agree.skip (R := fun _ _ _ => True) fun t => Contract.ignore Contract.trivial
      intro _
      exact Agree.pure fun _ _ _ => rfl

end

end Fleetos.Tpm
