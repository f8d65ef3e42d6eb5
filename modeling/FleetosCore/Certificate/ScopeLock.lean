import FleetosCore.Certificate.Delegation

/-!
# What a delegated key can be made to sign

`sign_svid_delegated` parses the URI of a request and compares the parsed identity with
the key's target, but signs the request's own subject alternative names. The parser has
one spelling for each identity, so the comparison fixes the signed bytes as well.

`signingCall` is the program up to its last step. What it hands to the X.509 library
depends on the request only through the subject, the settings and the public key.
-/

namespace Fleetos.Svid

/-- The arguments of the library's signing call. -/
structure SigningCall (rcgen : Rcgen) where
  params : CertificateParams rcgen.Settings
  publicKey : Bytes
  issuer : rcgen.Issuer

section

variable (rcgen : Rcgen) (base64 : Bytes → String) (key : DelegatedSigningKey)

/-- `sign_svid_delegated` up to the signing call. -/
def signingCall (csrDer : Bytes) (newValidity : Duration) (currentUnixTime : UInt64) :
    Except SignFailure (SigningCall rcgen) := do
  if key.expiresAtUnix ≤ currentUnixTime then throw (.err .delegationKeyExpired)
  let (csrParams, publicKey) ← Fallible.okOr (rcgen.csrFromDer csrDer) (.err .invalidFormat)
  checkScope rcgen key csrParams
  let validitySecs ← grantedSecs key newValidity currentUnixTime
  let finalParams ← stampParams rcgen key csrParams validitySecs currentUnixTime
  let issuer ← delegatedIssuer rcgen base64 key
  return ⟨finalParams, publicKey, issuer⟩

end

section

variable {rcgen : Rcgen} {base64 : Bytes → String} {key : DelegatedSigningKey}
  {csrDer : Bytes} {newValidity : Duration} {currentUnixTime : UInt64}

/-- A leaf is what the library signs for the call. -/
theorem signLeaf_eq_bind :
    signLeaf rcgen base64 key csrDer newValidity currentUnixTime =
      signingCall rcgen base64 key csrDer newValidity currentUnixTime >>= fun call =>
        Fallible.okOr (rcgen.signedBy call.params call.publicKey call.issuer)
          (.err .validationFailed) := by
  rw [signLeaf, signingCall]
  split
  · rfl
  · simp only [bind_assoc, pure_bind]

theorem signingCall_ok_iff {call : SigningCall rcgen} :
    signingCall rcgen base64 key csrDer newValidity currentUnixTime = .ok call ↔
      ¬ key.expiresAtUnix ≤ currentUnixTime ∧
      ∃ csrParams validitySecs, rcgen.csrFromDer csrDer = some (csrParams, call.publicKey) ∧
        checkScope rcgen key csrParams = .ok () ∧
        grantedSecs key newValidity currentUnixTime = .ok validitySecs ∧
        stampParams rcgen key csrParams validitySecs currentUnixTime = .ok call.params ∧
        delegatedIssuer rcgen base64 key = .ok call.issuer := by
  simp only [signingCall, Fallible.throw_if_bind_ok_iff, Fallible.bind_ok_iff,
    Fallible.okOr_ok_iff, Fallible.pure_ok_iff]
  refine and_congr_right fun _ => ?_
  constructor
  · rintro ⟨⟨csrParams, publicKey⟩, hcsr, _, hscope, secs, hsecs, final, hfinal, issuer,
      hissuer, rfl⟩
    exact ⟨csrParams, secs, hcsr, hscope, hsecs, hfinal, hissuer⟩
  · rintro ⟨csrParams, secs, hcsr, hscope, hsecs, hfinal, hissuer⟩
    exact ⟨(csrParams, call.publicKey), hcsr, (), hscope, secs, hsecs, call.params, hfinal,
      call.issuer, hissuer, rfl⟩

/-- The scope check lets one list of names through: the key's target, as it is printed. -/
theorem sans_of_checkScope {params : CertificateParams rcgen.Settings}
    (h : checkScope rcgen key params = .ok ()) :
    params.subjectAltNames = [.uri key.targetSvidId.display] := by
  rw [checkScope] at h
  split at h
  · rename_i csrUri hsans
    split at h
    · cases h
    · split at h
      · cases h
      · rename_i csrSpiffeId hparse
        obtain ⟨hne, -⟩ := Fallible.throw_if_ok_iff.mp h
        rw [hsans, ← not_not.mp hne, SpiffeId.display_of_fromStr hparse]
  · cases h

theorem stampParams_ok_iff {params final : CertificateParams rcgen.Settings}
    {validitySecs : UInt64} :
    stampParams rcgen key params validitySecs currentUnixTime = .ok final ↔
      inTimeRange (asI64 currentUnixTime) ∧
      inTimeRange (asI64 currentUnixTime + asI64 validitySecs) ∧
      final = { params with
        customExtensions := params.customExtensions ++ stampedExtensions key
        notBefore := asI64 currentUnixTime
        notAfter := asI64 currentUnixTime + asI64 validitySecs } := by
  simp only [stampParams, fromUnixTimestamp, addSeconds, Fallible.bind_ok_iff,
    Fallible.okOr_ok_iff, Fallible.pure_ok_iff]
  constructor
  · rintro ⟨notBefore, hbefore, notAfter, hafter, rfl⟩
    split at hbefore
    · rename_i hrange
      obtain rfl := Option.some.inj hbefore
      split at hafter
      · rename_i hrange'
        obtain rfl := Except.ok.inj hafter
        exact ⟨hrange, hrange', rfl⟩
      · cases hafter
    · cases hbefore
  · rintro ⟨hrange, hrange', rfl⟩
    exact ⟨_, if_pos hrange, _, if_pos hrange', rfl⟩

/-- Everything the key, the time and the validity decide about a signing call. -/
theorem params_of_signingCall {call : SigningCall rcgen}
    (h : signingCall rcgen base64 key csrDer newValidity currentUnixTime = .ok call) :
    call.params.subjectAltNames = [.uri key.targetSvidId.display] ∧
      call.params.customExtensions = stampedExtensions key ∧
      ∃ validitySecs, grantedSecs key newValidity currentUnixTime = .ok validitySecs ∧
        call.params.notBefore = asI64 currentUnixTime ∧
        call.params.notAfter = asI64 currentUnixTime + asI64 validitySecs := by
  obtain ⟨-, csrParams, secs, hcsr, hscope, hsecs, hfinal, -⟩ := signingCall_ok_iff.mp h
  obtain ⟨-, -, hparams⟩ := stampParams_ok_iff.mp hfinal
  rw [hparams]
  refine ⟨sans_of_checkScope hscope, ?_, secs, hsecs, rfl, rfl⟩
  rw [rcgen.csr_customExtensions hcsr, List.nil_append]

/-- The checks before the window is computed end in an error of the function, not in a
panic. -/
theorem checkScope_error {params : CertificateParams rcgen.Settings} {failure : SignFailure}
    (h : checkScope rcgen key params = .error failure) : ∃ e, failure = .err e := by
  rw [checkScope] at h
  split at h
  · split at h
    · cases h
      exact ⟨_, rfl⟩
    · split at h
      · cases h
        exact ⟨_, rfl⟩
      · split at h
        · cases h
          exact ⟨_, rfl⟩
        · cases h
  · cases h
    exact ⟨_, rfl⟩

/-- A request whose names are not the one printed target is refused before signing. -/
theorem signingCall_error_of_sans
    (h : ∀ params publicKey, rcgen.csrFromDer csrDer = some (params, publicKey) →
      params.subjectAltNames ≠ [.uri key.targetSvidId.display]) :
    ∃ e, signingCall rcgen base64 key csrDer newValidity currentUnixTime = .error (.err e) := by
  rw [signingCall]
  split
  · exact ⟨_, rfl⟩
  · cases hcsr : rcgen.csrFromDer csrDer with
    | none => exact ⟨_, rfl⟩
    | some parsed =>
        cases hscope : checkScope rcgen key parsed.1 with
        | ok _ => exact absurd (sans_of_checkScope hscope) (h _ _ hcsr)
        | error failure =>
            obtain ⟨e, rfl⟩ := checkScope_error hscope
            refine ⟨e, ?_⟩
            simp only [Fallible.okOr, pure_bind, hscope]
            rfl

/-- What is returned is the encoding of what the library signs for the call. -/
theorem signSvidDelegated_eq_bind :
    signSvidDelegated rcgen base64 key csrDer newValidity currentUnixTime =
      X509.encode <$> (signingCall rcgen base64 key csrDer newValidity currentUnixTime >>=
        fun call => Fallible.okOr (rcgen.signedBy call.params call.publicKey call.issuer)
          (.err .validationFailed)) := by
  rw [signSvidDelegated, signLeaf_eq_bind]

theorem signSvidDelegated_error_of_signingCall {failure : SignFailure}
    (h : signingCall rcgen base64 key csrDer newValidity currentUnixTime = .error failure) :
    signSvidDelegated rcgen base64 key csrDer newValidity currentUnixTime = .error failure := by
  rw [signSvidDelegated_eq_bind, h]
  rfl

end

/-- Renewal is locked to the key's scope. `requestedSans` are the names a request asks
for, which the library returns unchanged. -/
theorem renewal_scope_locked (rcgen : Rcgen) (base64 : Bytes → String)
    (requestedSans : Bytes → List SanType)
    (hsans : ∀ {der params publicKey}, rcgen.csrFromDer der = some (params, publicKey) →
      params.subjectAltNames = requestedSans der)
    (key : DelegatedSigningKey) (newValidity : Duration) (currentUnixTime : UInt64) :
    (∀ csrDer call, signingCall rcgen base64 key csrDer newValidity currentUnixTime = .ok call →
      call.params.subjectAltNames = [.uri key.targetSvidId.display] ∧
      call.params.customExtensions = degradedExtension true ::
        ((key.targetRole.map fun r => roleExtension r.asStr).toList ++
          (key.targetOrdinal.map ordinalExtension).toList)) ∧
    (∀ csrDer₁ csrDer₂ call₁ call₂,
      signingCall rcgen base64 key csrDer₁ newValidity currentUnixTime = .ok call₁ →
      signingCall rcgen base64 key csrDer₂ newValidity currentUnixTime = .ok call₂ →
        call₁.params.subjectAltNames = call₂.params.subjectAltNames ∧
        call₁.params.customExtensions = call₂.params.customExtensions ∧
        call₁.params.notBefore = call₂.params.notBefore ∧
        call₁.params.notAfter = call₂.params.notAfter) ∧
    (∀ csrDer, requestedSans csrDer ≠ [.uri key.targetSvidId.display] →
      ∃ e, signSvidDelegated rcgen base64 key csrDer newValidity currentUnixTime =
        .error (.err e)) ∧
    (∀ csrDer, signSvidDelegated rcgen base64 key csrDer newValidity currentUnixTime =
      X509.encode <$> (signingCall rcgen base64 key csrDer newValidity currentUnixTime >>=
        fun call => Fallible.okOr (rcgen.signedBy call.params call.publicKey call.issuer)
          (.err .validationFailed))) := by
  refine ⟨?_, ?_, ?_, fun csrDer => signSvidDelegated_eq_bind⟩
  · intro csrDer call hcall
    obtain ⟨hnames, hstamped, -⟩ := params_of_signingCall hcall
    exact ⟨hnames, hstamped⟩
  · intro csrDer₁ csrDer₂ call₁ call₂ hcall₁ hcall₂
    obtain ⟨hnames₁, hstamped₁, secs₁, hsecs₁, hbefore₁, hafter₁⟩ := params_of_signingCall hcall₁
    obtain ⟨hnames₂, hstamped₂, secs₂, hsecs₂, hbefore₂, hafter₂⟩ := params_of_signingCall hcall₂
    obtain rfl := Except.ok.inj (hsecs₁.symm.trans hsecs₂)
    exact ⟨hnames₁.trans hnames₂.symm, hstamped₁.trans hstamped₂.symm,
      hbefore₁.trans hbefore₂.symm, hafter₁.trans hafter₂.symm⟩
  · intro csrDer hother
    obtain ⟨e, hrefused⟩ := signingCall_error_of_sans fun params publicKey hcsr =>
      (hsans hcsr).trans_ne hother
    exact ⟨e, signSvidDelegated_error_of_signingCall hrefused⟩

namespace Sample

theorem signingCall_eq {csrDer subject : Bytes}
    (hcsr : csrFromDer csrDer = some (params subject, spki)) :
    signingCall rcgen base64 key csrDer ⟨500, 0⟩ 1000 = .ok ⟨stamped subject, spki, ()⟩ :=
  signingCall_ok_iff.mpr ⟨by decide, params subject, 500, hcsr, checkScope_params subject,
    grantedSecs_key, stampParams_params subject, delegatedIssuer_key⟩

/-- The names the two sample requests ask for. -/
def requestedSans (der : Bytes) : List SanType :=
  if der = plainCsr ∨ der = forgedCsr then [.uri uri] else []

theorem sans_of_csrFromDer {der publicKey : Bytes} {p : CertificateParams Unit}
    (h : csrFromDer der = some (p, publicKey)) : p.subjectAltNames = requestedSans der := by
  rw [csrFromDer] at h
  split at h
  · rename_i hplain
    rw [← (Prod.mk.inj (Option.some.inj h)).1, requestedSans, if_pos (.inl hplain)]
    rfl
  · split at h
    · rename_i hforged
      rw [← (Prod.mk.inj (Option.some.inj h)).1, requestedSans, if_pos (.inr hforged)]
      rfl
    · cases h

end Sample

/-- Two requests with different subjects are signed with the same names. -/
theorem sample_requests_signed_alike :
    ∃ call₁ call₂ : SigningCall Sample.rcgen,
      signingCall Sample.rcgen Sample.base64 Sample.key Sample.plainCsr ⟨500, 0⟩ 1000 =
        .ok call₁ ∧
      signingCall Sample.rcgen Sample.base64 Sample.key Sample.forgedCsr ⟨500, 0⟩ 1000 =
        .ok call₂ ∧
      call₁.params.subjectAltNames = call₂.params.subjectAltNames := by
  have hplain := Sample.signingCall_eq Sample.csrFromDer_plainCsr
  have hforged := Sample.signingCall_eq Sample.csrFromDer_forgedCsr
  have hlocked := renewal_scope_locked Sample.rcgen Sample.base64 Sample.requestedSans
    Sample.sans_of_csrFromDer Sample.key ⟨500, 0⟩ 1000
  exact ⟨_, _, hplain, hforged, (hlocked.2.1 _ _ _ _ hplain hforged).1⟩

end Fleetos.Svid
