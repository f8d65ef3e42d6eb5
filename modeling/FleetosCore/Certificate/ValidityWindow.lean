import FleetosCore.Certificate.ScopeLock

/-!
# The validity window of a renewed leaf

`sign_svid_delegated` of `src/spiffe.rs` takes the current time and the requested
validity as `u64`, bounds the validity by what is left of the key, and hands both to the
time library as `i64`. The bound keeps the sum below 2^64 and no lower: times run to the
end of year 9999, and what is beyond wraps around through the casts.

A start beyond that range is refused, an end beyond it panics. The last part of the
64-bit range wraps into the years before 1970 and is signed.
-/

namespace Fleetos.Svid

/-- The last second of year 9999. -/
def lastSecond : Nat := 253402300799

/-- The first number of seconds that wraps into the library's range. -/
def firstWrapped : Nat := 2 ^ 64 - 377705116800

theorem asI64_eq (n : UInt64) :
    asI64 n = if n.toNat < 2 ^ 63 then (n.toNat : Int) else n.toNat - 2 ^ 64 := by
  have hbits : asI64 n = n.toBitVec.toInt := rfl
  have hnat : n.toBitVec.toNat = n.toNat := rfl
  rw [hbits, BitVec.toInt_eq_toNat_cond, hnat]
  by_cases hsmall : n.toNat < 2 ^ 63
  · rw [if_pos hsmall, if_pos (by omega)]
  · rw [if_neg hsmall, if_neg (by omega)]
    rfl

section Casts

variable {time secs : UInt64}

/-- Which starts the time library takes. -/
theorem inTimeRange_asI64_iff :
    inTimeRange (asI64 time) ↔ time.toNat ≤ lastSecond ∨ firstWrapped ≤ time.toNat := by
  have hlt := time.toNat_lt
  rw [inTimeRange, asI64_eq, lastSecond, firstWrapped]
  split <;> omega

/-- Behind such a start, which ends it takes. -/
theorem inTimeRange_add_iff (hsum : time.toNat + secs.toNat < 2 ^ 64)
    (hstart : inTimeRange (asI64 time)) :
    inTimeRange (asI64 time + asI64 secs) ↔
      time.toNat + secs.toNat ≤ lastSecond ∨ firstWrapped ≤ time.toNat + secs.toNat := by
  rw [inTimeRange_asI64_iff, lastSecond, firstWrapped] at hstart
  rw [inTimeRange, asI64_eq, asI64_eq, lastSecond, firstWrapped]
  split <;> split <;> omega

/-- Both casts are exact up to the end of the range. -/
theorem asI64_of_le (h : time.toNat ≤ lastSecond) : asI64 time = time.toNat := by
  rw [lastSecond] at h
  rw [asI64_eq, if_pos (by omega)]

/-- From the first wrapped end on, the end is before 1970. -/
theorem asI64_add_neg (hsum : time.toNat + secs.toNat < 2 ^ 64)
    (hend : firstWrapped ≤ time.toNat + secs.toNat)
    (hstart : inTimeRange (asI64 time)) : asI64 time + asI64 secs < 0 := by
  rw [inTimeRange_asI64_iff, lastSecond, firstWrapped] at hstart
  rw [firstWrapped] at hend
  rw [asI64_eq, asI64_eq]
  split <;> split <;> omega

end Casts

section

variable (rcgen : Rcgen) (base64 : Bytes → String) (key : DelegatedSigningKey) (csrDer : Bytes)
  (newValidity : Duration) (currentUnixTime : UInt64)

/-- The key is not expired, the request names its target, and the validity is within
what is left of it. -/
structure ChecksPass : Prop where
  unexpired : currentUnixTime.toNat < key.expiresAtUnix.toNat
  inScope : ∃ params publicKey, rcgen.csrFromDer csrDer = some (params, publicKey) ∧
    checkScope rcgen key params = .ok ()
  withinKey : currentUnixTime.toNat + newValidity.asSecs.toNat ≤ key.expiresAtUnix.toNat

/-- The call does not panic, and a window it signs is the requested one and ends before
the key does. -/
def WindowSound : Prop :=
  signSvidDelegated rcgen base64 key csrDer newValidity currentUnixTime ≠ .error .panic ∧
    ∀ call, signingCall rcgen base64 key csrDer newValidity currentUnixTime = .ok call →
      call.params.notBefore = currentUnixTime.toNat ∧
      call.params.notAfter = currentUnixTime.toNat + newValidity.asSecs.toNat ∧
      call.params.notBefore ≤ call.params.notAfter ∧
      call.params.notAfter ≤ key.expiresAtUnix.toNat

end

section

variable {rcgen : Rcgen} {base64 : Bytes → String} {key : DelegatedSigningKey}
  {csrDer : Bytes} {newValidity : Duration} {currentUnixTime : UInt64}

theorem ChecksPass.sum_lt
    (h : ChecksPass rcgen key csrDer newValidity currentUnixTime) :
    currentUnixTime.toNat + newValidity.asSecs.toNat < 2 ^ 64 :=
  Nat.lt_of_le_of_lt h.withinKey key.expiresAtUnix.toNat_lt

/-- The bound of the validity, for a key that is not expired. -/
theorem grantedSecs_ok_iff {validitySecs : UInt64}
    (h : currentUnixTime.toNat < key.expiresAtUnix.toNat) :
    grantedSecs key newValidity currentUnixTime = .ok validitySecs ↔
      currentUnixTime.toNat + newValidity.asSecs.toNat ≤ key.expiresAtUnix.toNat ∧
        newValidity.asSecs = validitySecs := by
  have hle : currentUnixTime ≤ key.expiresAtUnix := UInt64.le_iff_toNat_le.mpr (Nat.le_of_lt h)
  have hbound : newValidity.asSecs > key.expiresAtUnix - currentUnixTime ↔
      ¬ currentUnixTime.toNat + newValidity.asSecs.toNat ≤ key.expiresAtUnix.toNat := by
    rw [gt_iff_lt, UInt64.lt_iff_toNat_lt, UInt64.toNat_sub_of_le _ _ hle]
    omega
  simp only [grantedSecs, Fallible.throw_if_ok_iff]
  rw [hbound, not_not]
  refine and_congr_right fun hwithin => ?_
  have hfits : newValidity.asSecs ≤ key.expiresAtUnix - currentUnixTime :=
    UInt64.not_lt.mp fun hover => hbound.mp hover hwithin
  have hmin : min newValidity.asSecs (key.expiresAtUnix - currentUnixTime) =
      newValidity.asSecs := if_pos hfits
  rw [hmin]

theorem grantedSecs_ne_panic :
    grantedSecs key newValidity currentUnixTime ≠ .error .panic := by
  rw [grantedSecs]
  split
  · exact fun h => nomatch h
  · exact fun h => nomatch h

/-- The window reaches the library when start and end are in its range. -/
theorem signingCall_window {call : SigningCall rcgen}
    (h : signingCall rcgen base64 key csrDer newValidity currentUnixTime = .ok call) :
      ChecksPass rcgen key csrDer newValidity currentUnixTime ∧
        inTimeRange (asI64 currentUnixTime) ∧
        inTimeRange (asI64 currentUnixTime + asI64 newValidity.asSecs) ∧
        delegatedIssuer rcgen base64 key = .ok call.issuer ∧
        call.params.notBefore = asI64 currentUnixTime ∧
        call.params.notAfter = asI64 currentUnixTime + asI64 newValidity.asSecs := by
  obtain ⟨hexpiry, params, secs, hcsr, hscope, hsecs, hstamp, hissuer⟩ :=
    signingCall_ok_iff.mp h
  have hunexpired : currentUnixTime.toNat < key.expiresAtUnix.toNat := by
    rwa [UInt64.le_iff_toNat_le, Nat.not_le] at hexpiry
  obtain ⟨hwithin, rfl⟩ := (grantedSecs_ok_iff hunexpired).mp hsecs
  obtain ⟨hstart, hend, hparams⟩ := stampParams_ok_iff.mp hstamp
  rw [hparams]
  exact ⟨⟨hunexpired, ⟨params, _, hcsr, hscope⟩, hwithin⟩, hstart, hend, hissuer, rfl, rfl⟩

/-- A call is signed whenever the checks pass, both ends are in range and the issuer can
be built. -/
theorem ChecksPass.exists_signingCall {issuer : rcgen.Issuer}
    (h : ChecksPass rcgen key csrDer newValidity currentUnixTime)
    (hstart : inTimeRange (asI64 currentUnixTime))
    (hend : inTimeRange (asI64 currentUnixTime + asI64 newValidity.asSecs))
    (hissuer : delegatedIssuer rcgen base64 key = .ok issuer) :
    ∃ call, signingCall rcgen base64 key csrDer newValidity currentUnixTime = .ok call := by
  obtain ⟨hunexpired, ⟨params, publicKey, hcsr, hscope⟩, hwithin⟩ := h
  have hexpiry : ¬ key.expiresAtUnix ≤ currentUnixTime := by
    rwa [UInt64.le_iff_toNat_le, Nat.not_le]
  have hsecs := (grantedSecs_ok_iff hunexpired).mpr ⟨hwithin, rfl⟩
  exact ⟨⟨_, publicKey, issuer⟩, signingCall_ok_iff.mpr ⟨hexpiry, params, newValidity.asSecs,
    hcsr, hscope, hsecs, stampParams_ok_iff.mpr ⟨hstart, hend, rfl⟩, hissuer⟩⟩

theorem fromUnixTimestamp_eq_some_iff {time start : Int} :
    fromUnixTimestamp time = some start ↔ inTimeRange time ∧ time = start := by
  rw [fromUnixTimestamp]
  split
  · rename_i hrange
    simp [hrange]
  · rename_i hrange
    simp [hrange]

theorem addSeconds_panic_iff {time secs : Int} :
    addSeconds time secs = .error .panic ↔ ¬ inTimeRange (time + secs) := by
  rw [addSeconds]
  split
  · rename_i hrange
    simp [hrange]
  · rename_i hrange
    exact ⟨fun _ => hrange, fun _ => rfl⟩

/-- The addition is the only step that panics. -/
theorem stampParams_panic_iff {params : CertificateParams rcgen.Settings}
    {validitySecs : UInt64} :
    stampParams rcgen key params validitySecs currentUnixTime = .error .panic ↔
      inTimeRange (asI64 currentUnixTime) ∧
        ¬ inTimeRange (asI64 currentUnixTime + asI64 validitySecs) := by
  simp only [stampParams, Fallible.bind_error_iff, Fallible.okOr_error_iff, Fallible.okOr_ok_iff,
    Fallible.pure_ne_error, reduceCtorEq, and_false, exists_false, or_false, false_or,
    fromUnixTimestamp_eq_some_iff, addSeconds_panic_iff]
  constructor
  · rintro ⟨_, ⟨hstart, rfl⟩, hend⟩
    exact ⟨hstart, hend⟩
  · rintro ⟨hstart, hend⟩
    exact ⟨_, ⟨hstart, rfl⟩, hend⟩

theorem delegatedIssuer_ne_panic : delegatedIssuer rcgen base64 key ≠ .error .panic := by
  simp only [delegatedIssuer, ne_eq, Fallible.bind_error_iff, Fallible.okOr_error_iff,
    reduceCtorEq, and_false, exists_false, or_false, not_false_eq_true]

theorem checkScope_ne_panic {params : CertificateParams rcgen.Settings} :
    checkScope rcgen key params ≠ .error .panic := by
  intro h
  obtain ⟨e, he⟩ := checkScope_error h
  cases he

theorem signingCall_panic_iff :
    signingCall rcgen base64 key csrDer newValidity currentUnixTime = .error .panic ↔
      ChecksPass rcgen key csrDer newValidity currentUnixTime ∧
        inTimeRange (asI64 currentUnixTime) ∧
        ¬ inTimeRange (asI64 currentUnixTime + asI64 newValidity.asSecs) := by
  simp only [signingCall, Fallible.throw_if_bind_error_iff, Fallible.bind_error_iff,
    Fallible.okOr_error_iff, Fallible.okOr_ok_iff, Fallible.pure_ne_error, reduceCtorEq,
    and_false, exists_false, or_false, false_or,
    checkScope_ne_panic, grantedSecs_ne_panic, delegatedIssuer_ne_panic, stampParams_panic_iff,
    UInt64.le_iff_toNat_le, Nat.not_le]
  constructor
  · rintro ⟨hunexpired, ⟨params, publicKey⟩, hcsr, _, hscope, secs, hsecs, hstart, hend⟩
    obtain ⟨hwithin, rfl⟩ := (grantedSecs_ok_iff hunexpired).mp hsecs
    exact ⟨⟨hunexpired, ⟨params, publicKey, hcsr, hscope⟩, hwithin⟩, hstart, hend⟩
  · rintro ⟨⟨hunexpired, ⟨params, publicKey, hcsr, hscope⟩, hwithin⟩, hstart, hend⟩
    exact ⟨hunexpired, (params, publicKey), hcsr, (), hscope, newValidity.asSecs,
      (grantedSecs_ok_iff hunexpired).mpr ⟨hwithin, rfl⟩, hstart, hend⟩

/-- Signing and encoding add no panic. -/
theorem signSvidDelegated_panic_iff :
    signSvidDelegated rcgen base64 key csrDer newValidity currentUnixTime = .error .panic ↔
      signingCall rcgen base64 key csrDer newValidity currentUnixTime = .error .panic := by
  rw [signSvidDelegated_eq_bind]
  cases signingCall rcgen base64 key csrDer newValidity currentUnixTime with
  | error failure => simp [bind, Except.bind, Functor.map, Except.map]
  | ok call =>
      cases hsigned : rcgen.signedBy call.params call.publicKey call.issuer with
      | none =>
          simp [bind, Except.bind, Functor.map, Except.map, hsigned, Fallible.okOr, throw,
            throwThe, MonadExceptOf.throw]
      | some cert =>
          simp [bind, Except.bind, Functor.map, Except.map, hsigned, Fallible.okOr, pure,
            Except.pure]

end

/-- The window is sound exactly when, on a call that passes the checks, it ends by year
9999, or its start is refused, or it wraps and the key cannot sign anyway. -/
theorem windowSound_iff (rcgen : Rcgen) (base64 : Bytes → String) (key : DelegatedSigningKey)
    (csrDer : Bytes) (newValidity : Duration) (currentUnixTime : UInt64) :
    WindowSound rcgen base64 key csrDer newValidity currentUnixTime ↔
      (ChecksPass rcgen key csrDer newValidity currentUnixTime →
        currentUnixTime.toNat + newValidity.asSecs.toNat ≤ lastSecond ∨
        (lastSecond < currentUnixTime.toNat ∧ currentUnixTime.toNat < firstWrapped) ∨
        (firstWrapped ≤ currentUnixTime.toNat + newValidity.asSecs.toNat ∧
          ∀ issuer, delegatedIssuer rcgen base64 key ≠ .ok issuer)) := by
  rw [WindowSound, ne_eq, signSvidDelegated_panic_iff, signingCall_panic_iff]
  constructor
  · rintro ⟨hpanic, hwindow⟩ hpass
    by_cases hstart : inTimeRange (asI64 currentUnixTime)
    · have hend : inTimeRange (asI64 currentUnixTime + asI64 newValidity.asSecs) := by
        by_contra hout
        exact hpanic ⟨hpass, hstart, hout⟩
      rcases (inTimeRange_add_iff hpass.sum_lt hstart).mp hend with hlast | hwrapped
      · exact .inl hlast
      · refine .inr (.inr ⟨hwrapped, fun issuer hissuer => ?_⟩)
        obtain ⟨call, hcall⟩ := hpass.exists_signingCall hstart hend hissuer
        obtain ⟨-, -, -, -, -, hafter⟩ := signingCall_window hcall
        have hnonneg := (hwindow call hcall).2.1
        have hneg := asI64_add_neg hpass.sum_lt hwrapped hstart
        omega
    · rw [inTimeRange_asI64_iff, not_or, Nat.not_le, Nat.not_le] at hstart
      exact .inr (.inl hstart)
  · intro hcondition
    constructor
    · rintro ⟨hpass, hstart, hend⟩
      rw [inTimeRange_add_iff hpass.sum_lt hstart, not_or] at hend
      rw [inTimeRange_asI64_iff] at hstart
      rcases hcondition hpass with hlast | ⟨hlate, hearly⟩ | ⟨hwrapped, -⟩
      · exact hend.1 hlast
      · omega
      · exact hend.2 hwrapped
    · intro call hcall
      obtain ⟨hpass, hstart, -, hissuer, hbefore, hafter⟩ := signingCall_window hcall
      rw [inTimeRange_asI64_iff] at hstart
      have hwithin := hpass.withinKey
      rcases hcondition hpass with hlast | ⟨hlate, hearly⟩ | ⟨-, hnone⟩
      · rw [asI64_of_le (by omega)] at hbefore hafter
        rw [asI64_of_le (by omega)] at hafter
        omega
      · omega
      · exact absurd hissuer (hnone call.issuer)

namespace Sample

/-- The sample key with an expiry just behind year 9999. -/
def lateKey : DelegatedSigningKey := { key with expiresAtUnix := 253402300800 }

theorem checksPass_lateKey {csrDer subject : Bytes}
    (hcsr : csrFromDer csrDer = some (params subject, spki)) :
    ChecksPass rcgen lateKey csrDer ⟨253402299800, 0⟩ 1000 where
  unexpired := by decide
  inScope := ⟨params subject, spki, hcsr, checkScope_params subject⟩
  withinKey := by decide

end Sample

/-- A renewal for all that is left of a key that outlives year 9999. -/
theorem renewal_beyond_year_9999_panics :
    ¬ ∀ (rcgen : Rcgen) (base64 : Bytes → String) (key : DelegatedSigningKey) (csrDer : Bytes)
        (newValidity : Duration) (currentUnixTime : UInt64),
      WindowSound rcgen base64 key csrDer newValidity currentUnixTime := by
  intro h
  have hpass := Sample.checksPass_lateKey Sample.csrFromDer_plainCsr
  have hstart : inTimeRange (asI64 1000) := inTimeRange_asI64_iff.mpr (by decide)
  apply (h Sample.rcgen Sample.base64 Sample.lateKey Sample.plainCsr ⟨253402299800, 0⟩ 1000).1
  rw [signSvidDelegated_panic_iff, signingCall_panic_iff, inTimeRange_add_iff hpass.sum_lt hstart]
  exact ⟨hpass, hstart, by decide⟩

end Fleetos.Svid
