import FleetosCore.Library.Canonical
import FleetosCore.Library.Fallible
import FleetosCore.Library.Text

/-!
# Hostnames of dummy addresses

`dummy_ip_hostname` of `src/naming.rs`, the one function behind every line that the fleet
writes into `/etc/hosts`: `{service}.{role}.{tenant}.svc.{trust_domain}` in lower case.
Service, role and tenant are one label each, the trust domain is any number of them.

The marker `svc` is a legal label in every position and does not delimit anything. What
makes a hostname readable is that the first three components have no dot, so they end at
the first three dots.
-/

namespace Fleetos

open Text (utf8 toAsciiLowercase)

inductive NamingError where
  | emptyLabel
  | unsafeLabel (label : String)
  | labelTooLong (label : String)
  deriving DecidableEq, Repr

/-- `a` to `z`, `0` to `9` and the hyphen. -/
def labelChar (c : Char) : Bool := c.isLower || c.isDigit || c == '-'

def validateLabel (label : String) : Except NamingError Unit := do
  if label.isEmpty then throw .emptyLabel
  if (utf8 label).length > 63 then throw (.labelTooLong label)
  let safe := label.toList.all labelChar && label.toList.head? != some '-' &&
    label.toList.getLast? != some '-'
  if !safe then throw (.unsafeLabel label)

/-- `str::split('.')`: the parts between the dots, one more than there are dots. -/
def splitDots (s : String) : List String := (s.toList.splitOn '.').map String.ofList

def dummyIpHostname (service role tenant trustDomain : String) : Except NamingError String := do
  let service := toAsciiLowercase service
  let role := toAsciiLowercase role
  let tenant := toAsciiLowercase tenant
  let trustDomain := toAsciiLowercase trustDomain
  validateLabel service
  validateLabel role
  validateLabel tenant
  if trustDomain.isEmpty then throw .emptyLabel
  forM (splitDots trustDomain) validateLabel
  return service ++ "." ++ role ++ "." ++ tenant ++ ".svc." ++ trustDomain

/-! ## Labels -/

/-- A label of one to sixty-three bytes, of letters, digits and inner hyphens. -/
structure SafeLabel (label : String) : Prop where
  nonempty : 0 < (utf8 label).length
  short : (utf8 label).length ≤ 63
  chars : ∀ c ∈ label.toList, labelChar c = true
  first : label.toList.head? ≠ some '-'
  last : label.toList.getLast? ≠ some '-'

theorem validateLabel_ok_iff {label : String} : validateLabel label = .ok () ↔ SafeLabel label := by
  have hempty : label.isEmpty = true ↔ (utf8 label).length = 0 := by
    rw [String.isEmpty_iff, List.length_eq_zero_iff]
    constructor
    · rintro rfl
      rfl
    · intro h
      exact Text.utf8_injective h
  simp only [validateLabel, Fallible.throw_if_bind_ok_iff, Fallible.throw_if_ok_iff, hempty,
    Bool.not_eq_true', Bool.not_eq_false, Bool.and_eq_true, List.all_eq_true, bne_iff_ne,
    and_true]
  constructor
  · rintro ⟨hnonempty, hshort, ⟨hchars, hfirst⟩, hlast⟩
    exact ⟨Nat.pos_of_ne_zero hnonempty, Nat.not_lt.mp hshort, hchars, hfirst, hlast⟩
  · intro h
    exact ⟨Nat.ne_of_gt h.nonempty, Nat.not_lt.mpr h.short, ⟨h.chars, h.first⟩, h.last⟩

theorem labelChar_ne_dot {c : Char} (h : labelChar c = true) : c ≠ '.' := by
  rintro rfl
  exact absurd h (by decide)

theorem SafeLabel.dot_notMem {label : String} (h : SafeLabel label) : '.' ∉ label.toList :=
  fun hdot => labelChar_ne_dot (h.chars _ hdot) rfl

/-! ## Hostnames -/

/-- The arguments of `dummy_ip_hostname`. -/
structure ServiceAddress where
  service : String
  role : String
  tenant : String
  trustDomain : String
  deriving DecidableEq, Repr

namespace ServiceAddress

def lowercase (a : ServiceAddress) : ServiceAddress :=
  ⟨toAsciiLowercase a.service, toAsciiLowercase a.role, toAsciiLowercase a.tenant,
    toAsciiLowercase a.trustDomain⟩

def hostname (a : ServiceAddress) : Except NamingError String :=
  dummyIpHostname a.service a.role a.tenant a.trustDomain

/-- The components of a hostname, with the marker in between. -/
def joined (a : ServiceAddress) : String :=
  a.service ++ "." ++ a.role ++ "." ++ a.tenant ++ ".svc." ++ a.trustDomain

/-- Every component is made of labels. -/
structure Safe (a : ServiceAddress) : Prop where
  service : SafeLabel a.service
  role : SafeLabel a.role
  tenant : SafeLabel a.tenant
  trustDomain : ∀ part ∈ splitDots a.trustDomain, SafeLabel part

theorem hostname_ok_iff {a : ServiceAddress} {host : String} :
    a.hostname = .ok host ↔ a.lowercase.Safe ∧ host = a.lowercase.joined := by
  have hempty : ∀ d : String, (∀ part ∈ splitDots d, SafeLabel part) → d.isEmpty ≠ true := by
    intro d hparts hd
    obtain rfl := String.isEmpty_iff.mp hd
    exact absurd (hparts "" (by decide)).nonempty (by decide)
  have hparts : ∀ d : String, forM (splitDots d) validateLabel = .ok () ↔
      ∀ part ∈ splitDots d, SafeLabel part := by
    intro d
    simp only [Fallible.forM_ok_iff, validateLabel_ok_iff]
  simp only [hostname, dummyIpHostname, Fallible.bind_ok_iff, Fallible.throw_if_bind_ok_iff,
    Fallible.pure_ok_iff]
  constructor
  · rintro ⟨_, hservice, _, hrole, _, htenant, -, _, htrust, rfl⟩
    exact ⟨⟨validateLabel_ok_iff.mp hservice, validateLabel_ok_iff.mp hrole,
      validateLabel_ok_iff.mp htenant, (hparts _).mp htrust⟩, rfl⟩
  · rintro ⟨hsafe, rfl⟩
    exact ⟨(), validateLabel_ok_iff.mpr hsafe.service, (), validateLabel_ok_iff.mpr hsafe.role,
      (), validateLabel_ok_iff.mpr hsafe.tenant, hempty _ hsafe.trustDomain, (),
      (hparts _).mpr hsafe.trustDomain, rfl⟩

theorem toList_joined (a : ServiceAddress) :
    a.joined.toList = a.service.toList ++ '.' :: (a.role.toList ++ '.' ::
      (a.tenant.toList ++ '.' :: ("svc".toList ++ '.' :: a.trustDomain.toList))) := by
  simp [joined]

theorem splitDots_joined {a : ServiceAddress} (h : a.Safe) :
    splitDots a.joined =
      a.service :: a.role :: a.tenant :: "svc" :: splitDots a.trustDomain := by
  rw [splitDots, toList_joined, List.splitOn_append_cons_self_of_not_mem h.service.dot_notMem,
    List.splitOn_append_cons_self_of_not_mem h.role.dot_notMem,
    List.splitOn_append_cons_self_of_not_mem h.tenant.dot_notMem,
    List.splitOn_append_cons_self_of_not_mem (by decide)]
  simp only [List.map_cons, String.ofList_toList]
  rfl

/-- The components end at the first dots, so they are determined by the hostname. -/
theorem eq_of_joined_eq {a b : ServiceAddress} (ha : a.Safe) (hb : b.Safe)
    (h : a.joined = b.joined) : a = b := by
  have hlist := congrArg String.toList h
  rw [toList_joined, toList_joined] at hlist
  obtain ⟨hservice, hlist⟩ :=
    Bytes.field_inj ha.service.dot_notMem hb.service.dot_notMem hlist
  obtain ⟨hrole, hlist⟩ := Bytes.field_inj ha.role.dot_notMem hb.role.dot_notMem hlist
  obtain ⟨htenant, hlist⟩ := Bytes.field_inj ha.tenant.dot_notMem hb.tenant.dot_notMem hlist
  obtain ⟨-, htrust⟩ := Bytes.field_inj (by decide) (by decide) hlist
  cases a
  cases b
  simp only [mk.injEq]
  exact ⟨String.toList_injective hservice, String.toList_injective hrole,
    String.toList_injective htenant, String.toList_injective htrust⟩

/-- The labels of a hostname are those of its components and the marker. -/
theorem safeLabel_of_mem_splitDots {a : ServiceAddress} (h : a.Safe) :
    ∀ part ∈ splitDots a.joined, SafeLabel part := by
  have hmarker : SafeLabel "svc" := validateLabel_ok_iff.mp (by decide)
  rw [splitDots_joined h]
  simp only [List.mem_cons, forall_eq_or_imp]
  exact ⟨h.service, h.role, h.tenant, hmarker, h.trustDomain⟩

/-- A character is a dot or belongs to one of the parts between the dots. -/
theorem eq_dot_or_mem_part {s : String} {c : Char} (h : c ∈ s.toList) :
    c = '.' ∨ ∃ part ∈ splitDots s, c ∈ part.toList := by
  have hpart : ∀ part ∈ s.toList.splitOn '.', c ∈ part →
      ∃ part ∈ splitDots s, c ∈ part.toList := by
    intro part hmem hc
    exact ⟨String.ofList part, List.mem_map_of_mem hmem, by rwa [String.toList_ofList]⟩
  obtain ⟨first, rest, hsplit⟩ := List.exists_cons_of_ne_nil (List.splitOn_ne_nil '.' s.toList)
  have hjoin : ['.'].intercalate (s.toList.splitOn '.') = s.toList := List.intercalate_splitOn '.'
  rw [hsplit, Canonical.intercalate_cons] at hjoin
  rw [hsplit] at hpart
  rw [← hjoin, List.mem_append, List.mem_flatMap] at h
  rcases h with hfirst | ⟨part, hmem, hc⟩
  · exact .inr (hpart first List.mem_cons_self hfirst)
  · rcases List.mem_cons.mp hc with hdot | hc
    · exact .inl hdot
    · exact .inr (hpart part (List.mem_cons_of_mem _ hmem) hc)

theorem not_blank_of_labelChar {c : Char} (h : labelChar c = true ∨ c = '.') :
    c.isWhitespace = false ∧ c ≠ '#' := by
  have hne : ∀ d : Char, labelChar d = false → d ≠ '.' → c ≠ d := by
    rintro d hd hdot rfl
    rcases h with hlabel | hc
    · rw [hlabel] at hd
      cases hd
    · exact hdot hc
  refine ⟨?_, hne '#' (by decide) (by decide)⟩
  simp [Char.isWhitespace, hne ' ' (by decide) (by decide), hne '\t' (by decide) (by decide),
    hne '\r' (by decide) (by decide), hne '\n' (by decide) (by decide)]

end ServiceAddress

/-- Hostnames are safe to write and tell addresses apart: every label is a DNS label, no
blank, line break or comment sign gets in, letter case does not matter, and two addresses
have the same hostname exactly when they are the same in lower case. -/
theorem hostname_safe_and_injective (a b : ServiceAddress) :
    (∀ host, a.hostname = .ok host →
      (∀ label ∈ splitDots host, SafeLabel label) ∧
      ∀ c ∈ host.toList, (labelChar c = true ∨ c = '.') ∧ c.isWhitespace = false ∧ c ≠ '#') ∧
    (a.lowercase = b.lowercase → a.hostname = b.hostname) ∧
    ∀ host host', a.hostname = .ok host → b.hostname = .ok host' →
      (host = host' ↔ a.lowercase = b.lowercase) := by
  refine ⟨?_, ?_, ?_⟩
  · intro host h
    obtain ⟨hsafe, rfl⟩ := ServiceAddress.hostname_ok_iff.mp h
    have hlabels := ServiceAddress.safeLabel_of_mem_splitDots hsafe
    refine ⟨hlabels, fun c hc => ?_⟩
    have hclass : labelChar c = true ∨ c = '.' := by
      rcases ServiceAddress.eq_dot_or_mem_part hc with hdot | ⟨part, hmem, hpart⟩
      · exact .inr hdot
      · exact .inl ((hlabels part hmem).chars c hpart)
    exact ⟨hclass, ServiceAddress.not_blank_of_labelChar hclass⟩
  · intro h
    simp only [ServiceAddress.lowercase, ServiceAddress.mk.injEq] at h
    obtain ⟨hservice, hrole, htenant, htrust⟩ := h
    simp only [ServiceAddress.hostname, dummyIpHostname, hservice, hrole, htenant, htrust]
  · intro host host' ha hb
    obtain ⟨hsafe, rfl⟩ := ServiceAddress.hostname_ok_iff.mp ha
    obtain ⟨hsafe', rfl⟩ := ServiceAddress.hostname_ok_iff.mp hb
    constructor
    · intro h
      exact ServiceAddress.eq_of_joined_eq hsafe hsafe' h
    · intro h
      rw [h]

/-- Letter case changes nothing, a component does. -/
theorem hostname_of_two_roles :
    (ServiceAddress.mk "DB" "Replica" "ACME" "Fleet.Internal").hostname =
        .ok "db.replica.acme.svc.fleet.internal" ∧
      (ServiceAddress.mk "DB" "Replica" "ACME" "Fleet.Internal").hostname =
        (ServiceAddress.mk "db" "replica" "acme" "fleet.internal").hostname ∧
      "db.replica.acme.svc.fleet.internal" ≠ "db.svc.acme.svc.fleet.internal" := by
  have hcase := hostname_safe_and_injective ⟨"DB", "Replica", "ACME", "Fleet.Internal"⟩
    ⟨"db", "replica", "acme", "fleet.internal"⟩
  have hroles := hostname_safe_and_injective ⟨"db", "replica", "acme", "fleet.internal"⟩
    ⟨"db", "svc", "acme", "fleet.internal"⟩
  refine ⟨by decide, hcase.2.1 (by decide), fun heq => ?_⟩
  have hsame := (hroles.2.2 _ _ (by decide) (by decide)).mp heq
  exact absurd hsame (by decide)

end Fleetos
