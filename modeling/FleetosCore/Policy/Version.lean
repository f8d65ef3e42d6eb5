import FleetosCore.Library.Effect

/-!
# Versions that only go up

`MonotonicVersion` of `src/version.rs` is the version of an authorization graph. `advance`
takes a new version and keeps the old one when the new one is not above it.

Updates may come late, twice or not in order. What a version answers to an update then
depends on the updates before it only through the greatest of them, and what it holds at
the end does not depend on the order at all.
-/

namespace Fleetos

structure MonotonicVersion where
  value : UInt64
  deriving DecidableEq, Repr

namespace MonotonicVersion

def new (v : UInt64) : MonotonicVersion := ⟨v⟩

def get (version : MonotonicVersion) : UInt64 := version.value

instance : Inhabited MonotonicVersion := ⟨new 0⟩

/-- Versions are compared by their numbers. -/
instance : Ord MonotonicVersion := ⟨fun version other => compare version.value other.value⟩

def notMonotonic : String := "Version must be strictly monotonic"

def advance (newV : UInt64) : Effect String MonotonicVersion Unit := fun version =>
  if newV ≤ version.value then .error notMonotonic version
  else .ok () ⟨newV⟩

/-- The replies to a sequence of updates, and the version after them. -/
def advanceAll : List UInt64 → MonotonicVersion → List (Except String Unit) × MonotonicVersion
  | [], version => ([], version)
  | newV :: updates, version =>
      match advance newV version with
      | .ok _ version' =>
          (.ok () :: (advanceAll updates version').1, (advanceAll updates version').2)
      | .error e version' =>
          (.error e :: (advanceAll updates version').1, (advanceAll updates version').2)

/-- The updates that were taken. -/
def accepted (updates : List UInt64) (replies : List (Except String Unit)) : List UInt64 :=
  ((updates.zip replies).filter fun entry => entry.2.isOk).map (·.1)

/-- What the updates so far leave to be said to a new one: it has to be above all of them. -/
def reply (seen : List UInt64) (newV : UInt64) : Except String Unit :=
  if seen.all (· < newV) then .ok () else .error notMonotonic

theorem advance_of_lt {newV : UInt64} {version : MonotonicVersion} (h : version.value < newV) :
    advance newV version = .ok () ⟨newV⟩ :=
  if_neg (UInt64.not_le.mpr h)

theorem advance_of_le {newV : UInt64} {version : MonotonicVersion} (h : newV ≤ version.value) :
    advance newV version = .error notMonotonic version :=
  if_pos h

theorem advanceAll_of_lt {newV : UInt64} {version : MonotonicVersion} (updates : List UInt64)
    (h : version.value < newV) :
    advanceAll (newV :: updates) version =
      (.ok () :: (advanceAll updates ⟨newV⟩).1, (advanceAll updates ⟨newV⟩).2) := by
  rw [advanceAll, advance_of_lt h]

theorem advanceAll_of_le {newV : UInt64} {version : MonotonicVersion} (updates : List UInt64)
    (h : newV ≤ version.value) :
    advanceAll (newV :: updates) version =
      (.error notMonotonic :: (advanceAll updates version).1,
        (advanceAll updates version).2) := by
  rw [advanceAll, advance_of_le h]

/-- What is held stands for all that was seen: the greatest of it. -/
structure Holds (version : MonotonicVersion) (seen : List UInt64) : Prop where
  occurs : version.value ∈ seen
  greatest : ∀ v ∈ seen, v ≤ version.value

namespace Holds

variable {version : MonotonicVersion} {seen updates : List UInt64} {newV : UInt64}

theorem new (v : UInt64) : Holds (.new v) [v] :=
  ⟨List.mem_singleton.mpr rfl, fun _ hw => List.mem_singleton.mp hw ▸ UInt64.le_refl _⟩

theorem lt_iff (h : Holds version seen) : version.value < newV ↔ ∀ v ∈ seen, v < newV :=
  ⟨fun hlt v hv => UInt64.lt_of_le_of_lt (h.greatest v hv) hlt, fun hall => hall _ h.occurs⟩

theorem lt_iff_all (h : Holds version seen) : version.value < newV ↔ seen.all (· < newV) := by
  rw [h.lt_iff, List.all_eq_true]
  simp

theorem taken (h : Holds version seen) (hlt : version.value < newV) :
    Holds ⟨newV⟩ (seen ++ [newV]) := by
  refine ⟨by simp, fun v hv => ?_⟩
  rcases List.mem_append.mp hv with hseen | hnew
  · exact UInt64.le_of_lt (h.lt_iff.mp hlt v hseen)
  · exact List.mem_singleton.mp hnew ▸ UInt64.le_refl _

theorem kept (h : Holds version seen) (hle : newV ≤ version.value) :
    Holds version (seen ++ [newV]) := by
  refine ⟨List.mem_append_left _ h.occurs, fun v hv => ?_⟩
  rcases List.mem_append.mp hv with hseen | hnew
  · exact h.greatest v hseen
  · exact List.mem_singleton.mp hnew ▸ hle

/-- Two versions that stand for the same updates, in whatever order, are equal. -/
theorem unique {other : MonotonicVersion} {seen' : List UInt64} (h : Holds version seen)
    (h' : Holds other seen') (hsame : ∀ v, v ∈ seen ↔ v ∈ seen') : version = other := by
  cases version
  cases other
  congr 1
  exact UInt64.le_antisymm (h'.greatest _ ((hsame _).mp h.occurs))
    (h.greatest _ ((hsame _).mpr h'.occurs))

/-- A run of updates: the version stands for them as well. -/
theorem run (h : Holds version seen) (updates : List UInt64) :
    Holds (advanceAll updates version).2 (seen ++ updates) := by
  induction updates generalizing version seen with
  | nil => rwa [List.append_nil]
  | cons newV updates ih =>
      rw [← List.singleton_append, ← List.append_assoc]
      by_cases hlt : version.value < newV
      · rw [List.singleton_append, advanceAll_of_lt updates hlt]
        exact ih (h.taken hlt)
      · have hle := UInt64.not_lt.mp hlt
        rw [List.singleton_append, advanceAll_of_le updates hle]
        exact ih (h.kept hle)

theorem reply_of_lt (h : Holds version seen) (hlt : version.value < newV) :
    reply seen newV = .ok () :=
  if_pos (h.lt_iff_all.mp hlt)

theorem reply_of_le (h : Holds version seen) (hle : newV ≤ version.value) :
    reply seen newV = .error notMonotonic :=
  if_neg fun hall => UInt64.not_lt.mpr hle (h.lt_iff_all.mpr hall)

/-- The reply to an update is decided by all that was seen before it. -/
theorem replies (h : Holds version seen) (updates : List UInt64) :
    (advanceAll updates version).1 =
      updates.mapIdx fun i newV => reply (seen ++ updates.take i) newV := by
  induction updates generalizing version seen with
  | nil => rfl
  | cons newV updates ih =>
      have hseen : ∀ i, seen ++ (newV :: updates).take (i + 1) =
          (seen ++ [newV]) ++ updates.take i := fun i => by simp
      rw [List.mapIdx_cons, List.take_zero, List.append_nil]
      simp only [hseen]
      by_cases hlt : version.value < newV
      · rw [advanceAll_of_lt updates hlt, h.reply_of_lt hlt, ih (h.taken hlt)]
      · have hle := UInt64.not_lt.mp hlt
        rw [advanceAll_of_le updates hle, h.reply_of_le hle, ih (h.kept hle)]

end Holds

/-- The updates taken go up from the version at the start to the one at the end. -/
theorem accepted_increasing (version : MonotonicVersion) (updates : List UInt64) :
    (version.value :: accepted updates (advanceAll updates version).1).IsChain (· < ·) ∧
      (version.value :: accepted updates (advanceAll updates version).1).getLast? =
        some (advanceAll updates version).2.value := by
  induction updates generalizing version with
  | nil => exact ⟨.singleton _, rfl⟩
  | cons newV updates ih =>
      by_cases hlt : version.value < newV
      · rw [advanceAll_of_lt updates hlt]
        obtain ⟨hchain, hlast⟩ := ih ⟨newV⟩
        exact ⟨.cons_cons hlt hchain, hlast⟩
      · rw [advanceAll_of_le updates (UInt64.not_lt.mp hlt)]
        exact ih version

/-- A version and any sequence of updates, late, repeated or in any order. An update is
taken exactly if it is above the first version and above every update before it, and else
refused with the one error; the updates taken are strictly increasing and end with the
version held; that version is the greatest of all that was given; and two versions that
were given the same numbers agree at the end, whatever the order. -/
theorem updates_in_any_order (v : UInt64) (updates : List UInt64) :
    (advanceAll updates (new v)).1 =
      updates.mapIdx (fun i newV => reply (v :: updates.take i) newV) ∧
    (v :: accepted updates (advanceAll updates (new v)).1).Pairwise (· < ·) ∧
    (v :: accepted updates (advanceAll updates (new v)).1).getLast? =
      some (advanceAll updates (new v)).2.get ∧
    (∀ w ∈ v :: updates, w ≤ (advanceAll updates (new v)).2.get) ∧
    ∀ v' updates', (∀ w, w ∈ v :: updates ↔ w ∈ v' :: updates') →
      (advanceAll updates (new v)).2 = (advanceAll updates' (new v')).2 := by
  have hholds := (Holds.new v).run updates
  obtain ⟨hchain, hlast⟩ := accepted_increasing (new v) updates
  refine ⟨(Holds.new v).replies updates, ?_, hlast, hholds.greatest, fun v' updates' hsame => ?_⟩
  · have : IsTrans UInt64 (· < ·) := ⟨fun _ _ _ => UInt64.lt_trans⟩
    exact List.isChain_iff_pairwise.mp hchain
  · exact hholds.unique ((Holds.new v').run updates') hsame

end MonotonicVersion

end Fleetos
