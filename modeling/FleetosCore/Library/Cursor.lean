import FleetosCore.Library.Bytes

/-!
# Bounds-checked reading of a byte string

A cursor program consumes a prefix of the remaining bytes and returns a value, or
fails with an error and no value. `Reads m G` is its complete description: the
program succeeds exactly on inputs that start with a string of the grammar `G`,
consumes that string and leaves the rest untouched. Soundness and completeness
are the two directions of one equivalence, so a specification composes through
`bind` without losing either.
-/

/-- A program over the bytes that remain to be read. -/
abbrev Cursor (ε α : Type) : Type := StateT Bytes (Except ε) α

namespace Cursor

variable {ε α β : Type}

/-- `m` succeeds exactly on inputs with a prefix in `G`, and consumes that prefix. -/
def Reads (m : Cursor ε α) (G : Bytes → α → Prop) : Prop :=
  ∀ bs x rest, m bs = .ok (x, rest) ↔ ∃ consumed, bs = consumed ++ rest ∧ G consumed x

/-- Split off the next `n` bytes, or fail without a value. -/
def take (error : ε) (n : Nat) : Cursor ε Bytes := fun bs =>
  if bs.length < n then .error error else .ok (bs.take n, bs.drop n)

/-- Fail unless the condition holds; consume nothing. -/
def check (error : ε) (condition : Prop) [Decidable condition] : Cursor ε Unit :=
  if condition then pure () else throw error

theorem bind_ok_iff {m : Cursor ε α} {f : α → Cursor ε β} {bs rest : Bytes} {y : β} :
    (m >>= f) bs = .ok (y, rest) ↔
      ∃ x middle, m bs = .ok (x, middle) ∧ f x middle = .ok (y, rest) := by
  change (m bs >>= fun p => f p.1 p.2) = _ ↔ _
  cases hm : m bs with
  | error e => simp [bind, Except.bind]
  | ok p =>
      obtain ⟨x, middle⟩ := p
      simp [bind, Except.bind]

namespace Reads

theorem consequence {m : Cursor ε α} {G G' : Bytes → α → Prop} (h : Reads m G)
    (same : ∀ b x, G b x ↔ G' b x) : Reads m G' := by
  intro bs x rest
  simp only [h bs x rest, same]

theorem pure (x : α) : Reads (pure x : Cursor ε α) (fun b y => b = [] ∧ y = x) := by
  intro bs y rest
  constructor
  · intro h
    obtain ⟨rfl, rfl⟩ := Prod.mk.inj (Except.ok.inj h)
    exact ⟨[], rfl, rfl, rfl⟩
  · rintro ⟨_, rfl, rfl, rfl⟩
    rfl

theorem throw (error : ε) : Reads (throw error : Cursor ε α) (fun _ _ => False) := by
  intro bs x rest
  constructor
  · intro h
    cases h
  · rintro ⟨_, _, impossible⟩
    exact impossible.elim

/-- Two programs in sequence read the concatenation of what each one reads. -/
theorem bind {m : Cursor ε α} {f : α → Cursor ε β} {G : Bytes → α → Prop}
    {H : α → Bytes → β → Prop} (first : Reads m G) (second : ∀ x, Reads (f x) (H x)) :
    Reads (m >>= f) (fun b y => ∃ x b₁ b₂, b = b₁ ++ b₂ ∧ G b₁ x ∧ H x b₂ y) := by
  intro bs y rest
  rw [bind_ok_iff]
  constructor
  · rintro ⟨x, middle, hm, hf⟩
    obtain ⟨b₁, rfl, hG⟩ := (first _ _ _).mp hm
    obtain ⟨b₂, rfl, hH⟩ := (second x _ _ _).mp hf
    exact ⟨b₁ ++ b₂, by simp, x, b₁, b₂, rfl, hG, hH⟩
  · rintro ⟨_, rfl, x, b₁, b₂, rfl, hG, hH⟩
    refine ⟨x, b₂ ++ rest, ?_, (second x _ _ _).mpr ⟨b₂, rfl, hH⟩⟩
    exact (first _ _ _).mpr ⟨b₁, by simp, hG⟩

theorem take (error : ε) (n : Nat) :
    Reads (take error n) (fun b x => b = x ∧ x.length = n) := by
  intro bs x rest
  simp only [Cursor.take]
  constructor
  · intro h
    split at h
    · cases h
    · rename_i hlong
      obtain ⟨rfl, rfl⟩ := Prod.mk.inj (Except.ok.inj h)
      refine ⟨bs.take n, (List.take_append_drop n bs).symm, rfl, ?_⟩
      rw [List.length_take]
      omega
  · rintro ⟨_, rfl, rfl, rfl⟩
    rw [if_neg (by simp)]
    simp

theorem check (error : ε) (condition : Prop) [Decidable condition] :
    Reads (check error condition) (fun b _ => b = [] ∧ condition) := by
  intro bs x rest
  simp only [Cursor.check]
  split
  · rename_i holds
    simp only [Reads.pure () bs x rest, holds, and_true]
  · rename_i fails
    simp only [Reads.throw error bs x rest, fails, and_false]

end Reads

end Cursor
