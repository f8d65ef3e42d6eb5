import Mathlib.Data.Vector.Basic

/-!
# Indices, slices and machine words that can fail

Accesses and sums as a program makes them that stops when it leaves its bounds: an index
or a slice outside of the list, an array filled from a list of another length, a sum that
does not fit into a 64-bit word. Stopping is an outcome of its own, apart from the values
that the program returns for bad input.

Each operation has one rule, for the case in which it stays in its bounds.
-/

namespace Checked

inductive Panic where
  | index
  | slice
  | copyLength
  | overflow
  deriving DecidableEq, Repr

section Lists

variable {α : Type}

/-- `xs[i]`. -/
def index (xs : List α) (i : Nat) : Except Panic α :=
  match xs[i]? with
  | some x => pure x
  | none => throw .index

/-- `&xs[start..stop]`. -/
def slice (xs : List α) (start stop : Nat) : Except Panic (List α) :=
  if start ≤ stop ∧ stop ≤ xs.length then pure ((xs.drop start).take (stop - start))
  else throw .slice

/-- `&xs[..stop]`. -/
def sliceTo (xs : List α) (stop : Nat) : Except Panic (List α) := slice xs 0 stop

/-- `&xs[start..]`. -/
def sliceFrom (xs : List α) (start : Nat) : Except Panic (List α) := slice xs start xs.length

/-- An array of `n` elements overwritten with a slice. -/
def copyFromSlice (n : Nat) (src : List α) : Except Panic (List.Vector α n) :=
  if h : src.length = n then pure ⟨src, h⟩ else throw .copyLength

theorem index_of_getElem? {xs : List α} {i : Nat} {x : α} (h : xs[i]? = some x) :
    index xs i = .ok x := by
  rw [index, h]
  rfl

theorem index_append (before : List α) (x : α) (after : List α) :
    index (before ++ x :: after) before.length = .ok x := by
  apply index_of_getElem?
  rw [List.getElem?_append_right (Nat.le_refl _), Nat.sub_self]
  rfl

theorem slice_of_le {xs : List α} {start stop : Nat} (h : start ≤ stop) (h' : stop ≤ xs.length) :
    slice xs start stop = .ok ((xs.drop start).take (stop - start)) := by
  rw [slice, if_pos ⟨h, h'⟩]
  rfl

theorem sliceTo_of_le {xs : List α} {stop : Nat} (h : stop ≤ xs.length) :
    sliceTo xs stop = .ok (xs.take stop) :=
  slice_of_le (Nat.zero_le stop) h

theorem sliceFrom_of_le {xs : List α} {start : Nat} (h : start ≤ xs.length) :
    sliceFrom xs start = .ok (xs.drop start) := by
  rw [sliceFrom, slice_of_le h (Nat.le_refl _), List.take_of_length_le (by simp)]

theorem copyFromSlice_toList {n : Nat} (v : List.Vector α n) :
    copyFromSlice n v.toList = .ok v := by
  rw [copyFromSlice, dif_pos v.toList_length]
  rfl

end Lists

/-- `a + b` of 64 bits. -/
def add (a b : Nat) : Except Panic Nat := if a + b < 2 ^ 64 then pure (a + b) else throw .overflow

/-- `a - b` of 64 bits. -/
def sub (a b : Nat) : Except Panic Nat := if b ≤ a then pure (a - b) else throw .overflow

theorem add_of_lt {a b : Nat} (h : a + b < 2 ^ 64) : add a b = .ok (a + b) := by
  rw [add, if_pos h]
  rfl

theorem sub_of_le {a b : Nat} (h : b ≤ a) : sub a b = .ok (a - b) := by
  rw [sub, if_pos h]
  rfl

end Checked
