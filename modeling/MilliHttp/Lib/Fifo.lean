-- A list of entries that have sizes, the newest in front, of which only as many are kept as fit:
-- the oldest go first.
import Mathlib

namespace fifo

variable {α : Type} {size : α → Nat}

/-- The size of all entries together. -/
def total (size : α → Nat) (xs : List α) : Nat := (xs.map size).sum

/-- The entries from the front on that fit into `max`. -/
def fit (size : α → Nat) : Nat → List α → List α
  | _, [] => []
  | max, x :: xs => if size x ≤ max then x :: fit size (max - size x) xs else []

variable {max : Nat} {x : α} {xs : List α}

@[simp] theorem total_nil : total size [] = 0 := rfl

@[simp] theorem total_cons : total size (x :: xs) = size x + total size xs := by
  simp [total]

theorem total_concat : total size (xs ++ [x]) = total size xs + size x := by
  simp [total]

theorem fit_nil : fit size max [] = [] := rfl

theorem fit_cons :
    fit size max (x :: xs) = if size x ≤ max then x :: fit size (max - size x) xs else [] := rfl

/-- What is kept fits. -/
theorem total_fit_le : total size (fit size max xs) ≤ max := by
  induction xs generalizing max with
  | nil => exact Nat.zero_le _
  | cons x xs ih =>
    rw [fit_cons]
    split
    · have hrest : total size (fit size (max - size x) xs) ≤ max - size x := ih
      rw [total_cons]
      omega
    · exact Nat.zero_le _

/-- Everything is kept if it fits. -/
theorem fit_of_total_le (h : total size xs ≤ max) : fit size max xs = xs := by
  induction xs generalizing max with
  | nil => rfl
  | cons x xs ih =>
    rw [total_cons] at h
    rw [fit_cons, if_pos (by omega), ih (by omega)]

/-- If not, the oldest entry is dropped. -/
theorem fit_concat (h : max < total size (xs ++ [x])) :
    fit size max (xs ++ [x]) = fit size max xs := by
  induction xs generalizing max with
  | nil =>
    rw [List.nil_append, total_cons, total_nil] at h
    rw [List.nil_append, fit_cons, if_neg (by omega), fit_nil]
  | cons y xs ih =>
    rw [List.cons_append, total_cons] at h
    rw [List.cons_append, fit_cons, fit_cons]
    split
    · rw [ih (by omega)]
    · rfl

/-- A FIFO whose entries fit into `max`. -/
structure Fifo (size : α → Nat) where
  entries : List α
  max : Nat
  fits : total size entries ≤ max

namespace Fifo

/-- A FIFO without entries. -/
def empty (max : Nat) : Fifo size := ⟨[], max, Nat.zero_le max⟩

/-- Puts an entry in front. -/
def insert (x : α) (q : Fifo size) : Fifo size :=
  ⟨fit size q.max (x :: q.entries), q.max, total_fit_le⟩

/-- Gives the FIFO another size. -/
def resize (max : Nat) (q : Fifo size) : Fifo size := ⟨fit size max q.entries, max, total_fit_le⟩

end Fifo

end fifo
