-- Sets of positions kept as half-open ranges, ascending and with a position missing between any
-- two of them: how far they reach from 0 without a gap, and how they move when positions are
-- counted from further on.
import Mathlib

namespace spans

/-- A half-open range. -/
abbrev Span := Nat × Nat

/-- A position is in one of the spans. -/
def Holds (l : List Span) (n : Nat) : Prop := ∃ r ∈ l, r.1 ≤ n ∧ n < r.2

instance (l : List Span) (n : Nat) : Decidable (Holds l n) :=
  inferInstanceAs (Decidable (∃ r ∈ l, r.1 ≤ n ∧ n < r.2))

/-- Ascending spans that are not empty, and neither overlap nor touch. -/
structure Spaced (l : List Span) : Prop where
  filled : ∀ r ∈ l, r.1 < r.2
  apart : l.Pairwise fun a b => a.2 < b.1

variable {l : List Span} {r : Span}

@[simp] theorem not_holds_nil (n : Nat) : ¬Holds [] n := by simp [Holds]

@[simp] theorem holds_cons (r : Span) (l : List Span) (n : Nat) :
    Holds (r :: l) n ↔ (r.1 ≤ n ∧ n < r.2) ∨ Holds l n := by
  simp [Holds]

theorem spaced_nil : Spaced [] := ⟨nofun, .nil⟩

theorem spaced_cons : Spaced (r :: l) ↔ r.1 < r.2 ∧ (∀ a ∈ l, r.2 < a.1) ∧ Spaced l := by
  constructor
  · rintro ⟨hfilled, hap⟩
    obtain ⟨hbefore, hrest⟩ := List.pairwise_cons.mp hap
    exact ⟨hfilled r List.mem_cons_self, hbefore,
      fun a ha => hfilled a (List.mem_cons_of_mem r ha), hrest⟩
  · rintro ⟨hr, hbefore, hfilled, hap⟩
    exact ⟨List.forall_mem_cons.mpr ⟨hr, hfilled⟩, List.pairwise_cons.mpr ⟨hbefore, hap⟩⟩

/-! ## The front -/

/-- How far the spans reach from 0. -/
def front : List Span → Nat
  | (0, stop) :: _ => stop
  | _ => 0

/-- The front is the first position that is missing. -/
theorem Spaced.front (h : Spaced l) : (∀ n < front l, Holds l n) ∧ ¬Holds l (front l) := by
  cases l with
  | nil => exact ⟨nofun, not_holds_nil 0⟩
  | cons r l =>
    obtain ⟨start, stop⟩ := r
    obtain ⟨hr, hbefore, -⟩ := spaced_cons.mp h
    cases start with
    | zero =>
      refine ⟨fun n hn => (holds_cons _ _ _).mpr (.inl ⟨Nat.zero_le n, hn⟩), ?_⟩
      rintro ⟨a, ha, hle, hlt⟩
      rcases List.mem_cons.mp ha with rfl | ha
      · exact absurd hlt (Nat.lt_irrefl _)
      · exact absurd (hbefore a ha) (Nat.not_lt.mpr hle)
    | succ start =>
      refine ⟨nofun, ?_⟩
      rintro ⟨a, ha, hle, hlt⟩
      have hzero : a.1 ≤ 0 := hle
      rcases List.mem_cons.mp ha with rfl | ha
      · exact absurd hzero (by simp)
      · have := hbefore a ha
        omega

/-! ## Counting from further on -/

/-- The spans as seen from position `n` on. -/
def shift (n : Nat) (l : List Span) : List Span :=
  l.filterMap fun (start, stop) => if stop ≤ n then none else some (start - n, stop - n)

theorem mem_shift {n : Nat} {a : Span} :
    a ∈ shift n l ↔ ∃ r ∈ l, n < r.2 ∧ a = (r.1 - n, r.2 - n) := by
  simp only [shift, List.mem_filterMap]
  constructor
  · rintro ⟨r, hr, heq⟩
    split at heq
    · cases heq
    · cases heq
      exact ⟨r, hr, by omega, rfl⟩
  · rintro ⟨r, hr, hlt, rfl⟩
    exact ⟨r, hr, by rw [if_neg (by omega)]⟩

theorem holds_shift (n i : Nat) : Holds (shift n l) i ↔ Holds l (n + i) := by
  constructor
  · rintro ⟨a, ha, hle, hlt⟩
    obtain ⟨r, hr, hstop, rfl⟩ := mem_shift.mp ha
    dsimp only at hle hlt
    exact ⟨r, hr, by omega, by omega⟩
  · rintro ⟨r, hr, hle, hlt⟩
    exact ⟨_, mem_shift.mpr ⟨r, hr, by omega, rfl⟩, by dsimp only; omega, by dsimp only; omega⟩

theorem Spaced.shift (h : Spaced l) (n : Nat) : Spaced (shift n l) := by
  refine ⟨fun a ha => ?_, ?_⟩
  · obtain ⟨r, hr, hlt, rfl⟩ := mem_shift.mp ha
    have := h.filled r hr
    dsimp only
    omega
  · refine List.Pairwise.filterMap _ ?_ (List.Pairwise.and_mem.mp h.apart)
    rintro a b ⟨-, hb, hab⟩ a' ha' b' hb'
    have := h.filled b hb
    dsimp only at ha' hb'
    split at ha'
    · cases ha'
    · split at hb'
      · cases hb'
      · cases ha'
        cases hb'
        dsimp only
        omega

end spans
