-- The first place a pattern stands in a list, as `windows(n).position(…)` finds it. A place
-- once found stays the first one whatever is appended, so a reader that cuts its input at a
-- pattern may cut as soon as the pattern is there.
import Mathlib

namespace search

variable {α : Type} [DecidableEq α]

/-- How many elements stand before the first occurrence of `pat`. -/
def position (pat : List α) : List α → Option Nat
  | [] => if pat = [] then some 0 else none
  | x :: xs => if pat <+: x :: xs then some 0 else (position pat xs).map (· + 1)

variable {pat xs ys : List α} {n : Nat}

theorem position_of_isPrefix (h : pat <+: xs) : position pat xs = some 0 := by
  cases xs with
  | nil => simp [position, List.prefix_nil.mp h]
  | cons x xs => simp [position, h]

theorem position_cons_of_not_isPrefix {x : α} (h : ¬ pat <+: x :: xs) :
    position pat (x :: xs) = (position pat xs).map (· + 1) := by
  simp [position, h]

/-- A place found leaves room for the pattern, and the pattern stands there. -/
theorem position_spec (h : position pat xs = some n) :
    n + pat.length ≤ xs.length ∧ xs = xs.take n ++ pat ++ xs.drop (n + pat.length) := by
  induction xs generalizing n with
  | nil =>
    by_cases hp : pat = []
    · simp [position, hp] at h
      simp [hp, ← h]
    · simp [position, hp] at h
  | cons x xs ih =>
    by_cases hp : pat <+: x :: xs
    · obtain rfl : 0 = n := by simpa [position, hp] using h
      obtain ⟨rest, hrest⟩ := hp
      have hlen : pat.length + rest.length = (x :: xs).length := by simp [← hrest]
      refine ⟨by omega, ?_⟩
      rw [← hrest]
      simp
    · rw [position_cons_of_not_isPrefix hp, Option.map_eq_some_iff] at h
      obtain ⟨m, hm, rfl⟩ := h
      obtain ⟨hle, heq⟩ := ih hm
      refine ⟨by simp; omega, ?_⟩
      rw [show m + 1 + pat.length = (m + pat.length) + 1 by omega]
      simpa using heq

theorem position_le (h : position pat xs = some n) : n + pat.length ≤ xs.length :=
  (position_spec h).1

/-- What is appended does not move the first place. -/
theorem position_append (h : position pat xs = some n) (ys : List α) :
    position pat (xs ++ ys) = some n := by
  induction xs generalizing n with
  | nil =>
    by_cases hp : pat = []
    · simp [position, hp] at h
      simpa [← h] using position_of_isPrefix (by simp [hp])
    · simp [position, hp] at h
  | cons x xs ih =>
    by_cases hp : pat <+: x :: xs
    · obtain rfl : 0 = n := by simpa [position, hp] using h
      exact position_of_isPrefix (hp.trans (List.prefix_append _ _))
    · rw [position_cons_of_not_isPrefix hp, Option.map_eq_some_iff] at h
      obtain ⟨m, hm, rfl⟩ := h
      have hp' : ¬ pat <+: x :: (xs ++ ys) := by
        intro hpre
        refine hp (List.prefix_of_prefix_length_le hpre (List.prefix_append (x :: xs) ys) ?_)
        have := position_le hm
        simp
        omega
      rw [List.cons_append, position_cons_of_not_isPrefix hp', ih hm]
      rfl

/-- The first place is also the first one of what reaches just past the pattern. -/
theorem position_take (h : position pat xs = some n) :
    position pat (xs.take (n + pat.length)) = some n := by
  induction xs generalizing n with
  | nil => simpa using h
  | cons x xs ih =>
    by_cases hp : pat <+: x :: xs
    · obtain rfl : 0 = n := by simpa [position, hp] using h
      refine position_of_isPrefix ?_
      rw [Nat.zero_add, List.prefix_take_iff]
      exact ⟨hp, le_refl _⟩
    · rw [position_cons_of_not_isPrefix hp, Option.map_eq_some_iff] at h
      obtain ⟨m, hm, rfl⟩ := h
      have htake : (x :: xs).take (m + 1 + pat.length) = x :: xs.take (m + pat.length) := by
        rw [show m + 1 + pat.length = (m + pat.length) + 1 by omega, List.take_succ_cons]
      have hp' : ¬ pat <+: x :: xs.take (m + pat.length) := by
        rw [← htake]
        exact fun hpre => hp (hpre.trans (List.take_prefix _ _))
      rw [htake, position_cons_of_not_isPrefix hp', ih hm]
      rfl

/-- Where the pattern stands, it is found, or it was found before. -/
theorem position_of_occurs (h : pat <+: xs.drop n) : ∃ k, k ≤ n ∧ position pat xs = some k := by
  induction n generalizing xs with
  | zero => exact ⟨0, le_refl _, position_of_isPrefix h⟩
  | succ n ih =>
    cases xs with
    | nil => exact ⟨0, by omega, position_of_isPrefix (by simpa using h)⟩
    | cons x xs =>
      by_cases hp : pat <+: x :: xs
      · exact ⟨0, by omega, position_of_isPrefix hp⟩
      · obtain ⟨k, hk, hpos⟩ := ih h
        exact ⟨k + 1, by omega, by rw [position_cons_of_not_isPrefix hp, hpos]; rfl⟩

/-- Before the first place the pattern does not stand. -/
theorem position_take_free (h : position pat xs = some n) (hne : pat ≠ []) :
    ¬ pat <:+: xs.take n := by
  rintro ⟨pre, post, heq⟩
  have hlen := congrArg List.length heq
  have hpos := List.length_pos_iff.mpr hne
  simp only [List.length_append, List.length_take] at hlen
  have hocc : pat <+: xs.drop pre.length := by
    rw [← List.take_append_drop n xs, ← heq]
    simp
  obtain ⟨k, hk, hfound⟩ := position_of_occurs hocc
  rw [h] at hfound
  cases hfound
  omega

/-- What is dropped in front of the first place leaves it the first one. -/
theorem position_drop {k : Nat} (h : position pat xs = some n) (hk : k ≤ n) :
    position pat (xs.drop k) = some (n - k) := by
  induction k generalizing xs n with
  | zero => exact h
  | succ k ih =>
    cases xs with
    | nil =>
      have hle := position_le h
      simp at hle
      omega
    | cons x xs =>
      by_cases hp : pat <+: x :: xs
      · rw [position_of_isPrefix hp] at h
        cases h
        omega
      · rw [position_cons_of_not_isPrefix hp, Option.map_eq_some_iff] at h
        obtain ⟨m, hm, rfl⟩ := h
        rw [List.drop_succ_cons, ih hm (by omega)]
        congr 1
        omega

theorem isPrefix_drop_of_position (h : position pat xs = some n) : pat <+: xs.drop n := by
  obtain ⟨hle, heq⟩ := position_spec h
  have hlen : (xs.take n).length = n := by simp; omega
  have hdrop := congrArg (List.drop n) heq
  rw [List.append_assoc, List.drop_append_of_le_length hlen.ge,
    List.drop_eq_nil_of_le hlen.le, List.nil_append] at hdrop
  exact ⟨xs.drop (n + pat.length), hdrop.symm⟩

/-- Places where the pattern does not stand may be skipped. -/
theorem position_skip {k : Nat} (hk : k ≤ xs.length) (h : ∀ i < k, ¬ pat <+: xs.drop i) :
    position pat xs = (position pat (xs.drop k)).map (· + k) := by
  induction k generalizing xs with
  | zero => simp
  | succ k ih =>
    cases xs with
    | nil => simp at hk
    | cons x xs =>
      have hx : ¬ pat <+: x :: xs := h 0 (by omega)
      rw [position_cons_of_not_isPrefix hx, List.drop_succ_cons,
        ih (by simpa using hk) fun i hi => by simpa using h (i + 1) (by omega)]
      simp only [Option.map_map]
      congr 1

omit [DecidableEq α] in
/-- A pattern does not reach over an element that it does not have. -/
theorem infix_of_separated {x : α} (hx : x ∉ pat) (h : pat <:+: xs ++ x :: ys) :
    pat <:+: xs ∨ pat <:+: ys := by
  obtain ⟨pre, post, heq⟩ := h
  rcases List.append_eq_append_iff.mp heq with ⟨mid, hxs, -⟩ | ⟨mid, hpre, hys⟩
  · exact .inl ⟨pre, mid, hxs.symm⟩
  · cases mid with
    | nil => exact .inl ⟨pre, [], by simpa using hpre⟩
    | cons y mid =>
      obtain ⟨rfl, rfl⟩ := List.cons.inj hys
      rcases List.append_eq_append_iff.mp hpre with ⟨a, -, hpat⟩ | ⟨a, -, hmid⟩
      · exact absurd (by simp [hpat]) hx
      · cases a with
        | nil => exact absurd (by simp [show pat = x :: mid by simpa using hmid.symm]) hx
        | cons z a =>
          obtain ⟨-, rfl⟩ := List.cons.inj hmid
          exact .inr ⟨a, post, rfl⟩

/-- Nothing before the pattern that starts as the pattern does: the pattern is found there. -/
theorem position_of_free {a : α} (h : a ∉ xs) :
    position (a :: pat) (xs ++ a :: pat ++ ys) = some xs.length := by
  induction xs with
  | nil => exact position_of_isPrefix (by simp)
  | cons x xs ih =>
    have hp : ¬ a :: pat <+: x :: (xs ++ a :: pat ++ ys) := by
      intro hpre
      exact h (by simp [(List.cons_prefix_cons.mp hpre).1])
    rw [List.cons_append, List.cons_append, position_cons_of_not_isPrefix hp,
      ih fun hx => h (List.mem_cons_of_mem x hx)]
    rfl

end search
