-- Sets of numbers kept as ranges: ascending inclusive ranges with a number missing between
-- any two of them, and how ranges in descending order are told by the gaps between them.
import Mathlib

namespace ranges

/-- An inclusive range. -/
abbrev Range := Nat × Nat

/-- A number is in one of the ranges. -/
def Covers (l : List Range) (n : Nat) : Prop := ∃ r ∈ l, r.1 ≤ n ∧ n ≤ r.2

instance (l : List Range) (n : Nat) : Decidable (Covers l n) :=
  inferInstanceAs (Decidable (∃ r ∈ l, r.1 ≤ n ∧ n ≤ r.2))

@[simp] theorem not_covers_nil (n : Nat) : ¬Covers [] n := by simp [Covers]

@[simp] theorem covers_cons (r : Range) (l : List Range) (n : Nat) :
    Covers (r :: l) n ↔ (r.1 ≤ n ∧ n ≤ r.2) ∨ Covers l n := by
  simp [Covers]

@[simp] theorem covers_append (l l' : List Range) (n : Nat) :
    Covers (l ++ l') n ↔ Covers l n ∨ Covers l' n := by
  simp only [Covers, List.mem_append]
  constructor
  · rintro ⟨r, hr | hr, hn⟩
    · exact .inl ⟨r, hr, hn⟩
    · exact .inr ⟨r, hr, hn⟩
  · rintro (⟨r, hr, hn⟩ | ⟨r, hr, hn⟩)
    · exact ⟨r, .inl hr, hn⟩
    · exact ⟨r, .inr hr, hn⟩

/-- A number is missing between the end of `a` and the start of `b`. -/
def Before (a b : Range) : Prop := a.2 + 1 < b.1

/-- Ascending ranges that neither overlap nor touch. -/
structure Separated (l : List Range) : Prop where
  ordered : ∀ r ∈ l, r.1 ≤ r.2
  apart : l.Pairwise Before

variable {l l' : List Range} {r : Range}

theorem separated_nil : Separated [] := ⟨nofun, .nil⟩

theorem separated_cons :
    Separated (r :: l) ↔ r.1 ≤ r.2 ∧ (∀ a ∈ l, Before r a) ∧ Separated l := by
  constructor
  · rintro ⟨hord, hap⟩
    obtain ⟨hbefore, hrest⟩ := List.pairwise_cons.mp hap
    exact ⟨hord r List.mem_cons_self, hbefore,
      fun a ha => hord a (List.mem_cons_of_mem r ha), hrest⟩
  · rintro ⟨hr, hbefore, hord, hap⟩
    refine ⟨fun a ha => ?_, List.pairwise_cons.mpr ⟨hbefore, hap⟩⟩
    rcases List.mem_cons.mp ha with rfl | ha
    · exact hr
    · exact hord a ha

theorem Separated.sublist (h : Separated l) (hs : l'.Sublist l) : Separated l' :=
  ⟨fun r hr => h.ordered r (hs.subset hr), h.apart.sublist hs⟩

/-- Two entries of separated ranges are the same one, or one is before the other. -/
theorem Separated.trichotomy (h : Separated l) {i j : Nat} (hi : i < l.length) (hj : j < l.length)
    (hij : i ≠ j) : Before l[i] l[j] ∨ Before l[j] l[i] := by
  rcases Nat.lt_or_gt_of_ne hij with hlt | hgt
  · exact .inl (List.pairwise_iff_getElem.mp h.apart i j hi hj hlt)
  · exact .inr (List.pairwise_iff_getElem.mp h.apart j i hj hi hgt)

/-- The last of separated ranges ends with the largest number there is. -/
theorem Separated.last (h : Separated l) (hlast : l.getLast? = some r) :
    Covers l r.2 ∧ ∀ n, Covers l n → n ≤ r.2 := by
  obtain ⟨init, rfl⟩ := List.getLast?_eq_some_iff.mp hlast
  have hr := h.ordered r (by simp)
  refine ⟨(covers_append _ _ _).mpr (.inr ⟨r, by simp, hr, Nat.le_refl _⟩), ?_⟩
  rintro n ⟨a, ha, hn⟩
  rcases List.mem_append.mp ha with ha | ha
  · have hbefore := (List.pairwise_append.mp h.apart).2.2 a ha r (by simp)
    simp only [Before] at hbefore
    omega
  · cases List.mem_singleton.mp ha
    exact hn.2

/-- Changing one range changes what is covered there. -/
theorem covers_modify {i : Nat} {f : Range → Range} (hi : l[i]? = some r) (n : Nat) :
    Covers (l.modify i f) n ↔
      Covers (l.eraseIdx i) n ∨ (f r).1 ≤ n ∧ n ≤ (f r).2 := by
  obtain ⟨hlt, rfl⟩ := List.getElem?_eq_some_iff.mp hi
  rw [List.modify_eq_take_cons_drop hlt, List.eraseIdx_eq_take_drop_succ]
  simp only [covers_append, covers_cons]
  tauto

/-- Taking a range away takes away what only it covers. -/
theorem covers_eraseIdx {i : Nat} (hi : l[i]? = some r) (n : Nat) :
    Covers l n ↔ Covers (l.eraseIdx i) n ∨ r.1 ≤ n ∧ n ≤ r.2 := by
  have hself := @covers_modify l r i id hi n
  rwa [List.modify_id] at hself

/-- Changing one range keeps the ranges separated when the new one is from all others. -/
theorem Separated.modify (h : Separated l) {i : Nat} {f : Range → Range}
    (hord : ∀ r, l[i]? = some r → (f r).1 ≤ (f r).2)
    (hlow : ∀ r a, l[i]? = some r → a ∈ l → Before a r → Before a (f r))
    (hhigh : ∀ r b, l[i]? = some r → b ∈ l → Before r b → Before (f r) b) :
    Separated (l.modify i f) := by
  induction l generalizing i with
  | nil => simpa using h
  | cons a l ih =>
    obtain ⟨ha, hbefore, hrest⟩ := separated_cons.mp h
    cases i with
    | zero =>
      rw [List.modify_zero_cons]
      refine separated_cons.mpr ⟨hord a rfl, fun b hb => ?_, hrest⟩
      exact hhigh a b rfl (List.mem_cons_of_mem a hb) (hbefore b hb)
    | succ i =>
      rw [List.modify_succ_cons]
      refine separated_cons.mpr ⟨ha, fun b hb => ?_, ih hrest hord ?_ ?_⟩
      · obtain ⟨j, hj⟩ := List.mem_iff_getElem?.mp hb
        rw [List.getElem?_modify] at hj
        obtain ⟨c, hc, hcb⟩ := Option.map_eq_some_iff.mp hj
        have hac := hbefore c (List.mem_of_getElem? hc)
        by_cases hij : i = j
        · subst hij
          rw [if_pos rfl] at hcb
          exact hcb ▸ hlow c a hc List.mem_cons_self hac
        · rw [if_neg hij] at hcb
          exact hcb ▸ hac
      · exact fun r b hr hb => hlow r b hr (List.mem_cons_of_mem a hb)
      · exact fun r b hr hb => hhigh r b hr (List.mem_cons_of_mem a hb)

/-! ## Gaps -/

/-- What tells the ranges of a descending list that are all below `smallest`: the numbers
missing above each, less one, and its length, less one. -/
def gaps : Nat → List Range → List (Nat × Nat)
  | _, [] => []
  | smallest, (s, e) :: rest => (smallest - e - 2, e - s) :: gaps s rest

/-- Descending ranges below `smallest` that neither overlap nor touch. -/
def Descends : Nat → List Range → Prop
  | _, [] => True
  | smallest, (s, e) :: rest => e + 1 < smallest ∧ s ≤ e ∧ Descends s rest

/-- Separated ranges descend from their highest one. -/
theorem Separated.descends (h : Separated l) {rest : List Range}
    (hl : l.reverse = r :: rest) : Descends r.1 rest := by
  have hpair : (r :: rest).Pairwise fun a b => Before b a := hl ▸ List.pairwise_reverse.mpr h.apart
  have hord : ∀ a ∈ r :: rest, a.1 ≤ a.2 := fun a ha =>
    h.ordered a (List.mem_reverse.mp (hl ▸ ha))
  clear hl
  induction rest generalizing r with
  | nil => trivial
  | cons a rest ih =>
    obtain ⟨s, e⟩ := a
    obtain ⟨hbelow, hrest⟩ := List.pairwise_cons.mp hpair
    exact ⟨hbelow (s, e) List.mem_cons_self, hord (s, e) (by simp),
      ih hrest fun a ha => hord a (List.mem_cons_of_mem r ha)⟩

theorem Descends.lt {smallest : Nat} (h : Descends smallest l) : ∀ r ∈ l, r.2 < smallest := by
  induction l generalizing smallest with
  | nil => nofun
  | cons a l ih =>
    obtain ⟨he, hs, hrest⟩ := h
    intro r hr
    rcases List.mem_cons.mp hr with rfl | hr
    · exact Nat.lt_of_succ_lt he
    · have := ih hrest r hr
      omega

theorem gaps_take (smallest : Nat) (l : List Range) (k : Nat) :
    (gaps smallest l).take k = gaps smallest (l.take k) := by
  induction l generalizing smallest k with
  | nil => simp [gaps]
  | cons r l ih =>
    cases k with
    | zero => simp [gaps]
    | succ k => simp [gaps, ih]

theorem Descends.take {smallest : Nat} (h : Descends smallest l) (k : Nat) :
    Descends smallest (l.take k) := by
  induction l generalizing smallest k with
  | nil => simpa using h
  | cons r l ih =>
    cases k with
    | zero => trivial
    | succ k => exact ⟨h.1, h.2.1, ih h.2.2 k⟩

/-- What tells the ranges is below `smallest`. -/
theorem gaps_lt {smallest : Nat} (h : Descends smallest l) :
    ∀ p ∈ gaps smallest l, p.1 < smallest ∧ p.2 < smallest := by
  induction l generalizing smallest with
  | nil => nofun
  | cons r l ih =>
    obtain ⟨he, hs, hrest⟩ := h
    intro p hp
    rcases List.mem_cons.mp hp with rfl | hp
    · dsimp only
      omega
    · have := ih hrest p hp
      omega

end ranges
