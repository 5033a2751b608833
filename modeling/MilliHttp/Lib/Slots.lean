-- Tables of optional entries searched front to back by a key: what a lookup, an update
-- of the entry found and an insertion into the first free slot do to the entries and to
-- a sum over them.
import Mathlib

namespace slots

variable {α : Type} (key : α → Nat)

/-- The first entry with the key. -/
def lookup (k : Nat) : List (Option α) → Option α
  | [] => none
  | none :: rest => lookup k rest
  | some a :: rest => if key a = k then some a else lookup k rest

/-- Rewrites the first entry with the key, or clears its slot. -/
def update (k : Nat) (f : α → Option α) : List (Option α) → List (Option α)
  | [] => []
  | none :: rest => none :: update k f rest
  | some a :: rest => if key a = k then f a :: rest else some a :: update k f rest

/-- Puts an entry into the first free slot of a table that may grow to `cap` slots. -/
def insert (cap : Nat) (a : α) : List (Option α) → Option (List (Option α))
  | [] => if 0 < cap then some [some a] else none
  | none :: rest => some (some a :: rest)
  | some b :: rest => (insert (cap - 1) a rest).map (some b :: ·)

/-- Whether a table that may grow to `cap` slots has a free one. -/
def hasFree (cap : Nat) : List (Option α) → Bool
  | [] => 0 < cap
  | none :: _ => true
  | some _ :: rest => hasFree (cap - 1) rest

/-- The sum of `g` over the entries. -/
def total (g : α → Nat) (t : List (Option α)) : Nat := (t.map fun s => (s.map g).getD 0).sum

/-- No two entries share a key. -/
def Distinct (t : List (Option α)) : Prop := (t.filterMap (·.map key)).Nodup

/-! ## Lookups -/

variable {key} {k j : Nat} {f : α → Option α} {t t' : List (Option α)} {a b : α} {cap : Nat}

theorem lookup_key (h : lookup key k t = some a) : key a = k := by
  induction t with
  | nil => cases h
  | cons s rest ih =>
    cases s with
    | none => exact ih h
    | some b =>
      by_cases hb : key b = k
      · simp only [lookup, if_pos hb, Option.some.injEq] at h
        exact h ▸ hb
      · simp only [lookup, if_neg hb] at h
        exact ih h

theorem lookup_mem (h : lookup key k t = some a) : some a ∈ t := by
  induction t with
  | nil => cases h
  | cons s rest ih =>
    cases s with
    | none => exact List.mem_cons_of_mem _ (ih h)
    | some b =>
      by_cases hb : key b = k
      · simp only [lookup, if_pos hb, Option.some.injEq] at h
        exact h ▸ List.mem_cons_self
      · simp only [lookup, if_neg hb] at h
        exact List.mem_cons_of_mem _ (ih h)

theorem lookup_none (h : lookup key k t = none) (ha : some a ∈ t) : key a ≠ k := by
  induction t with
  | nil => cases ha
  | cons s rest ih =>
    cases s with
    | none =>
      rcases List.mem_cons.mp ha with hs | hs
      · cases hs
      · exact ih h hs
    | some b =>
      by_cases hb : key b = k
      · simp [lookup, hb] at h
      · simp only [lookup, if_neg hb] at h
        rcases List.mem_cons.mp ha with hs | hs
        · rw [Option.some.injEq] at hs
          exact hs ▸ hb
        · exact ih h hs

theorem lookup_update_ne (hj : j ≠ k) (hf : ∀ a b, key a = k → f a = some b → key b = k) :
    lookup key j (update key k f t) = lookup key j t := by
  induction t with
  | nil => rfl
  | cons s rest ih =>
    cases s with
    | none => exact ih
    | some a =>
      by_cases ha : key a = k
      · have haj : key a ≠ j := fun h => hj (h.symm.trans ha)
        simp only [update, if_pos ha, lookup, if_neg haj]
        cases hfa : f a with
        | none => rfl
        | some b =>
          have hbj : key b ≠ j := fun h => hj (h.symm.trans (hf a b ha hfa))
          simp only [lookup, if_neg hbj]
      · simp only [update, if_neg ha, lookup, ih]

theorem lookup_update_self (h : lookup key k t = some a) (hf : f a = some b) (hb : key b = k) :
    lookup key k (update key k f t) = some b := by
  induction t with
  | nil => cases h
  | cons s rest ih =>
    cases s with
    | none => exact ih h
    | some c =>
      by_cases hc : key c = k
      · simp only [lookup, if_pos hc, Option.some.injEq] at h
        subst h
        simp only [update, if_pos hc, hf, lookup, if_pos hb]
      · simp only [lookup, if_neg hc] at h
        simp only [update, if_neg hc, lookup, ih h]

theorem update_self (h : lookup key k t = some a) (hf : f a = some a) : update key k f t = t := by
  induction t with
  | nil => rfl
  | cons s rest ih =>
    cases s with
    | none => simp only [update, ih h]
    | some c =>
      by_cases hc : key c = k
      · simp only [lookup, if_pos hc, Option.some.injEq] at h
        subst h
        simp only [update, if_pos hc, hf]
      · simp only [lookup, if_neg hc] at h
        simp only [update, if_neg hc, ih h]

/-- Whether an entry finds a slot does not depend on the entry. -/
theorem insert_isSome (cap : Nat) (a : α) (t : List (Option α)) :
    (insert cap a t).isSome = hasFree cap t := by
  induction t generalizing cap with
  | nil =>
    simp only [insert, hasFree]
    split <;> simp_all
  | cons s rest ih =>
    cases s with
    | none => rfl
    | some b => simp only [insert, hasFree, Option.isSome_map, ih]

theorem lookup_update_none (h : lookup key k t = some a) (hf : f a = none)
    (hd : Distinct key t) : lookup key k (update key k f t) = none := by
  induction t with
  | nil => cases h
  | cons s rest ih =>
    cases s with
    | none => exact ih h hd
    | some c =>
      simp only [Distinct, List.filterMap_cons, Option.map_some, List.nodup_cons] at hd
      by_cases hc : key c = k
      · simp only [lookup, if_pos hc, Option.some.injEq] at h
        subst h
        simp only [update, if_pos hc, hf, lookup]
        -- No second entry has the key.
        cases hrest : lookup key k rest with
        | none => rfl
        | some b =>
          refine absurd ?_ hd.1
          exact List.mem_filterMap.mpr ⟨some b, lookup_mem hrest, by simp [lookup_key hrest, hc]⟩
      · simp only [lookup, if_neg hc] at h
        simp only [update, if_neg hc, lookup, ih h hd.2]

theorem lookup_insert_self (h : insert cap a t = some t') (hn : lookup key (key a) t = none) :
    lookup key (key a) t' = some a := by
  induction t generalizing cap t' with
  | nil =>
    simp only [insert] at h
    split at h
    · cases h
      simp [lookup]
    · cases h
  | cons s rest ih =>
    cases s with
    | none =>
      cases h
      simp [lookup]
    | some b =>
      simp only [insert, Option.map_eq_some_iff] at h
      obtain ⟨r, hr, rfl⟩ := h
      by_cases hb : key b = key a
      · simp [lookup, hb] at hn
      · simp only [lookup, if_neg hb] at hn ⊢
        exact ih hr hn

theorem lookup_insert_ne (h : insert cap a t = some t') (hk : k ≠ key a) :
    lookup key k t' = lookup key k t := by
  induction t generalizing cap t' with
  | nil =>
    simp only [insert] at h
    split at h
    · cases h
      simp [lookup, Ne.symm hk]
    · cases h
  | cons s rest ih =>
    cases s with
    | none =>
      cases h
      simp [lookup, Ne.symm hk]
    | some b =>
      simp only [insert, Option.map_eq_some_iff] at h
      obtain ⟨r, hr, rfl⟩ := h
      simp only [lookup, ih hr]

/-! ## Distinct keys -/

/-- An update that keeps the key of its entry leaves the keys distinct. -/
theorem Distinct.update (hd : Distinct key t)
    (hf : ∀ a b, key a = k → f a = some b → key b = k) : Distinct key (update key k f t) := by
  have hsub : ((slots.update key k f t).filterMap (·.map key)).Sublist (t.filterMap (·.map key)) := by
    clear hd
    induction t with
    | nil => exact List.Sublist.refl _
    | cons s rest ih =>
      cases s with
      | none => exact ih
      | some a =>
        by_cases ha : key a = k
        · simp only [slots.update, if_pos ha]
          cases hfa : f a with
          | none => exact List.sublist_cons_self _ _
          | some b => simp [hf a b ha hfa, ha]
        · simp only [slots.update, if_neg ha, List.filterMap_cons, Option.map_some]
          exact ih.cons_cons _
  exact hsub.nodup hd

/-- An entry with a new key leaves the keys distinct. -/
theorem Distinct.insert (hd : Distinct key t) (h : insert cap a t = some t')
    (hn : lookup key (key a) t = none) : Distinct key t' := by
  have hperm : (t'.filterMap (·.map key)).Perm (key a :: t.filterMap (·.map key)) := by
    clear hd hn
    induction t generalizing cap t' with
    | nil =>
      simp only [slots.insert] at h
      split at h
      · cases h
        exact List.Perm.refl _
      · cases h
    | cons s rest ih =>
      cases s with
      | none =>
        cases h
        exact List.Perm.refl _
      | some b =>
        simp only [slots.insert, Option.map_eq_some_iff] at h
        obtain ⟨r, hr, rfl⟩ := h
        simp only [List.filterMap_cons, Option.map_some]
        exact ((ih hr).cons _).trans (List.Perm.swap _ _ _)
  refine hperm.nodup_iff.mpr (List.nodup_cons.mpr ⟨fun hmem => ?_, hd⟩)
  obtain ⟨slot, hslot, hkey⟩ := List.mem_filterMap.mp hmem
  obtain ⟨b, rfl, hb⟩ := Option.map_eq_some_iff.mp hkey
  exact lookup_none hn hslot hb

/-! ## Sums -/

section Total

variable {g : α → Nat}

@[simp] theorem total_nil : total g [] = 0 := rfl

@[simp] theorem total_cons_none : total g (none :: t) = total g t := by simp [total]

@[simp] theorem total_cons_some : total g (some a :: t) = g a + total g t := by simp [total]

theorem total_insert (h : insert cap a t = some t') : total g t' = g a + total g t := by
  induction t generalizing cap t' with
  | nil =>
    simp only [insert] at h
    split at h
    · cases h
      simp
    · cases h
  | cons s rest ih =>
    cases s with
    | none =>
      cases h
      simp
    | some b =>
      simp only [insert, Option.map_eq_some_iff] at h
      obtain ⟨r, hr, rfl⟩ := h
      simp only [total_cons_some, ih hr]
      omega

/-- Rewriting one entry moves the sum by what the entry's own term moves. -/
theorem total_update (h : lookup key k t = some a) (hf : f a = some b) :
    total g (update key k f t) + g a = total g t + g b := by
  induction t with
  | nil => cases h
  | cons s rest ih =>
    cases s with
    | none =>
      simp only [update, total_cons_none]
      exact ih h
    | some c =>
      by_cases hc : key c = k
      · simp only [lookup, if_pos hc, Option.some.injEq] at h
        subst h
        simp only [update, if_pos hc, hf, total_cons_some]
        omega
      · simp only [lookup, if_neg hc] at h
        have hrest := ih h
        simp only [update, if_neg hc, total_cons_some]
        omega

end Total

/-! ## Entries and their slots -/

/-- Every entry keeps its slot, and what is there later is related to it. -/
def Carried (R : α → α → Prop) (t t' : List (Option α)) : Prop :=
  ∀ (i : Nat) (a : α), t[i]? = some (some a) → ∃ b, t'[i]? = some (some b) ∧ R a b

section Carried

variable {R : α → α → Prop} [IsPreorder α R]

instance : IsPreorder (List (Option α)) (Carried R) where
  refl _ _ a ha := ⟨a, ha, refl a⟩
  trans _ _ _ h₁₂ h₂₃ i a ha := by
    obtain ⟨b, hb, hab⟩ := h₁₂ i a ha
    obtain ⟨c, hc, hbc⟩ := h₂₃ i b hb
    exact ⟨c, hc, IsTrans.trans _ _ _ hab hbc⟩

theorem carried_cons {s : Option α} (h : Carried R t t') : Carried R (s :: t) (s :: t') := by
  rintro (_ | i) a ha
  · exact ⟨a, ha, refl a⟩
  · exact h i a ha

theorem carried_insert (h : insert cap a t = some t') : Carried R t t' := by
  induction t generalizing cap t' with
  | nil =>
    intro i b hb
    simp at hb
  | cons s rest ih =>
    cases s with
    | none =>
      cases h
      rintro (_ | i) b hb
      · cases hb
      · exact ⟨b, hb, refl b⟩
    | some c =>
      simp only [insert, Option.map_eq_some_iff] at h
      obtain ⟨r, hr, rfl⟩ := h
      exact carried_cons (ih hr)

theorem carried_update (h : lookup key k t = some a) (hf : f a = some b) (hab : R a b) :
    Carried R t (update key k f t) := by
  induction t with
  | nil => cases h
  | cons s rest ih =>
    cases s with
    | none => exact carried_cons (ih h)
    | some c =>
      by_cases hc : key c = k
      · simp only [lookup, if_pos hc, Option.some.injEq] at h
        subst h
        simp only [update, if_pos hc, hf]
        rintro (_ | i) d hd
        · cases hd
          exact ⟨b, rfl, hab⟩
        · exact ⟨d, hd, refl d⟩
      · simp only [lookup, if_neg hc] at h
        simp only [update, if_neg hc]
        exact carried_cons (ih h)

end Carried

theorem mem_insert (h : insert cap a t = some t') (hb : some b ∈ t') : b = a ∨ some b ∈ t := by
  induction t generalizing cap t' with
  | nil =>
    simp only [insert] at h
    split at h
    · cases h
      exact .inl (by simpa using hb)
    · cases h
  | cons s rest ih =>
    cases s with
    | none =>
      cases h
      simpa using hb
    | some c =>
      simp only [insert, Option.map_eq_some_iff] at h
      obtain ⟨r, hr, rfl⟩ := h
      rcases List.mem_cons.mp hb with hbc | hbr
      · exact .inr (hbc ▸ List.mem_cons_self)
      · exact (ih hr hbr).imp_right (List.mem_cons_of_mem _)

/-- An entry after an update is a former one, or what the entry found became. -/
theorem mem_update (h : lookup key k t = some a) (hb : some b ∈ update key k f t) :
    f a = some b ∨ some b ∈ t := by
  induction t with
  | nil => cases h
  | cons s rest ih =>
    cases s with
    | none =>
      simp only [update, List.mem_cons, reduceCtorEq, false_or] at hb ⊢
      exact ih h hb
    | some c =>
      by_cases hc : key c = k
      · simp only [lookup, if_pos hc, Option.some.injEq] at h
        subst h
        simp only [update, if_pos hc] at hb
        rcases List.mem_cons.mp hb with hbf | hbr
        · exact .inl hbf.symm
        · exact .inr (List.mem_cons_of_mem _ hbr)
      · simp only [lookup, if_neg hc] at h
        simp only [update, if_neg hc] at hb
        rcases List.mem_cons.mp hb with hbc | hbr
        · exact .inr (hbc ▸ List.mem_cons_self)
        · exact (ih h hbr).imp_right (List.mem_cons_of_mem _)

end slots
