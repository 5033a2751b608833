-- Lists of entries found by a key: what rewriting the first entry of a key does to lookups, to
-- the projections of the entries, and to a sum over them.
import Mathlib

namespace keyed

variable {α : Type} (key : α → Nat)

/-- The first entry of a key. -/
def find (k : Nat) (l : List α) : Option α := l.find? (key · == k)

/-- Rewrites the first entry of a key. -/
def modify (k : Nat) (f : α → α) : List α → List α
  | [] => []
  | a :: rest => if key a = k then f a :: rest else a :: modify k f rest

variable {key} {k j : Nat} {f g : α → α} {l : List α} {a : α}

/-! ## Lookups -/

@[simp] theorem find_nil : find key k [] = none := rfl

theorem find_cons : find key k (a :: l) = if key a = k then some a else find key k l := by
  unfold find
  rw [List.find?_cons]
  by_cases h : key a = k
  · simp [h]
  · simp [h, beq_eq_false_iff_ne.mpr h]

theorem find_mem (h : find key k l = some a) : a ∈ l := List.mem_of_find?_eq_some h

theorem find_key (h : find key k l = some a) : key a = k := by
  simpa using List.find?_some h

theorem find_eq_none : find key k l = none ↔ ∀ a ∈ l, key a ≠ k := by
  simp [find]

theorem find_isSome : (find key k l).isSome = true ↔ k ∈ l.map key := by
  simp [find]

theorem any_key (key : α → Nat) : (l.any (key · == k)) = (find key k l).isSome := by
  rw [find, List.isSome_find?]

theorem find_append : find key k (l ++ [a]) = (find key k l).or (if key a = k then some a else none) := by
  unfold find
  rw [List.find?_append, List.find?_singleton]
  by_cases h : key a = k <;> simp [h]

/-- What a lookup finds of an entry can be read off the keys and those parts. -/
theorem find_map_congr {β : Type} {part : α → β} {l' : List α}
    (h : l'.map (fun a => (key a, part a)) = l.map fun a => (key a, part a)) :
    (find key k l').map part = (find key k l).map part := by
  induction l generalizing l' with
  | nil => rw [List.map_eq_nil_iff.mp h]
  | cons a rest ih =>
    rcases l' with _ | ⟨a', rest'⟩
    · cases h
    · obtain ⟨hhead, hrest⟩ := List.cons.inj h
      obtain ⟨hkey, hpart⟩ := Prod.mk.inj hhead
      rw [find_cons, find_cons, hkey]
      split
      · rw [Option.map_some, Option.map_some, hpart]
      · exact ih hrest

/-! ## Rewriting an entry -/

@[simp] theorem modify_nil : modify key k f [] = [] := rfl

theorem modify_cons :
    modify key k f (a :: l) = if key a = k then f a :: l else a :: modify key k f l := rfl

theorem modify_of_none (h : find key k l = none) : modify key k f l = l := by
  induction l with
  | nil => rfl
  | cons b rest ih =>
    rw [find_cons] at h
    by_cases hb : key b = k
    · rw [if_pos hb] at h
      cases h
    · rw [if_neg hb] at h
      rw [modify_cons, if_neg hb, ih h]

theorem modify_id (k : Nat) : modify key k id l = l := by
  induction l with
  | nil => rfl
  | cons b rest ih =>
    rw [modify_cons, ih]
    split <;> rfl

theorem find_modify_ne (hj : j ≠ k) (hf : ∀ a, key (f a) = key a) :
    find key j (modify key k f l) = find key j l := by
  induction l with
  | nil => rfl
  | cons b rest ih =>
    by_cases hb : key b = k
    · have hbj : key b ≠ j := fun h => hj (h.symm.trans hb)
      rw [modify_cons, if_pos hb, find_cons, find_cons, hf, if_neg hbj, if_neg hbj]
    · rw [modify_cons, if_neg hb, find_cons, find_cons, ih]

theorem find_modify_self (hf : ∀ a, key (f a) = key a) :
    find key k (modify key k f l) = (find key k l).map f := by
  induction l with
  | nil => rfl
  | cons b rest ih =>
    by_cases hb : key b = k
    · rw [modify_cons, if_pos hb, find_cons, find_cons, hf, if_pos hb, if_pos hb]
      rfl
    · rw [modify_cons, if_neg hb, find_cons, find_cons, if_neg hb, if_neg hb, ih]

/-- What is projected out of an entry and not rewritten stays. -/
theorem map_modify {β : Type} {part : α → β} (h : ∀ a, part (f a) = part a) :
    (modify key k f l).map part = l.map part := by
  induction l with
  | nil => rfl
  | cons b rest ih =>
    rw [modify_cons]
    split
    · simp [h]
    · simp [ih]

/-- The entries of other keys stay as they are. -/
theorem filter_modify (hf : ∀ a, key (f a) = key a) :
    (modify key k f l).filter (key · != k) = l.filter (key · != k) := by
  induction l with
  | nil => rfl
  | cons b rest ih =>
    rw [modify_cons]
    by_cases hb : key b = k
    · simp [hb, hf]
    · simp [hb, ih]

/-- The entries of one key are left alone when those of another are rewritten. -/
theorem filter_modify_ne (hj : j ≠ k) (hf : ∀ a, key (f a) = key a) :
    (modify key k f l).filter (key · == j) = l.filter (key · == j) := by
  have hkj : k ≠ j := fun h => hj h.symm
  induction l with
  | nil => rfl
  | cons b rest ih =>
    rw [modify_cons]
    by_cases hb : key b = k
    · simp [hb, hf, hkj]
    · simp [hb, ih, List.filter_cons]

/-- Of the entries of its key the first is rewritten. -/
theorem filter_modify_self (hf : ∀ a, key (f a) = key a) :
    (modify key k f l).filter (key · == k) = (l.filter (key · == k)).modifyHead f := by
  induction l with
  | nil => rfl
  | cons b rest ih =>
    rw [modify_cons]
    by_cases hb : key b = k
    · simp [hb, hf]
    · simp [hb, ih]

/-- A fact about every entry stays when the entry found keeps it. -/
theorem forall_modify {P : α → Prop} (h : ∀ a ∈ l, P a) (hf : ∀ a, find key k l = some a → P (f a)) :
    ∀ a ∈ modify key k f l, P a := by
  induction l with
  | nil => exact h
  | cons b rest ih =>
    obtain ⟨hb, hrest⟩ := List.forall_mem_cons.mp h
    simp only [find_cons] at hf
    rw [modify_cons]
    by_cases hk : key b = k
    · rw [if_pos hk]
      simp only [if_pos hk, Option.some.injEq] at hf
      exact List.forall_mem_cons.mpr ⟨hf b rfl, hrest⟩
    · rw [if_neg hk]
      simp only [if_neg hk] at hf
      exact List.forall_mem_cons.mpr ⟨hb, ih hrest hf⟩

/-- Of distinct keys, an entry was there before under another key, or it is the one rewritten. -/
theorem mem_modify {b : α} (hd : (l.map key).Nodup) (h : b ∈ modify key k f l) :
    (b ∈ l ∧ key b ≠ k) ∨ ∃ a, find key k l = some a ∧ b = f a := by
  induction l with
  | nil => cases h
  | cons a rest ih =>
    rw [List.map_cons, List.nodup_cons] at hd
    rw [modify_cons] at h
    rw [find_cons]
    by_cases ha : key a = k
    · rw [if_pos ha] at h ⊢
      rcases List.mem_cons.mp h with rfl | h
      · exact .inr ⟨a, rfl, rfl⟩
      · refine .inl ⟨List.mem_cons_of_mem _ h, fun hb => hd.1 ?_⟩
        rw [ha, ← hb]
        exact List.mem_map_of_mem h
    · rw [if_neg ha] at h ⊢
      rcases List.mem_cons.mp h with rfl | h
      · exact .inl ⟨List.mem_cons_self, ha⟩
      · rcases ih hd.2 h with ⟨hb, hne⟩ | hfound
        · exact .inl ⟨List.mem_cons_of_mem _ hb, hne⟩
        · exact .inr hfound

/-- Rewriting an entry moves a sum by what its own term moves. -/
theorem sum_modify {n : α → Nat} (h : find key k l = some a) :
    ((modify key k f l).map n).sum + n a = (l.map n).sum + n (f a) := by
  induction l with
  | nil => cases h
  | cons b rest ih =>
    rw [find_cons] at h
    rw [modify_cons]
    by_cases hb : key b = k
    · rw [if_pos hb] at h
      cases h
      rw [if_pos hb]
      simp only [List.map_cons, List.sum_cons]
      omega
    · rw [if_neg hb] at h
      have hrest := ih h
      rw [if_neg hb]
      simp only [List.map_cons, List.sum_cons]
      omega

section FlatMap

variable {β : Type} {g : α → List β}

/-- Rewriting an entry changes what the entries stand for by what that one stands for. -/
theorem perm_flatMap_modify (h : find key k l = some a) :
    (g (f a) ++ l.flatMap g).Perm (g a ++ (modify key k f l).flatMap g) := by
  induction l with
  | nil => cases h
  | cons b rest ih =>
    rw [find_cons] at h
    rw [modify_cons]
    by_cases hb : key b = k
    · rw [if_pos hb] at h
      cases h
      rw [if_pos hb, List.flatMap_cons, List.flatMap_cons, ← List.append_assoc, ← List.append_assoc]
      exact List.perm_append_comm.append_right _
    · rw [if_neg hb] at h
      rw [if_neg hb, List.flatMap_cons, List.flatMap_cons]
      refine (List.perm_append_comm_assoc _ _ _).trans ?_
      exact ((ih h).append_left (g b)).trans (List.perm_append_comm_assoc _ _ _)

theorem sublist_flatMap_modify (h : ∀ a, find key k l = some a → (g (f a)).Sublist (g a)) :
    ((modify key k f l).flatMap g).Sublist (l.flatMap g) := by
  induction l with
  | nil => exact List.Sublist.refl _
  | cons b rest ih =>
    simp only [find_cons] at h
    rw [modify_cons]
    by_cases hb : key b = k
    · rw [if_pos hb]
      exact (h b (if_pos hb)).append_right _
    · rw [if_neg hb]
      simp only [if_neg hb] at h
      exact (ih h).append_left (g b)

theorem flatMap_modify (h : ∀ a, find key k l = some a → g (f a) = g a) :
    (modify key k f l).flatMap g = l.flatMap g := by
  induction l with
  | nil => rfl
  | cons b rest ih =>
    simp only [find_cons] at h
    rw [modify_cons]
    by_cases hb : key b = k
    · rw [if_pos hb, List.flatMap_cons, List.flatMap_cons, h b (if_pos hb)]
    · simp only [if_neg hb] at h
      rw [if_neg hb, List.flatMap_cons, List.flatMap_cons, ih h]

end FlatMap

end keyed
