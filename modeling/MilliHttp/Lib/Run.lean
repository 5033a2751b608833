-- Runs of a deterministic system: a list of steps taken one after the other from a state.
-- The rules carry what every step keeps over to a whole run: an invariant, a relation
-- between an earlier and a later state, and a fact about everything that happened so far.
import Mathlib

namespace run

variable {σ ι : Type} (apply : ι → σ → σ)

/-- The state after a list of steps. -/
def final : σ → List ι → σ
  | s, [] => s
  | s, a :: as => final (apply a s) as

/-- Each step of a run with the state it is taken from. -/
def trace : σ → List ι → List (σ × ι)
  | _, [] => []
  | s, a :: as => (s, a) :: trace (apply a s) as

/-- Every step of the run is allowed in the state it is taken from. -/
def Along (Ok : σ → ι → Prop) (s : σ) (as : List ι) : Prop := ∀ x ∈ trace apply s as, Ok x.1 x.2

instance (Ok : σ → ι → Prop) [∀ s a, Decidable (Ok s a)] (s : σ) (as : List ι) :
    Decidable (Along apply Ok s as) :=
  inferInstanceAs (Decidable (∀ x ∈ trace apply s as, Ok x.1 x.2))

variable {apply} {Ok : σ → ι → Prop} {s : σ} {a : ι} {as bs : List ι}

@[simp] theorem final_nil : final apply s [] = s := rfl

@[simp] theorem final_cons : final apply s (a :: as) = final apply (apply a s) as := rfl

@[simp] theorem trace_nil : trace apply s [] = [] := rfl

@[simp] theorem trace_cons : trace apply s (a :: as) = (s, a) :: trace apply (apply a s) as := rfl

theorem final_append : final apply s (as ++ bs) = final apply (final apply s as) bs := by
  induction as generalizing s with
  | nil => rfl
  | cons a as ih => exact ih

theorem trace_append :
    trace apply s (as ++ bs) = trace apply s as ++ trace apply (final apply s as) bs := by
  induction as generalizing s with
  | nil => rfl
  | cons a as ih => simp [ih]

/-- A step is taken from the state the steps before it lead to. -/
theorem of_mem_trace {x : σ × ι} (h : x ∈ trace apply s as) :
    ∃ pre, pre ++ [x.2] <+: as ∧ x.1 = final apply s pre := by
  induction as generalizing s with
  | nil => cases h
  | cons a as ih =>
    rcases List.mem_cons.mp h with rfl | h
    · exact ⟨[], List.prefix_append [a] as, rfl⟩
    · obtain ⟨pre, hpre, hx⟩ := ih h
      exact ⟨a :: pre, (List.prefix_cons_inj a).mpr hpre, hx⟩

theorem along_nil : Along apply Ok s [] := by simp [Along]

theorem along_cons : Along apply Ok s (a :: as) ↔ Ok s a ∧ Along apply Ok (apply a s) as := by
  simp [Along]

theorem along_append :
    Along apply Ok s (as ++ bs) ↔ Along apply Ok s as ∧ Along apply Ok (final apply s as) bs := by
  simp only [Along, trace_append, List.mem_append]
  constructor
  · intro h
    exact ⟨fun x hx => h x (.inl hx), fun x hx => h x (.inr hx)⟩
  · rintro ⟨h₁, h₂⟩ x (hx | hx)
    · exact h₁ x hx
    · exact h₂ x hx

theorem Along.upto (h : Along apply Ok s as) (hp : bs <+: as) : Along apply Ok s bs := by
  obtain ⟨rest, rfl⟩ := hp
  exact (along_append.mp h).1

theorem Along.mono {Ok' : σ → ι → Prop} (h : Along apply Ok s as) (hi : ∀ s a, Ok s a → Ok' s a) :
    Along apply Ok' s as :=
  fun x hx => hi _ _ (h x hx)

/-- The property holds at every point of the run. -/
def Throughout (apply : ι → σ → σ) (P : σ → Prop) (s : σ) (as : List ι) : Prop :=
  ∀ pre, pre <+: as → P (final apply s pre)

section Throughout

variable {P : σ → Prop}

theorem throughout_nil : Throughout apply P s [] ↔ P s := by
  simp [Throughout]

theorem throughout_cons : Throughout apply P s (a :: as) ↔ P s ∧ Throughout apply P (apply a s) as := by
  constructor
  · intro h
    exact ⟨h [] List.nil_prefix, fun pre hpre => h (a :: pre) ((List.prefix_cons_inj a).mpr hpre)⟩
  · rintro ⟨h₁, h₂⟩ pre hpre
    cases pre with
    | nil => exact h₁
    | cons b pre =>
      obtain ⟨rfl, hrest⟩ := List.cons_prefix_cons.mp hpre
      exact h₂ pre hrest

theorem Throughout.start (h : Throughout apply P s as) : P s := h [] List.nil_prefix

theorem Throughout.finish (h : Throughout apply P s as) : P (final apply s as) :=
  h as (List.prefix_refl as)

theorem throughout_append :
    Throughout apply P s (as ++ bs) ↔
      Throughout apply P s as ∧ Throughout apply P (final apply s as) bs := by
  induction as generalizing s with
  | nil =>
    rw [List.nil_append, throughout_nil, final_nil]
    exact ⟨fun h => ⟨h.start, h⟩, fun h => h.2⟩
  | cons a as ih => rw [List.cons_append, throughout_cons, throughout_cons, ih, final_cons, and_assoc]

end Throughout

/-- A fact about the steps so far and the state they led to holds at every point of the run. -/
def Always (apply : ι → σ → σ) (P : List (σ × ι) → σ → Prop) (s : σ) (as : List ι) : Prop :=
  ∀ pre, pre <+: as → P (trace apply s pre) (final apply s pre)

/-! ## Rules -/

/-- What every allowed step keeps holds after the run. -/
theorem invariant {Inv : σ → Prop} (hstep : ∀ s a, Ok s a → Inv s → Inv (apply a s))
    (hok : Along apply Ok s as) (h : Inv s) : Inv (final apply s as) := by
  induction as generalizing s with
  | nil => exact h
  | cons a as ih =>
    obtain ⟨ha, has⟩ := along_cons.mp hok
    exact ih has (hstep s a ha h)

/-- The invariant holds wherever a step is taken. -/
theorem invariant_at {Inv : σ → Prop} (hstep : ∀ s a, Ok s a → Inv s → Inv (apply a s))
    (hok : Along apply Ok s as) (h : Inv s) : Along apply (fun s _ => Inv s) s as := by
  induction as generalizing s with
  | nil => exact along_nil
  | cons a as ih =>
    obtain ⟨ha, has⟩ := along_cons.mp hok
    exact along_cons.mpr ⟨h, ih has (hstep s a ha h)⟩

/-- What every allowed step keeps between before and after is kept by the run. -/
theorem related {R : σ → σ → Prop} [IsPreorder σ R] (hstep : ∀ s a, Ok s a → R s (apply a s))
    (hok : Along apply Ok s as) : R s (final apply s as) := by
  induction as generalizing s with
  | nil => exact refl s
  | cons a as ih =>
    obtain ⟨ha, has⟩ := along_cons.mp hok
    exact IsTrans.trans _ _ _ (hstep s a ha) (ih has)

/-- A fact about the steps so far and the state they led to. -/
theorem history (Inv : List (σ × ι) → σ → Prop)
    (hstep : ∀ pre s a, Ok s a → Inv pre s → Inv (pre ++ [(s, a)]) (apply a s))
    (hok : Along apply Ok s as) (h : Inv [] s) : Inv (trace apply s as) (final apply s as) := by
  suffices H : ∀ pre, Inv pre s → Inv (pre ++ trace apply s as) (final apply s as) by
    simpa using H [] h
  clear h
  induction as generalizing s with
  | nil =>
    intro pre h
    simpa using h
  | cons a as ih =>
    intro pre h
    obtain ⟨ha, has⟩ := along_cons.mp hok
    simpa using ih has (pre ++ [(s, a)]) (hstep pre s a ha h)

/-- When a step from a good state leads to a good one exactly if it is allowed, a run is good
throughout exactly if all its steps are allowed. -/
theorem throughout_iff_along {Inv P : σ → Prop} (hinv : ∀ s a, Inv s → Inv (apply a s))
    (hstep : ∀ s a, Inv s → P s → (P (apply a s) ↔ Ok s a)) (h : Inv s) (hp : P s) :
    Throughout apply P s as ↔ Along apply Ok s as := by
  induction as generalizing s with
  | nil => exact iff_of_true (throughout_nil.mpr hp) along_nil
  | cons a as ih =>
    rw [throughout_cons, along_cons, ← hstep s a h hp]
    constructor
    · rintro ⟨-, hrest⟩
      exact ⟨hrest.start, (ih (hinv s a h) hrest.start).mp hrest⟩
    · rintro ⟨ha, hrest⟩
      exact ⟨hp, (ih (hinv s a h) ha).mpr hrest⟩

end run
