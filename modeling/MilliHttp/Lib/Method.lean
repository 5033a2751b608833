-- Methods on a mutable receiver: a call reads a state, ends in a value or in an
-- error, and leaves a state behind either way. The rules say how a relation
-- between the state before and the state after passes through a whole method
-- body, so that each method is looked at once.
import Mathlib

namespace method

/-- A fallible method on `&mut self`. The state is written even when the call fails. -/
def Method (σ ε α : Type) : Type := σ → Except ε α × σ

namespace Method

variable {σ τ ε α β : Type}

/-- Ends with a value and leaves the state alone. -/
def done (a : α) : Method σ ε α := fun s => (.ok a, s)

/-- The `?` of the source: the rest runs only after a value. -/
def andThen (m : Method σ ε α) (f : α → Method σ ε β) : Method σ ε β := fun s =>
  match m s with
  | (.ok a, s') => f a s'
  | (.error e, s') => (.error e, s')

instance : Monad (Method σ ε) where
  pure := done
  bind := andThen

/-- Ends with an error and leaves the state alone. -/
def fail (e : ε) : Method σ ε α := fun s => (.error e, s)

/-- Reads the state. -/
def get : Method σ ε σ := fun s => (.ok s, s)

/-- Writes the state. -/
def modify (f : σ → σ) : Method σ ε Unit := fun s => (.ok (), f s)

/-- Ends as a pure computation ends. -/
def lift (r : Except ε α) : Method σ ε α := fun s => (r, s)

/-- `ok_or(e)?`. -/
def okOr (o : Option α) (e : ε) : Method σ ε α := fun s =>
  match o with
  | some a => (.ok a, s)
  | none => (.error e, s)

/-- A check: the error is returned when the condition fails. -/
def require (p : Prop) [Decidable p] (e : ε) : Method σ ε Unit := fun s =>
  if p then (.ok (), s) else (.error e, s)

/-- Runs a method of one part of the state. -/
def on (part : σ → τ) (put : τ → σ → σ) (m : Method τ ε α) : Method σ ε α := fun s =>
  ((m (part s)).1, put (m (part s)).2 s)

/-- `let _ = …`: the state change stands, the outcome does not matter. -/
def ignore (m : Method σ ε α) : Method σ ε Unit := fun s => (.ok (), (m s).2)

/-! ## How a call runs -/

@[simp] theorem pure_run (a : α) (s : σ) : (pure a : Method σ ε α) s = (.ok a, s) := rfl

@[simp] theorem fail_run (e : ε) (s : σ) : (fail e : Method σ ε α) s = (.error e, s) := rfl

@[simp] theorem get_run (s : σ) : (get : Method σ ε σ) s = (.ok s, s) := rfl

@[simp] theorem modify_run (f : σ → σ) (s : σ) : (modify f : Method σ ε Unit) s = (.ok (), f s) :=
  rfl

@[simp] theorem lift_run (r : Except ε α) (s : σ) : (lift r : Method σ ε α) s = (r, s) := rfl

@[simp] theorem okOr_some_run (a : α) (e : ε) (s : σ) :
    (okOr (some a) e : Method σ ε α) s = (.ok a, s) := rfl

@[simp] theorem okOr_none_run (e : ε) (s : σ) :
    (okOr none e : Method σ ε α) s = (.error e, s) := rfl

@[simp] theorem require_run_snd (p : Prop) [Decidable p] (e : ε) (s : σ) :
    ((require p e : Method σ ε Unit) s).2 = s := by
  unfold require
  split <;> rfl

theorem require_eq_ok {p : Prop} [Decidable p] {e : ε} {s s' : σ} {u : Unit}
    (h : (require p e : Method σ ε Unit) s = (.ok u, s')) : p ∧ s' = s := by
  unfold require at h
  split at h
  · cases h
    exact ⟨‹_›, rfl⟩
  · cases h

@[simp] theorem on_run (part : σ → τ) (put : τ → σ → σ) (m : Method τ ε α) (s : σ) :
    (on part put m) s = ((m (part s)).1, put (m (part s)).2 s) := rfl

@[simp] theorem ignore_run (m : Method σ ε α) (s : σ) : (ignore m) s = (.ok (), (m s).2) := rfl

theorem bind_run (m : Method σ ε α) (f : α → Method σ ε β) (s : σ) :
    (m >>= f) s = match m s with
      | (.ok a, s') => f a s'
      | (.error e, s') => (.error e, s') := rfl

theorem bind_ok {m : Method σ ε α} {f : α → Method σ ε β} {s s' : σ} {a : α}
    (h : m s = (.ok a, s')) : (m >>= f) s = f a s' := by
  rw [bind_run, h]

theorem bind_error {m : Method σ ε α} {f : α → Method σ ε β} {s s' : σ} {e : ε}
    (h : m s = (.error e, s')) : (m >>= f) s = (.error e, s') := by
  rw [bind_run, h]

theorem get_bind_run (f : σ → Method σ ε β) (s : σ) : (get >>= f) s = f s s := rfl

theorem modify_bind_run (g : σ → σ) (f : Unit → Method σ ε β) (s : σ) :
    (modify g >>= f) s = f () (g s) := rfl

theorem require_bind_run (p : Prop) [Decidable p] (e : ε) (f : Unit → Method σ ε β) (s : σ) :
    (require p e >>= f) s = if p then f () s else (.error e, s) := by
  by_cases h : p <;> simp [bind_run, require, h]

/-- A sequence ends well exactly when both halves do. -/
theorem bind_eq_ok {m : Method σ ε α} {f : α → Method σ ε β} {s s'' : σ} {b : β}
    (h : (m >>= f) s = (.ok b, s'')) : ∃ a s', m s = (.ok a, s') ∧ f a s' = (.ok b, s'') := by
  rw [bind_run] at h
  rcases hm : m s with ⟨_ | a, s'⟩
  · rw [hm] at h
    cases h
  · rw [hm] at h
    exact ⟨a, s', rfl, h⟩

/-- A sequence fails in one of its halves. -/
theorem bind_ne_error {m : Method σ ε α} {f : α → Method σ ε β} {s : σ} {e : ε}
    (hm : (m s).1 ≠ .error e) (hf : ∀ a s', m s = (.ok a, s') → (f a s').1 ≠ .error e) :
    ((m >>= f) s).1 ≠ .error e := by
  rw [bind_run]
  rcases hrun : m s with ⟨e' | a, s'⟩
  · rw [hrun] at hm
    simpa using hm
  · exact hf a s' hrun

/-! ## Relations a method keeps -/

/-- The two states agree on a part. -/
def Same {π : Type} (part : σ → π) (s s' : σ) : Prop := part s' = part s

instance {π : Type} (part : σ → π) : IsPreorder σ (Same part) where
  refl _ := rfl
  trans _ _ _ h₁ h₂ := Eq.trans h₂ h₁

/-- The property is not lost. -/
def Preserves (P : σ → Prop) (s s' : σ) : Prop := P s → P s'

instance (P : σ → Prop) : IsPreorder σ (Preserves P) where
  refl _ h := h
  trans _ _ _ h₁ h₂ h := h₂ (h₁ h)

/-- From every state, the method leaves a state that `R` relates to it. -/
def Keeps (R : σ → σ → Prop) (m : Method σ ε α) : Prop := ∀ s, R s (m s).2

section Rules

variable {R : σ → σ → Prop}

theorem keeps_modify {f : σ → σ} (h : ∀ s, R s (f s)) : Keeps R (modify f : Method σ ε Unit) := h

theorem keeps_ite {p : Prop} [Decidable p] {m n : Method σ ε α} (hm : Keeps R m)
    (hn : Keeps R n) : Keeps R (if p then m else n) := by
  split
  · exact hm
  · exact hn

/-- A method of a part keeps what its change of the part keeps of the whole. -/
theorem keeps_on {part : σ → τ} {put : τ → σ → σ} {m : Method τ ε α}
    (h : ∀ s, R s (put (m (part s)).2 s)) : Keeps R (on part put m) := h

theorem keeps_ignore {m : Method σ ε α} (h : Keeps R m) : Keeps R (ignore m) := h

variable [IsPreorder σ R]

theorem keeps_of_eq {m : Method σ ε α} (h : ∀ s, (m s).2 = s) : Keeps R m := fun s => by
  rw [h s]
  exact refl s

theorem keeps_pure (a : α) : Keeps R (pure a : Method σ ε α) := keeps_of_eq fun _ => rfl

theorem keeps_fail (e : ε) : Keeps R (fail e : Method σ ε α) := keeps_of_eq fun _ => rfl

theorem keeps_get : Keeps R (get : Method σ ε σ) := keeps_of_eq fun _ => rfl

theorem keeps_lift (r : Except ε α) : Keeps R (lift r : Method σ ε α) := keeps_of_eq fun _ => rfl

theorem keeps_okOr (o : Option α) (e : ε) : Keeps R (okOr o e : Method σ ε α) :=
  keeps_of_eq fun _ => by cases o <;> rfl

theorem keeps_require (p : Prop) [Decidable p] (e : ε) :
    Keeps R (require p e : Method σ ε Unit) :=
  keeps_of_eq (require_run_snd p e)

/-- The second half may use what the first half returned and left behind. -/
theorem kept_bind {m : Method σ ε α} {f : α → Method σ ε β} {s : σ} (hm : R s (m s).2)
    (hf : ∀ a s', m s = (.ok a, s') → R s' (f a s').2) : R s ((m >>= f) s).2 := by
  rw [bind_run]
  rcases hs : m s with ⟨e | a, s'⟩
  · rw [hs] at hm
    exact hm
  · rw [hs] at hm
    exact IsTrans.trans _ _ _ hm (hf a s' hs)

theorem keeps_seq {m : Method σ ε α} {f : α → Method σ ε β} (hm : Keeps R m)
    (hf : ∀ a, Keeps R (f a)) : Keeps R (m >>= f) :=
  fun s => kept_bind (hm s) fun a s' _ => hf a s'

/-- A check that passes leaves the rest to run from the same state. -/
theorem kept_require {p : Prop} [Decidable p] {e : ε} {f : Unit → Method σ ε β} {s : σ}
    (hf : p → R s (f () s).2) : R s ((require p e >>= f) s).2 := by
  rw [require_bind_run]
  split
  · exact hf ‹_›
  · exact refl s

/-- What a computation that succeeds yields, the rest may use. -/
theorem kept_lift {r : Except ε α} {f : α → Method σ ε β} {s : σ}
    (hf : ∀ a, r = .ok a → R s (f a s).2) : R s ((lift r >>= f) s).2 := by
  rw [bind_run, lift_run]
  cases hr : r with
  | error e => exact refl s
  | ok a => exact hf a hr

end Rules

/-- A prologue that keeps `R` and a rest that keeps `T`, where `R` may stand before `T` and for
it. -/
theorem kept_after {R T : σ → σ → Prop} {m : Method σ ε α} {f : α → Method σ ε β} {s : σ}
    (hweak : ∀ {s s'}, R s s' → T s s') (hcomp : ∀ {s s' s''}, R s s' → T s' s'' → T s s'')
    (hm : R s (m s).2) (hf : ∀ a s', m s = (.ok a, s') → T s' (f a s').2) :
    T s ((m >>= f) s).2 := by
  rw [bind_run]
  rcases hs : m s with ⟨e | a, s'⟩
  · rw [hs] at hm
    exact hweak hm
  · rw [hs] at hm
    exact hcomp hm (hf a s' hs)

/-! ## Calls that fail without a trace -/

/-- The method only looks at the state. -/
def ReadOnly (m : Method σ ε α) : Prop := ∀ s, (m s).2 = s

/-- A call that fails leaves the state as it was. -/
def Atomic (m : Method σ ε α) : Prop := ∀ s e s', m s = (.error e, s') → s' = s

theorem readOnly_get : ReadOnly (get : Method σ ε σ) := fun _ => rfl

theorem readOnly_lift (r : Except ε α) : ReadOnly (lift r : Method σ ε α) := fun _ => rfl

theorem readOnly_okOr (o : Option α) (e : ε) : ReadOnly (okOr o e : Method σ ε α) :=
  fun _ => by cases o <;> rfl

theorem atomic_modify (f : σ → σ) : Atomic (modify f : Method σ ε Unit) := fun _ _ _ h => by cases h

/-- What only looks may come first. -/
theorem atomic_bind {m : Method σ ε α} {f : α → Method σ ε β} (hm : ReadOnly m)
    (hf : ∀ a, Atomic (f a)) : Atomic (m >>= f) := by
  intro s e s' h
  have hs := hm s
  rw [bind_run] at h
  rcases hrun : m s with ⟨e' | a, s''⟩
  · rw [hrun] at h hs
    cases h
    exact hs
  · rw [hrun] at h hs
    exact (hf a s'' e s' h).trans hs

/-- What cannot fail may come last. -/
theorem atomic_map {m : Method σ ε α} (hm : Atomic m) (g : α → β) :
    Atomic (m >>= fun a => pure (g a)) := by
  intro s e s' h
  rw [bind_run] at h
  rcases hrun : m s with ⟨e' | a, s''⟩
  · rw [hrun] at h
    cases h
    exact hm s _ _ hrun
  · rw [hrun] at h
    cases h

theorem atomic_ite {p : Prop} [Decidable p] {m n : Method σ ε α} (hm : Atomic m) (hn : Atomic n) :
    Atomic (if p then m else n) := by
  split
  · exact hm
  · exact hn

theorem atomic_on {part : σ → τ} {put : τ → σ → σ} {m : Method τ ε α} (hm : Atomic m)
    (hput : ∀ s, put (part s) s = s) : Atomic (on part put m) := by
  intro s e s' h
  rw [on_run] at h
  obtain ⟨herr, rfl⟩ := Prod.mk.inj h
  rw [hm (part s) e (m (part s)).2 (Prod.ext herr rfl), hput]

end Method

end method
