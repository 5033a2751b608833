-- Loops whose body says whether to go round again, with a measure that every turn that goes
-- on lowers. A loop is known by its last turn: the state it is taken from is reached by turns
-- that went on, and the loop ends as that turn ends.
import MilliHttp.Lib.Method

namespace method.Method

variable {σ ε : Type}

/-- `loop { if !m()? { return Ok(()) } }`, for at most so many turns. -/
def turns : Nat → Method σ ε Bool → Method σ ε Unit
  | 0, _ => pure ()
  | n + 1, m => do
    if ← m then turns n m else pure ()

/-- The loop, with as many turns as the measure allows. -/
def loop (μ : σ → Nat) (m : Method σ ε Bool) : Method σ ε Unit := fun s => turns (μ s + 1) m s

/-- The state the last of at most so many turns is taken from. -/
def last_turn : Nat → Method σ ε Bool → σ → σ
  | 0, _, s => s
  | n + 1, m, s =>
    match m s with
    | (.ok true, s') => last_turn n m s'
    | _ => s

/-- The state the last turn of the loop is taken from. -/
def last (μ : σ → Nat) (m : Method σ ε Bool) (s : σ) : σ := last_turn (μ s + 1) m s

/-- Every turn that goes on lowers the measure. -/
def Lowers (μ : σ → Nat) (m : Method σ ε Bool) : Prop :=
  ∀ s s', m s = (.ok true, s') → μ s' < μ s

/-- A turn that goes on. -/
def GoesOn (m : Method σ ε Bool) (s s' : σ) : Prop := m s = (.ok true, s')

variable {μ : σ → Nat} {m : Method σ ε Bool} {s s' : σ}

theorem turns_succ (n : Nat) (m : Method σ ε Bool) :
    turns (n + 1) m = m >>= fun b => if b then turns n m else pure () := rfl

theorem turns_of_lt (hm : Lowers μ m) {n k : Nat} (hn : μ s < n) (hk : μ s < k) :
    turns n m s = turns k m s := by
  induction n generalizing s k with
  | zero => omega
  | succ n ih =>
    cases k with
    | zero => omega
    | succ k =>
      rcases hrun : m s with ⟨e | b, s'⟩
      · simp only [turns_succ, bind_run, hrun]
      · cases b with
        | false => simp [turns_succ, bind_run, hrun]
        | true =>
          have hlt := hm s s' hrun
          simpa [turns_succ, bind_run, hrun] using ih (by omega) (by omega)

theorem loop_of_goes_on (hm : Lowers μ m) (h : GoesOn m s s') : loop μ m s = loop μ m s' := by
  have hlt := hm s s' h
  have hrun : turns (μ s + 1) m s = turns (μ s) m s' := by
    simp [turns_succ, bind_run, show m s = (.ok true, s') from h]
  show turns (μ s + 1) m s = turns (μ s' + 1) m s'
  rw [hrun]
  exact turns_of_lt hm hlt (by omega)

theorem loop_of_stops (h : m s = (.ok false, s')) : loop μ m s = (.ok (), s') := by
  simp [loop, turns_succ, bind_run, h]

theorem loop_of_fails {e : ε} (h : m s = (.error e, s')) : loop μ m s = (.error e, s') := by
  simp [loop, turns_succ, bind_run, h]

/-- What a turn that stops or fails gives the loop, and what a turn that goes on leaves to the
rest of the loop, the loop has. -/
theorem loop_induction {P : σ → Prop} (hm : Lowers μ m)
    (hstop : ∀ s s', m s = (.ok false, s') → P s)
    (hfail : ∀ s e s', m s = (.error e, s') → P s)
    (hgo : ∀ s s', GoesOn m s s' → P s' → P s) (s : σ) : P s := by
  induction hn : μ s using Nat.strongRecOn generalizing s with
  | _ n ih =>
    rcases hrun : m s with ⟨e | b, s'⟩
    · exact hfail s e s' hrun
    · cases b with
      | false => exact hstop s s' hrun
      | true => exact hgo s s' hrun (ih (μ s') (hn ▸ hm s s' hrun) s' rfl)

/-- What every turn keeps, the loop keeps. -/
theorem keeps_loop {R : σ → σ → Prop} [IsPreorder σ R] (hm : Lowers μ m) (h : Keeps R m) :
    Keeps R (loop μ m) := by
  intro s
  induction s using loop_induction hm with
  | hstop s s' hrun =>
    have hturn := h s
    rw [hrun] at hturn
    rwa [loop_of_stops hrun]
  | hfail s e s' hrun =>
    have hturn := h s
    rw [hrun] at hturn
    rwa [loop_of_fails hrun]
  | hgo s s' hrun ih =>
    have hturn := h s
    rw [show m s = (.ok true, s') from hrun] at hturn
    rw [loop_of_goes_on hm hrun]
    exact IsTrans.trans _ _ _ hturn ih

theorem last_turn_succ (n : Nat) (m : Method σ ε Bool) (s : σ) :
    last_turn (n + 1) m s = match m s with
      | (.ok true, s') => last_turn n m s'
      | _ => s := rfl

theorem last_turn_of_lt (hm : Lowers μ m) {n k : Nat} (hn : μ s < n) (hk : μ s < k) :
    last_turn n m s = last_turn k m s := by
  induction n generalizing s k with
  | zero => omega
  | succ n ih =>
    cases k with
    | zero => omega
    | succ k =>
      rcases hrun : m s with ⟨e | b, s'⟩
      · simp only [last_turn_succ, hrun]
      · cases b with
        | false => simp only [last_turn_succ, hrun]
        | true =>
          have hlt := hm s s' hrun
          simpa only [last_turn_succ, hrun] using ih (by omega) (by omega)

theorem last_of_goes_on (hm : Lowers μ m) (h : GoesOn m s s') : last μ m s = last μ m s' := by
  have hlt := hm s s' h
  have hrun : last_turn (μ s + 1) m s = last_turn (μ s) m s' := by
    simp only [last_turn_succ, show m s = (.ok true, s') from h]
  show last_turn (μ s + 1) m s = last_turn (μ s' + 1) m s'
  rw [hrun]
  exact last_turn_of_lt hm hlt (by omega)

theorem last_of_stops (h : m s = (.ok false, s')) : last μ m s = s := by
  simp only [last, last_turn_succ, h]

theorem last_of_fails {e : ε} (h : m s = (.error e, s')) : last μ m s = s := by
  simp only [last, last_turn_succ, h]

/-- The loop fails exactly as its last turn does. -/
theorem loop_fails_iff (hm : Lowers μ m) (s : σ) (e : ε) :
    (loop μ m s).1 = .error e ↔ (m (last μ m s)).1 = .error e := by
  induction s using loop_induction hm with
  | hstop s s' h => rw [loop_of_stops h, last_of_stops h, h]; simp
  | hfail s e' s' h => rw [loop_of_fails h, last_of_fails h, h]; simp
  | hgo s s' h ih => rw [loop_of_goes_on hm h, last_of_goes_on hm h, ih]

end method.Method
