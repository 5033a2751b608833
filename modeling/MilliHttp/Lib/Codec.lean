-- Writers and readers as methods on a list: a writer appends to what was written, a reader
-- takes from the front of what is left. The rules carry the round trip of the parts of a
-- message over to the whole, and how much a reader takes at least.
import MilliHttp.Lib.Method

open method

namespace codec

variable {β ε α γ : Type} {r : Method (List β) ε α} {f : α → Method (List β) ε γ}

/-! ## Round trips -/

/-- Whatever the writer appends the reader takes back, in front of anything, and returns `a`. -/
def RoundTrips (w : Method (List β) ε Unit) (r : Method (List β) ε α) (a : α) : Prop :=
  ∀ out u out', w out = (.ok u, out') → ∃ b, out' = out ++ b ∧ ∀ rest, r (b ++ rest) = (.ok a, rest)

theorem RoundTrips.pure (a : α) :
    RoundTrips (pure () : Method (List β) ε Unit) (pure a) a := by
  intro out u out' h
  cases h
  exact ⟨[], (List.append_nil out).symm, fun _ => rfl⟩

/-- The parts of a message come back one after the other. -/
theorem RoundTrips.bind {w w' : Method (List β) ε Unit} {a : α} {c : γ} (h : RoundTrips w r a)
    (h' : RoundTrips w' (f a) c) : RoundTrips (w >>= fun _ => w') (r >>= f) c := by
  intro out u out'' hrun
  obtain ⟨_, out', hw, hw'⟩ := Method.bind_eq_ok hrun
  obtain ⟨b, rfl, hr⟩ := h _ _ _ hw
  obtain ⟨b', rfl, hr'⟩ := h' _ _ _ hw'
  refine ⟨b ++ b', by simp, fun rest => ?_⟩
  rw [Method.bind_run, List.append_assoc, hr]
  exact hr' rest

/-- The last part of a message makes the whole. -/
theorem RoundTrips.last {w : Method (List β) ε Unit} {a : α}
    {c : γ} (h : RoundTrips w r a) (hf : f a = Pure.pure c) : RoundTrips w (r >>= f) c := by
  intro out u out' hrun
  obtain ⟨b, hb, hr⟩ := h out u out' hrun
  refine ⟨b, hb, fun rest => ?_⟩
  rw [Method.bind_run, hr]
  dsimp only
  rw [hf]
  rfl

/-- A writer that checks something first writes nothing when that fails. -/
theorem RoundTrips.checked {δ : Type} {x : Except ε δ} {w : δ → Method (List β) ε Unit}
    {a : α} (h : ∀ d, x = .ok d → RoundTrips (w d) r a) : RoundTrips (Method.lift x >>= w) r a := by
  intro out u out' hrun
  obtain ⟨d, mid, hx, hw⟩ := Method.bind_eq_ok hrun
  rw [Method.lift_run] at hx
  cases hx
  exact h d rfl out u out' hw

/-! ## Readers -/

/-- A reader leaves the end of what it was given, and takes at least `n` from the front. -/
def Takes (n : Nat) (r : Method (List β) ε α) : Prop :=
  ∀ buf a rest, r buf = (.ok a, rest) → ∃ taken, buf = taken ++ rest ∧ n ≤ taken.length

theorem Takes.mono {m n : Nat} (h : Takes n r) (hmn : m ≤ n) : Takes m r := by
  intro buf a rest hrun
  obtain ⟨taken, hbuf, hlen⟩ := h buf a rest hrun
  exact ⟨taken, hbuf, Nat.le_trans hmn hlen⟩

theorem takes_pure (a : α) : Takes 0 (pure a : Method (List β) ε α) := by
  intro buf a' rest h
  cases h
  exact ⟨[], rfl, Nat.le_refl 0⟩

theorem takes_fail (n : Nat) (e : ε) : Takes n (Method.fail e : Method (List β) ε α) := nofun

/-- A sequence takes what its first half takes. -/
theorem Takes.bind {n : Nat} (h : Takes n r) (hf : ∀ a, Takes 0 (f a)) : Takes n (r >>= f) := by
  intro buf c rest hrun
  obtain ⟨a, mid, hr, hrest⟩ := Method.bind_eq_ok hrun
  obtain ⟨taken, rfl, hlen⟩ := h _ _ _ hr
  obtain ⟨taken', rfl, -⟩ := hf a _ _ _ hrest
  exact ⟨taken ++ taken', by simp, by simp; omega⟩

theorem takes_ite {n : Nat} {p : Prop} [Decidable p] {r r' : Method (List β) ε α}
    (h : Takes n r) (h' : Takes n r') : Takes n (if p then r else r') := by
  split
  · exact h
  · exact h'

/-- What a reader returns has a property. -/
def Yields (P : α → Prop) (r : Method (List β) ε α) : Prop := ∀ buf a rest, r buf = (.ok a, rest) → P a

theorem yields_any (r : Method (List β) ε α) : Yields (fun _ => True) r := fun _ _ _ _ => trivial

theorem yields_pure {P : α → Prop} {a : α} (h : P a) : Yields P (pure a : Method (List β) ε α) := by
  intro buf a' rest hrun
  cases hrun
  exact h

theorem yields_fail (P : α → Prop) (e : ε) : Yields P (Method.fail e : Method (List β) ε α) := nofun

/-- A sequence returns what its second half does, of what the first returns. -/
theorem Yields.bind {P : α → Prop} {Q : γ → Prop}
    (h : Yields P r) (hf : ∀ a, P a → Yields Q (f a)) : Yields Q (r >>= f) := by
  intro buf c rest hrun
  obtain ⟨a, mid, hr, hrest⟩ := Method.bind_eq_ok hrun
  exact hf a (h _ _ _ hr) _ _ _ hrest

/-- The second half decides, whatever the first returns. -/
theorem yields_bind {Q : γ → Prop} (hf : ∀ a, Yields Q (f a)) : Yields Q (r >>= f) :=
  (yields_any r).bind fun a _ => hf a

theorem yields_ite {P : α → Prop} {p : Prop} [Decidable p] {r r' : Method (List β) ε α}
    (h : Yields P r) (h' : Yields P r') : Yields P (if p then r else r') := by
  split
  · exact h
  · exact h'

end codec
