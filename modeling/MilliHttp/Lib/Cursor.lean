-- Two ways to read a byte string: at offsets into it, where a read outside is a panic, and from the
-- front of what is left. The rules show part by part that both come to the same.
import MilliHttp.Lib.Bytes
import MilliHttp.Lib.Method

open bytes method

namespace cursor

variable {ε α γ : Type}

/-- What is read at offsets is what is read from the front: the same error, or the same value with
the offset of what is left. -/
def Follows (data : Bytes) (x : Outcome ε (α × Nat)) (r : Except ε α × Bytes) : Prop :=
  match r with
  | (.ok a, rest) => ∃ off, off ≤ data.length ∧ rest = data.drop off ∧ x = .ok (a, off)
  | (.error e, _) => x = .err e

theorem Follows.ok {data : Bytes} {a : α} {off : Nat} (h : off ≤ data.length) :
    Follows data (.ok (a, off) : Outcome ε (α × Nat)) (.ok a, data.drop off) := ⟨off, h, rfl, rfl⟩

theorem Follows.error (data rest : Bytes) (e : ε) :
    Follows data (.err e : Outcome ε (α × Nat)) (.error e, rest) := rfl

/-- The parts of a value are read one after the other. -/
theorem Follows.bind {data buf : Bytes} {x : Outcome ε (α × Nat)} {r : Method Bytes ε α}
    {f : α × Nat → Outcome ε (γ × Nat)} {g : α → Method Bytes ε γ} (h : Follows data x (r buf))
    (hf : ∀ a off, r buf = (.ok a, data.drop off) → off ≤ data.length →
      Follows data (f (a, off)) (g a (data.drop off))) :
    Follows data (x >>= f) ((r >>= g) buf) := by
  rw [Method.bind_run]
  rcases hr : r buf with ⟨e | a, rest⟩
  · rw [hr] at h
    cases h
    rfl
  · rw [hr] at h
    obtain ⟨off, hoff, rfl, rfl⟩ := h
    exact hf a off hr hoff

/-- The last part makes the value. -/
theorem Follows.last {data buf : Bytes} {x : Outcome ε (α × Nat)} {r : Method Bytes ε α}
    {f : α × Nat → Outcome ε γ} {g : α → Method Bytes ε γ} (h : Follows data x (r buf))
    (hf : ∀ a off, r buf = (.ok a, data.drop off) → off ≤ data.length →
      f (a, off) = .ofExcept (g a (data.drop off)).1) :
    (x >>= f) = .ofExcept ((r >>= g) buf).1 := by
  rw [Method.bind_run]
  rcases hr : r buf with ⟨e | a, rest⟩
  · rw [hr] at h
    cases h
    rfl
  · rw [hr] at h
    obtain ⟨off, hoff, rfl, rfl⟩ := h
    exact hf a off hr hoff

end cursor
