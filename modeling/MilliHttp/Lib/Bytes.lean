-- Byte strings read as the source reads them: an index or a slice outside its
-- buffer is a panic, a big-endian number is its bytes. `usize` is taken to be
-- 64 bits wide, so lengths and offsets below 2^64 are natural numbers.
import Mathlib

namespace bytes

/-- A byte string. -/
abbrev Bytes := List UInt8

/-- How a computation ends: in a value, in an error, or in a panic. -/
inductive Outcome (ε α : Type) where
  | ok (a : α)
  | err (e : ε)
  | panic
  deriving DecidableEq, Repr

namespace Outcome

variable {ε α β : Type}

/-- The rest runs only after a value. -/
def andThen (x : Outcome ε α) (f : α → Outcome ε β) : Outcome ε β :=
  match x with
  | ok a => f a
  | err e => err e
  | panic => panic

instance : Monad (Outcome ε) where
  pure := ok
  bind := andThen

/-- The computation ends in a value or in an error. -/
def Safe (x : Outcome ε α) : Prop := x ≠ panic

@[simp] theorem safe_ok (a : α) : (ok a : Outcome ε α).Safe := by simp [Safe]

@[simp] theorem safe_err (e : ε) : (err e : Outcome ε α).Safe := by simp [Safe]

@[simp] theorem safe_pure (a : α) : (pure a : Outcome ε α).Safe := safe_ok a

@[simp] theorem not_safe_panic : ¬ (panic : Outcome ε α).Safe := by simp [Safe]

@[simp] theorem pure_eq (a : α) : (pure a : Outcome ε α) = ok a := rfl

@[simp] theorem ok_bind (a : α) (f : α → Outcome ε β) : ((ok a : Outcome ε α) >>= f) = f a := rfl

@[simp] theorem err_bind (e : ε) (f : α → Outcome ε β) :
    ((err e : Outcome ε α) >>= f) = err e := rfl

@[simp] theorem panic_bind (f : α → Outcome ε β) : ((panic : Outcome ε α) >>= f) = panic := rfl

instance (x : Outcome ε α) : Decidable x.Safe :=
  match x with
  | ok a => isTrue (safe_ok a)
  | err e => isTrue (safe_err e)
  | panic => isFalse not_safe_panic

theorem safe_bind {x : Outcome ε α} {f : α → Outcome ε β} (hx : x.Safe)
    (hf : ∀ a, x = ok a → (f a).Safe) : (x >>= f).Safe := by
  cases x with
  | ok a => exact hf a rfl
  | err e => exact safe_err e
  | panic => exact absurd hx not_safe_panic

theorem bind_eq_ok {x : Outcome ε α} {f : α → Outcome ε β} {b : β} (h : (x >>= f) = ok b) :
    ∃ a, x = ok a ∧ f a = ok b := by
  cases x with
  | ok a => exact ⟨a, rfl, h⟩
  | err e => cases h
  | panic => cases h

/-- A computation that cannot panic, as one that might. -/
def ofExcept (r : Except ε α) : Outcome ε α :=
  match r with
  | .ok a => ok a
  | .error e => err e

@[simp] theorem ofExcept_ok (a : α) : (ofExcept (.ok a) : Outcome ε α) = ok a := rfl

@[simp] theorem ofExcept_error (e : ε) : (ofExcept (.error e) : Outcome ε α) = err e := rfl

theorem ofExcept_eq_ok {r : Except ε α} {a : α} (h : ofExcept r = ok a) : r = .ok a := by
  cases r with
  | ok b =>
    cases h
    rfl
  | error e => cases h

@[simp] theorem safe_ofExcept (r : Except ε α) : (ofExcept r).Safe := by
  cases r <;> simp [ofExcept]

end Outcome

/-! ## Pure computations that may fail -/

section Except

variable {ε α β : Type}

@[simp] theorem except_ok_bind (a : α) (f : α → Except ε β) :
    ((Except.ok a : Except ε α) >>= f) = f a := rfl

@[simp] theorem except_error_bind (e : ε) (f : α → Except ε β) :
    ((Except.error e : Except ε α) >>= f) = .error e := rfl

theorem except_bind_eq_ok {x : Except ε α} {f : α → Except ε β} {b : β}
    (h : (x >>= f) = .ok b) : ∃ a, x = .ok a ∧ f a = .ok b := by
  cases x with
  | ok a => exact ⟨a, rfl, h⟩
  | error e => cases h

end Except

/-! ## Indexing and slicing -/

variable {ε : Type}

/-- `buf[i]`. -/
def index (buf : Bytes) (i : Nat) : Outcome ε UInt8 :=
  match buf[i]? with
  | some b => .ok b
  | none => .panic

/-- `buf[lo..hi]`. -/
def slice (buf : Bytes) (lo hi : Nat) : Outcome ε Bytes :=
  if lo ≤ hi ∧ hi ≤ buf.length then .ok ((buf.drop lo).take (hi - lo)) else .panic

/-- `buf[lo..]`. -/
def sliceFrom (buf : Bytes) (lo : Nat) : Outcome ε Bytes :=
  if lo ≤ buf.length then .ok (buf.drop lo) else .panic

theorem index_of_lt {buf : Bytes} {i : Nat} (h : i < buf.length) :
    (index buf i : Outcome ε UInt8) = .ok buf[i] := by
  simp [index, h]

theorem slice_of_le {buf : Bytes} {lo hi : Nat} (h₁ : lo ≤ hi) (h₂ : hi ≤ buf.length) :
    (slice buf lo hi : Outcome ε Bytes) = .ok ((buf.drop lo).take (hi - lo)) :=
  if_pos ⟨h₁, h₂⟩

theorem sliceFrom_of_le {buf : Bytes} {lo : Nat} (h : lo ≤ buf.length) :
    (sliceFrom buf lo : Outcome ε Bytes) = .ok (buf.drop lo) :=
  if_pos h

/-! ## Big-endian numbers -/

/-- The number a byte string spells, most significant byte first. -/
def beNat (buf : Bytes) : Nat := buf.foldl (fun n b => n * 256 + b.toNat) 0

/-- The low `len` bytes of `n`, most significant byte first. -/
def toBe : Nat → Nat → Bytes
  | 0, _ => []
  | len + 1, n => UInt8.ofNat (n / 256 ^ len) :: toBe len n

@[simp] theorem toBe_length (len n : Nat) : (toBe len n).length = len := by
  induction len with
  | zero => rfl
  | succ len ih => simp [toBe, ih]

theorem beNat_cons (b : UInt8) (rest : Bytes) :
    beNat (b :: rest) = b.toNat * 256 ^ rest.length + beNat rest := by
  have hfold : ∀ (buf : Bytes) (n : Nat), buf.foldl (fun n b => n * 256 + b.toNat) n =
      n * 256 ^ buf.length + beNat buf := by
    intro buf
    induction buf with
    | nil => simp [beNat]
    | cons c buf ih =>
      intro n
      simp only [List.foldl_cons, beNat, List.length_cons]
      rw [ih, ih]
      rw [Nat.pow_succ', ← Nat.mul_assoc, Nat.zero_mul, Nat.zero_add, Nat.add_mul, Nat.add_assoc]
  simpa [beNat] using hfold rest b.toNat

/-- The low bytes of a number spell what it is below their range. -/
theorem beNat_toBe (len n : Nat) : beNat (toBe len n) = n % 256 ^ len := by
  induction len with
  | zero => simp [toBe, beNat, Nat.mod_one]
  | succ len ih =>
    rw [toBe, beNat_cons, ih, toBe_length, Nat.pow_succ, Nat.mod_mul, UInt8.toNat_ofNat', Nat.add_comm,
      Nat.mul_comm]

/-- `src.copy_into(&mut dst[at..])` for a copy that fits. -/
def overwrite (dst : Bytes) (pos : Nat) (src : Bytes) : Bytes :=
  dst.take pos ++ src ++ dst.drop (pos + src.length)

theorem overwrite_length {dst src : Bytes} {pos : Nat} (h : pos + src.length ≤ dst.length) :
    (overwrite dst pos src).length = dst.length := by
  simp [overwrite]
  omega

/-- The bytes of an ASCII string. -/
def ascii (s : String) : Bytes := s.toList.map fun c => UInt8.ofNat c.toNat

end bytes
