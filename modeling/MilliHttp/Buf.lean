-- The byte buffer (buf.rs): storage on the heap or in a fixed slice with a hidden tail, its calls,
-- and the pair of byte lists it stands for.
import MilliHttp.Lib.Slices

open bytes

namespace milli_http.buf

/-! ## The buffer -/

/-- A growing vector with its allocation, or a fixed slice with a logical length. -/
inductive Storage where
  | Heap (v : Bytes) (capacity : Nat)
  | Static (mem : Bytes) (len : Nat)
  deriving DecidableEq, Repr

structure Buf where
  storage : Storage
  hidden : Nat
  deriving DecidableEq, Repr

/-- Which allocations are granted in a call, by their size. -/
abbrev Grants := Nat → Bool

namespace Buf

def new : Buf := { storage := .Heap [] 0, hidden := 0 }

/-- A buffer in a fixed slice; one that is too small is a panic. -/
def from_static (N : Nat) (mem : Bytes) : Outcome Unit Buf :=
  if N ≤ mem.length then .ok { storage := .Static mem 0, hidden := 0 } else .panic

def phys_len (b : Buf) : Nat :=
  match b.storage with
  | .Heap v _ => v.length
  | .Static _ len => len

def len (b : Buf) : Nat := b.phys_len - b.hidden

def clear (b : Buf) : Buf :=
  { storage :=
      match b.storage with
      | .Heap _ capacity => .Heap [] capacity
      | .Static mem _ => .Static mem 0
    hidden := 0 }

/-- Shortens what is visible; a hidden tail moves up to its new end. -/
def truncate (b : Buf) (len : Nat) : Outcome Unit Buf :=
  let vis := b.len
  if len ≥ vis then .ok b
  else
    match b.storage with
    | .Heap v capacity => do
      let v ← (if b.hidden > 0 then copy_within v vis (vis + b.hidden) len else .ok v)
      .ok { b with storage := .Heap (v.take (len + b.hidden)) capacity }
    | .Static mem _ => do
      let mem ← (if b.hidden > 0 then copy_within mem vis (vis + b.hidden) len else .ok mem)
      .ok { b with storage := .Static mem (len + b.hidden) }

def hide_tail (b : Buf) (n : Nat) : Outcome Unit Buf :=
  if n ≤ b.len then .ok { b with hidden := b.hidden + n } else .panic

def unhide_tail (b : Buf) : Buf × Nat := ({ b with hidden := 0 }, b.hidden)

/-- Grows the allocation towards `N`; one that is refused ends the program. -/
def reserve_clamped (N : Nat) (grants : Grants) (b : Buf) (additional : Nat) : Outcome Unit Buf :=
  match b.storage with
  | .Heap v capacity =>
    let needed := v.length + additional
    if needed ≤ capacity then .ok b
    else
      let target := min (max (capacity * 2) needed) N
      if v.length + (target - v.length) ≤ capacity then .ok b
      else if grants (v.length + (target - v.length)) then
        .ok { b with storage := .Heap v (v.length + (target - v.length)) }
      else .panic
  | .Static _ _ => .ok b

/-- `Vec::try_reserve_exact`: whether it succeeded, and the capacity behind it. -/
def try_reserve_exact (grants : Grants) (v : Bytes) (capacity additional : Nat) : Bool × Nat :=
  if v.length + additional ≤ capacity then (true, capacity)
  else if grants (v.length + additional) then (true, v.length + additional)
  else (false, capacity)

/-- The same growth, which may be refused; the bound `N` is not checked. -/
def try_reserve (N : Nat) (grants : Grants) (b : Buf) (additional : Nat) : Buf × Bool :=
  match b.storage with
  | .Heap v capacity =>
    let needed := v.length + additional
    if needed ≤ capacity then (b, true)
    else
      let target := min (max (capacity * 2) needed) N
      match try_reserve_exact grants v capacity (target - v.length) with
      | (true, capacity) => ({ b with storage := .Heap v capacity }, true)
      | (false, _) =>
        match try_reserve_exact grants v capacity (needed - v.length) with
        | (fits, capacity) => ({ b with storage := .Heap v capacity }, fits)
  | .Static _ _ => (b, true)

/-- Appends to what is visible; a hidden tail stays behind it. -/
def extend_from_slice (N : Nat) (grants : Grants) (b : Buf) (data : Bytes) : Outcome Unit Buf :=
  match b.storage with
  | .Heap _ _ => do
    if b.phys_len + data.length > N then .err ()
    else
      let b ← reserve_clamped N grants b data.length
      match b.storage with
      | .Heap v capacity =>
        let v := v ++ data
        if b.hidden > 0 ∧ data ≠ [] then do
          let v ← rotate_left_from v (v.length - b.hidden - data.length) b.hidden
          .ok { b with storage := .Heap v capacity }
        else .ok { b with storage := .Heap v capacity }
      | .Static _ _ => .ok b
  | .Static mem len =>
    let cap := min N mem.length
    if len + data.length > cap then .err ()
    else do
      let vis := len - b.hidden
      let mem ← (if b.hidden > 0 ∧ data ≠ [] then copy_within mem vis len (vis + data.length)
        else .ok mem)
      if vis + data.length ≤ mem.length then
        .ok { b with storage := .Static (overwrite mem vis data) (len + data.length) }
      else .panic

def push (N : Nat) (grants : Grants) (b : Buf) (byte : UInt8) : Outcome Unit Buf :=
  extend_from_slice N grants b [byte]

/-- Gives unused capacity back. -/
def shrink_to_fit (grants : Grants) (b : Buf) : Outcome Unit Buf :=
  match b.storage with
  | .Heap v capacity =>
    if v.length = capacity then .ok b
    else if v = [] ∨ grants v.length then .ok { b with storage := .Heap v v.length }
    else .panic
  | .Static _ _ => .ok b

/-- Gives capacity above a floor back, by a copy into a smaller block if one is granted. -/
def shrink_to (grants : Grants) (b : Buf) (min_capacity : Nat) : Buf :=
  match b.storage with
  | .Heap v capacity =>
    if capacity ≤ min_capacity then b
    else if v = [] then { b with storage := .Heap [] 0 }
    else
      match try_reserve_exact grants [] 0 (max v.length min_capacity) with
      | (true, smaller) => { b with storage := .Heap v smaller }
      | (false, _) => b
  | .Static _ _ => b

def as_slice (b : Buf) : Bytes :=
  match b.storage with
  | .Heap v _ => v.take b.len
  | .Static mem _ => mem.take b.len

/-- `as_mut_slice`, and what is done to the slice. -/
def as_mut_slice (b : Buf) (write : Bytes → Outcome Unit Bytes) : Outcome Unit Buf :=
  match b.storage with
  | .Heap v capacity => do
    let slice ← write (v.take b.len)
    .ok { b with storage := .Heap (slice ++ v.drop b.len) capacity }
  | .Static mem len => do
    let slice ← write (mem.take b.len)
    .ok { b with storage := .Static (slice ++ mem.drop b.len) len }

/-- Drops bytes from the front by shifting the others forward. -/
def buf_drain_front (b : Buf) (n : Nat) : Outcome Unit Buf := do
  let len := b.len
  let b ← as_mut_slice b fun slice => copy_within slice n slice.length 0
  truncate b (len - n)

end Buf

/-! ## Calls -/

/-- What the caller of a mutable slice does to its bytes. -/
structure SliceWrite where
  write : Bytes → Bytes
  keeps : ∀ v, (write v).length = v.length

inductive Op where
  | extend_from_slice (data : Bytes)
  | push (byte : UInt8)
  | truncate (len : Nat)
  | hide_tail (n : Nat)
  | unhide_tail
  | clear
  | write (w : SliceWrite)
  | copy_within (lo hi dest : Nat)
  | buf_drain_front (n : Nat)
  | try_reserve (additional : Nat)
  | shrink_to (min_capacity : Nat)
  | shrink_to_fit

/-- What a call returns: `Ok(())` or nothing, `Err(())`, the byte that `push` gives back, or the
count of revealed bytes. -/
inductive Reply where
  | done
  | refused
  | returned (byte : UInt8)
  | revealed (n : Nat)
  deriving DecidableEq, Repr

/-- A call that fails leaves the buffer as it was; a panic ends the run. -/
def answer (b : Buf) (failure : Reply) : Outcome Unit Buf → Option (Buf × Reply)
  | .ok b' => some (b', .done)
  | .err _ => some (b, failure)
  | .panic => none

def Buf.apply (N : Nat) (grants : Grants) (b : Buf) : Op → Option (Buf × Reply)
  | .extend_from_slice data => answer b .refused (b.extend_from_slice N grants data)
  | .push byte => answer b (.returned byte) (b.push N grants byte)
  | .truncate len => answer b .refused (b.truncate len)
  | .hide_tail n => answer b .refused (b.hide_tail n)
  | .unhide_tail => some (b.unhide_tail.1, .revealed b.unhide_tail.2)
  | .clear => some (b.clear, .done)
  | .write w => answer b .refused (b.as_mut_slice fun slice => .ok (w.write slice))
  | .copy_within lo hi dest =>
    answer b .refused (b.as_mut_slice fun slice => bytes.copy_within slice lo hi dest)
  | .buf_drain_front n => answer b .refused (b.buf_drain_front n)
  | .try_reserve additional =>
    match b.try_reserve N grants additional with
    | (b', fits) => some (b', if fits then .done else .refused)
  | .shrink_to min_capacity => some (b.shrink_to grants min_capacity, .done)
  | .shrink_to_fit => answer b .refused (b.shrink_to_fit grants)

/-! ## The pair of lists -/

structure Lists where
  visible : Bytes
  hidden : Bytes
  deriving DecidableEq, Repr

namespace Lists

def empty : Lists := { visible := [], hidden := [] }

def size (p : Lists) : Nat := p.visible.length + p.hidden.length

def extend (N : Nat) (p : Lists) (data : Bytes) (failure : Reply) : Lists × Reply :=
  if p.size + data.length > N then (p, failure)
  else ({ p with visible := p.visible ++ data }, .done)

def apply (N : Nat) (p : Lists) : Op → Option (Lists × Reply)
  | .extend_from_slice data => some (p.extend N data .refused)
  | .push byte => some (p.extend N [byte] (.returned byte))
  | .truncate len => some ({ p with visible := p.visible.take len }, .done)
  | .hide_tail n =>
    let rest := p.visible.length - n
    if n ≤ p.visible.length then
      some ({ visible := p.visible.take rest, hidden := p.visible.drop rest ++ p.hidden }, .done)
    else none
  | .unhide_tail =>
    some ({ visible := p.visible ++ p.hidden, hidden := [] }, .revealed p.hidden.length)
  | .clear => some (empty, .done)
  | .write w => some ({ p with visible := w.write p.visible }, .done)
  | .copy_within lo hi dest =>
    match (bytes.copy_within p.visible lo hi dest : Outcome Unit Bytes) with
    | .ok visible => some ({ p with visible := visible }, .done)
    | _ => none
  | .buf_drain_front n =>
    if n ≤ p.visible.length then some ({ p with visible := p.visible.drop n }, .done) else none
  | .try_reserve _ => some (p, .done)
  | .shrink_to _ => some (p, .done)
  | .shrink_to_fit => some (p, .done)

end Lists

end milli_http.buf
