-- Two bookkeeping structures of a connection: the received packet numbers an ACK is
-- built from (connection/mod.rs) and the CRYPTO reassembly buffer (connection/recv.rs).
import MilliHttp.Lib.Bytes
import MilliHttp.Error

open bytes

namespace milli_http.connection

/-! ## Received packet numbers -/

/-- Received packet numbers as ascending inclusive ranges. Numbers at or below the floor
were evicted and count as received. -/
structure RecvPnTracker where
  ranges : List (Nat × Nat)
  floor : Option Nat
  deriving DecidableEq, Repr

/-- The last position at which `p` holds, counting from `i`. -/
def last_index (p : Nat × Nat → Bool) : Nat → List (Nat × Nat) → Option Nat
  | _, [] => none
  | i, r :: rest =>
    match last_index p (i + 1) rest with
    | some j => some j
    | none => if p r then some i else none

namespace RecvPnTracker

def new : RecvPnTracker := { ranges := [], floor := none }

/-- The most ranges a tracker holds. -/
def MAX_RANGES : Nat := 32

/-- Whether a packet number was recorded, or is at or below the floor. -/
def contains (t : RecvPnTracker) (pn : Nat) : Bool :=
  t.floor.any (pn ≤ ·) || t.ranges.any fun (start, end_) => pn ≥ start && pn ≤ end_

/-- The largest packet number received. -/
def largest (t : RecvPnTracker) : Option Nat := t.ranges.getLast?.map Prod.snd

/-- Inserts a range before the first one that starts above it. -/
def insert_range (ranges : List (Nat × Nat)) (start end_ : Nat) : List (Nat × Nat) :=
  let pos := (ranges.findIdx? fun (s, _) => s > start).getD ranges.length
  ranges.take pos ++ [(start, end_)] ++ ranges.drop pos

/-- A new range of one number; a full tracker drops its lowest range and raises the floor. -/
def record_new (t : RecvPnTracker) (pn : Nat) : RecvPnTracker :=
  match t.ranges with
  | dropped :: rest =>
    if t.ranges.length ≥ MAX_RANGES then
      { ranges := insert_range rest pn pn
        floor := some (t.floor.elim dropped.2 (max · dropped.2)) }
    else { t with ranges := insert_range t.ranges pn pn }
  | [] => { t with ranges := insert_range [] pn pn }

/-- Records a received packet number. -/
def record (t : RecvPnTracker) (pn : Nat) : RecvPnTracker :=
  if t.contains pn then t
  else
    match last_index (fun r => pn == r.2 + 1) 0 t.ranges,
      last_index (fun r => pn + 1 == r.1) 0 t.ranges with
    | some li, some ri =>
      -- The number bridges two ranges: both go, and one that covers them comes back.
      let new_start := (t.ranges.getD li (0, 0)).1
      let new_end := (t.ranges.getD ri (0, 0)).2
      let ranges := (t.ranges.eraseIdx (max li ri)).eraseIdx (min li ri)
      { t with ranges := insert_range ranges new_start new_end }
    | some li, none => { t with ranges := t.ranges.modify li fun r => (r.1, pn) }
    | none, some ri => { t with ranges := t.ranges.modify ri fun r => (pn, r.2) }
    | none, none => t.record_new pn

/-- A number already recorded is not recorded again. -/
theorem record_of_contains {t : RecvPnTracker} {pn : Nat} (h : t.contains pn = true) :
    t.record pn = t := by
  simp [record, h]

end RecvPnTracker

/-! ## CRYPTO reassembly -/

/-- Reassembly of the CRYPTO stream of one level. Index `i` of `buf` is stream offset
`delivered + i`; `ranges` are the received parts, sorted and disjoint. -/
structure CryptoReassemblyBuf where
  buf : Bytes
  delivered : Nat
  ranges : List (Nat × Nat)
  deriving DecidableEq, Repr

namespace CryptoReassemblyBuf

/-- An empty buffer of `N` bytes. -/
def new (N : Nat) : CryptoReassemblyBuf :=
  { buf := List.replicate N 0, delivered := 0, ranges := [] }

/-- Merges a range into a sorted list: overlapping and adjacent ranges are absorbed. -/
def merged (start end_ : Nat) : List (Nat × Nat) → List (Nat × Nat)
  | [] => [(start, end_)]
  | (s, e) :: rest =>
    if s > end_ then (start, end_) :: (s, e) :: rest
    else if e < start then (s, e) :: merged start end_ rest
    else merged (min start s) (max end_ e) rest

/-- The list holds 16 ranges; one more is not tracked. -/
def merge_range (r : CryptoReassemblyBuf) (start end_ : Nat) : CryptoReassemblyBuf :=
  let ranges := merged start end_ r.ranges
  if ranges.length ≤ 16 then { r with ranges } else r

/-- Inserts the data of a CRYPTO frame at its stream offset. -/
def insert (r : CryptoReassemblyBuf) (offset : Nat) (data : Bytes) :
    Except Error CryptoReassemblyBuf :=
  if data = [] then .ok r
  else if offset + data.length ≤ r.delivered then .ok r
  else
    let skip := r.delivered - offset
    let data := data.drop skip
    let rel_start := offset + skip - r.delivered
    let rel_end := rel_start + data.length
    if rel_end > r.buf.length then .error (.Transport .CryptoBufferExceeded)
    else .ok ({ r with buf := overwrite r.buf rel_start data }.merge_range rel_start rel_end)

/-- The length of the contiguous data at the delivery frontier. -/
def contiguous_len (r : CryptoReassemblyBuf) : Nat :=
  match r.ranges with
  | (0, end_) :: _ => end_
  | _ => 0

def contiguous_data (r : CryptoReassemblyBuf) : Bytes := r.buf.take r.contiguous_len

/-- Marks the first `n` bytes as delivered and shifts the rest to the front. -/
def advance (r : CryptoReassemblyBuf) (n : Nat) : CryptoReassemblyBuf :=
  { buf := r.buf.drop n ++ List.replicate n 0
    delivered := r.delivered + n
    ranges := r.ranges.filterMap fun (s, e) =>
      if e ≤ n then none else if s < n then some (0, e - n) else some (s - n, e - n) }

end CryptoReassemblyBuf

end milli_http.connection
