-- Loss recovery and congestion control (transport/recovery.rs, loss.rs, congestion.rs).
-- Times and byte counts are `u64` in the source; here they are natural numbers.
import MilliHttp.Crypto

namespace milli_http.transport

open crypto

/-- Monotonic time in microseconds. -/
abbrev Instant := Nat

/-! ## Sent packets -/

/-- Metadata of a sent packet that awaits acknowledgement. -/
structure SentPacket where
  pn : Nat
  level : Level
  time_sent : Instant
  size : Nat
  ack_eliciting : Bool
  in_flight : Bool
  deriving DecidableEq, Repr

structure AckResult where
  newly_acked : List SentPacket
  largest_newly_acked : Option SentPacket
  deriving DecidableEq, Repr

/-- Sent but unacknowledged packets, in no particular order. -/
structure SentPacketTracker where
  entries : List SentPacket
  deriving DecidableEq, Repr

/-- `swap_remove`: the last entry takes the place of the removed one. -/
def swap_remove (entries : List SentPacket) (i : Nat) : List SentPacket :=
  match entries.getLast? with
  | none => entries
  | some last => (entries.set i last).dropLast

/-- The loop that removes every entry that satisfies `p`, looking again at the entry
swapped in. Returns what is kept and what was removed, in the order of removal. -/
def drain (p : SentPacket → Bool) : Nat → Nat → List SentPacket → List SentPacket × List SentPacket
  | 0, _, entries => (entries, [])
  | fuel + 1, i, entries =>
    match entries[i]? with
    | none => (entries, [])
    | some pkt =>
      if p pkt then
        let (kept, removed) := drain p fuel i (swap_remove entries i)
        (kept, pkt :: removed)
      else drain p fuel (i + 1) entries

theorem swap_remove_length (entries : List SentPacket) (i : Nat) :
    (swap_remove entries i).length = entries.length - 1 := by
  unfold swap_remove
  cases h : entries.getLast? with
  | none => simp [List.getLast?_eq_none_iff.mp h]
  | some last => simp

theorem drain_length_le (p : SentPacket → Bool) (fuel i : Nat) (entries : List SentPacket) :
    (drain p fuel i entries).1.length ≤ entries.length := by
  fun_induction drain p fuel i entries with
  | case1 => exact Nat.le_refl _
  | case2 => exact Nat.le_refl _
  | case3 _ _ _ _ _ _ _ _ hrest ih =>
    rw [swap_remove_length, hrest] at ih
    dsimp only at ih ⊢
    omega
  | case4 _ _ _ _ _ _ ih => exact ih

/-- A loop that reaches an entry to remove leaves fewer. -/
theorem drain_length_lt (p : SentPacket → Bool) (fuel i : Nat) (entries : List SentPacket)
    {j : Nat} {pkt : SentPacket} (hj : entries[j]? = some pkt) (hp : p pkt = true) (hij : i ≤ j)
    (hfuel : entries.length ≤ i + fuel) :
    (drain p fuel i entries).1.length < entries.length := by
  have hlt : j < entries.length := (List.getElem?_eq_some_iff.mp hj).1
  induction fuel generalizing i with
  | zero => omega
  | succ fuel ih =>
    unfold drain
    have hi : i < entries.length := by omega
    simp only [List.getElem?_eq_getElem hi]
    split
    · have hle := drain_length_le p fuel i (swap_remove entries i)
      rw [swap_remove_length] at hle
      dsimp only
      omega
    · rename_i hpi
      have hne : i ≠ j := by
        rintro rfl
        rw [List.getElem?_eq_getElem hi, Option.some.injEq] at hj
        exact hpi (hj ▸ hp)
      exact ih (i + 1) (by omega) (by omega)

theorem drain_of_none (p : SentPacket → Bool) (fuel i : Nat) (entries : List SentPacket)
    (h : ∀ pkt ∈ entries, p pkt = false) : (drain p fuel i entries).1 = entries := by
  induction fuel generalizing i with
  | zero => rfl
  | succ fuel ih =>
    unfold drain
    split
    · rfl
    · rename_i pkt hpkt
      rw [if_neg (by simp [h pkt (List.mem_of_getElem? hpkt)])]
      exact ih (i + 1)

theorem swap_remove_perm {entries : List SentPacket} {i : Nat} {pkt : SentPacket}
    (h : entries[i]? = some pkt) : (pkt :: swap_remove entries i).Perm entries := by
  obtain ⟨hi, rfl⟩ := List.getElem?_eq_some_iff.mp h
  unfold swap_remove
  have hne : entries ≠ [] := by
    rintro rfl
    cases hi
  obtain ⟨init, last, rfl⟩ : ∃ init last, entries = init ++ [last] :=
    ⟨_, _, (List.dropLast_append_getLast hne).symm⟩
  simp only [List.getLast?_append, List.getLast?_singleton, Option.some_or]
  by_cases hlast : i = init.length
  · subst hlast
    have hcomm : List.Perm ([last] ++ init) (init ++ [last]) := List.perm_append_comm
    simpa using hcomm
  · have hinit : i < init.length := by
      simp only [List.length_append, List.length_singleton] at hi
      omega
    rw [List.set_append_left _ _ hinit, List.dropLast_concat, List.getElem_append_left hinit,
      List.set_eq_take_append_cons_drop, if_pos hinit]
    have hsplit : init = init.take i ++ init[i] :: init.drop (i + 1) := by
      rw [List.getElem_cons_drop, List.take_append_drop]
    generalize init[i] = pkt at hsplit
    rw [hsplit]
    grind

theorem drain_perm (p : SentPacket → Bool) (fuel i : Nat) (entries : List SentPacket) :
    ((drain p fuel i entries).2 ++ (drain p fuel i entries).1).Perm entries := by
  fun_induction drain p fuel i entries with
  | case1 => exact List.Perm.refl _
  | case2 => exact List.Perm.refl _
  | case3 _ _ _ _ hpkt _ kept removed hrest ih =>
    rw [hrest] at ih
    exact (ih.cons _).trans (swap_remove_perm hpkt)
  | case4 _ _ _ _ _ _ ih => exact ih

/-- The loop removes only what it looks for. -/
theorem drain_removed (p : SentPacket → Bool) (fuel i : Nat) (entries : List SentPacket) :
    ∀ pkt ∈ (drain p fuel i entries).2, p pkt = true := by
  fun_induction drain p fuel i entries with
  | case1 => exact nofun
  | case2 => exact nofun
  | case3 _ _ _ _ _ hp kept removed hrest ih =>
    rw [hrest] at ih
    intro pkt hpkt
    rcases List.mem_cons.mp hpkt with rfl | hpkt
    · exact hp
    · exact ih pkt hpkt
  | case4 _ _ _ _ _ _ ih => exact ih

/-- Entries before the one removed stay where they are. -/
theorem swap_remove_getElem? {entries : List SentPacket} {i j : Nat} (hi : i < entries.length)
    (hj : j < i) : (swap_remove entries i)[j]? = entries[j]? := by
  unfold swap_remove
  split
  · rfl
  · rw [List.getElem?_dropLast, if_pos (by simp; omega), List.getElem?_set_ne (by omega)]

/-- A loop that looks at every entry keeps none it looks for. -/
theorem drain_kept (p : SentPacket → Bool) (fuel i : Nat) (entries : List SentPacket)
    (hfuel : entries.length ≤ i + fuel)
    (hbefore : ∀ j pkt, j < i → entries[j]? = some pkt → p pkt = false) :
    ∀ pkt ∈ (drain p fuel i entries).1, p pkt = false := by
  fun_induction drain p fuel i entries with
  | case1 i entries =>
    dsimp only
    intro pkt hpkt
    obtain ⟨j, hj⟩ := List.mem_iff_getElem?.mp hpkt
    have hlt := (List.getElem?_eq_some_iff.mp hj).1
    exact hbefore j pkt (by omega) hj
  | case2 fuel i entries hnone =>
    dsimp only
    intro pkt hpkt
    obtain ⟨j, hj⟩ := List.mem_iff_getElem?.mp hpkt
    have hlt := (List.getElem?_eq_some_iff.mp hj).1
    have hi := List.getElem?_eq_none_iff.mp hnone
    exact hbefore j pkt (by omega) hj
  | case3 fuel i entries pkt hpkt hp kept removed hrest ih =>
    rw [hrest] at ih
    have hi := (List.getElem?_eq_some_iff.mp hpkt).1
    refine ih ?_ fun j pkt' hj hget => ?_
    · rw [swap_remove_length]
      omega
    · rw [swap_remove_getElem? hi hj] at hget
      exact hbefore j pkt' hj hget
  | case4 fuel i entries pkt hpkt hp ih =>
    refine ih (by omega) fun j pkt' hj hget => ?_
    by_cases hji : j = i
    · subst hji
      rw [hpkt, Option.some.injEq] at hget
      simpa [hget] using hp
    · exact hbefore j pkt' (by omega) hget

/-- The loop splits the entries: those it looks for, and the others. -/
theorem drain_split (p : SentPacket → Bool) (entries : List SentPacket) :
    (drain p entries.length 0 entries).2.Perm (entries.filter p) ∧
      (drain p entries.length 0 entries).1.Perm (entries.filter fun pkt => !p pkt) := by
  have hperm := drain_perm p entries.length 0 entries
  have hremoved := drain_removed p entries.length 0 entries
  have hkept := drain_kept p entries.length 0 entries (by omega) (fun _ _ h => absurd h (by omega))
  constructor
  · have h := hperm.filter p
    rw [List.filter_append, List.filter_eq_self.mpr hremoved,
      List.filter_eq_nil_iff.mpr (fun pkt hpkt => by simp [hkept pkt hpkt]), List.append_nil] at h
    exact h
  · have h := hperm.filter fun pkt => !p pkt
    rw [List.filter_append, List.filter_eq_nil_iff.mpr (fun pkt hpkt => by simp [hremoved pkt hpkt]),
      List.filter_eq_self.mpr (fun pkt hpkt => by simp [hkept pkt hpkt]), List.nil_append] at h
    exact h

namespace SentPacketTracker

def new : SentPacketTracker := ⟨[]⟩

/-- Records a sent packet; a full tracker of `N` entries forgets it. -/
def on_packet_sent (t : SentPacketTracker) (N : Nat) (pkt : SentPacket) : SentPacketTracker :=
  if t.entries.length ≥ N then t else ⟨t.entries ++ [pkt]⟩

/-- The packet numbers an ACK frame acknowledges below its first range. -/
def more_ranges (smallest : Nat) : List (Nat × Nat) → List (Nat × Nat)
  | [] => []
  | (gap, ack_range) :: rest =>
    if smallest < gap + 2 then []
    else
      let range_largest := smallest - gap - 2
      let range_smallest := range_largest - ack_range
      (range_smallest, range_largest) :: more_ranges range_smallest rest

/-- Processes an ACK: acknowledged packets leave the tracker. -/
def on_ack_received (t : SentPacketTracker) (level : Level) (largest_ack first_ack_range : Nat)
    (ranges : List (Nat × Nat)) : AckResult × SentPacketTracker :=
  let first_lo := largest_ack - first_ack_range
  let acked_ranges := (first_lo, largest_ack) :: more_ranges first_lo ranges
  let is_acked (pkt : SentPacket) : Bool :=
    pkt.level == level && acked_ranges.any fun (lo, hi) => pkt.pn ≥ lo && pkt.pn ≤ hi
  let (kept, removed) := drain is_acked t.entries.length 0 t.entries
  let largest := removed.foldl (fun best pkt =>
    match best with
    | none => some pkt
    | some prev => if pkt.pn > prev.pn then some pkt else some prev) none
  ({ newly_acked := removed.take 32, largest_newly_acked := largest }, ⟨kept⟩)

/-- Removes one packet. -/
def remove (t : SentPacketTracker) (level : Level) (pn : Nat) :
    Option SentPacket × SentPacketTracker :=
  match t.entries.findIdx? fun p => p.level == level && p.pn == pn with
  | none => (none, t)
  | some pos => (t.entries[pos]?, ⟨swap_remove t.entries pos⟩)

theorem remove_cases (t : SentPacketTracker) (level : Level) (pn : Nat) :
    t.remove level pn = (none, t) ∨
    ∃ pkt, pkt.level = level ∧ pkt.pn = pn ∧ (t.remove level pn).1 = some pkt ∧
      (pkt :: (t.remove level pn).2.entries).Perm t.entries := by
  unfold remove
  split
  · exact .inl rfl
  · rename_i pos hpos
    obtain ⟨hlt, hmatch, -⟩ := List.findIdx?_eq_some_iff_getElem.mp hpos
    simp only [Bool.and_eq_true, beq_iff_eq] at hmatch
    have hget := List.getElem?_eq_getElem hlt
    exact .inr ⟨t.entries[pos], hmatch.1, hmatch.2, hget, swap_remove_perm hget⟩

/-- Drops all packets of a packet number space. -/
def drop_space (t : SentPacketTracker) (level : Level) : SentPacketTracker :=
  ⟨(drain (fun p => p.level == level) t.entries.length 0 t.entries).1⟩

theorem drop_space_eq_self_iff (t : SentPacketTracker) (level : Level) :
    t.drop_space level = t ↔ ∀ pkt ∈ t.entries, pkt.level ≠ level := by
  constructor
  · intro heq pkt hpkt hlevel
    obtain ⟨j, hj⟩ := List.mem_iff_getElem?.mp hpkt
    have hlt := drain_length_lt (fun p => p.level == level) t.entries.length 0 t.entries hj
      (by simp [hlevel]) (Nat.zero_le j) (by omega)
    have hentries := congrArg (fun t => t.entries.length) heq
    simp only [drop_space] at hentries
    omega
  · intro h
    have hkept := drain_of_none (fun p => p.level == level) t.entries.length 0 t.entries
      (fun pkt hpkt => by simpa using h pkt hpkt)
    simp only [drop_space, hkept]

def has_ack_eliciting_in_flight (t : SentPacketTracker) (level : Level) : Bool :=
  t.entries.any fun p => p.level == level && p.ack_eliciting && p.in_flight

end SentPacketTracker

/-! ## Loss detection -/

def PACKET_THRESHOLD : Nat := 3

/-- Minimum RTT granularity: 1 ms. -/
def GRANULARITY : Nat := 1000

/-- Default initial RTT: 333 ms. -/
def DEFAULT_INITIAL_RTT : Nat := 333000

def U64_MAX : Nat := 2 ^ 64 - 1

structure LossDetector where
  largest_acked : PerLevel (Option Nat)
  smoothed_rtt : Option Nat
  rttvar : Nat
  min_rtt : Nat
  latest_rtt : Nat
  pto_count : Nat
  time_of_last_ack_eliciting : PerLevel (Option Instant)
  max_ack_delay : Nat
  loss_time : PerLevel (Option Instant)
  deriving DecidableEq, Repr

namespace LossDetector

def new (max_ack_delay_us : Nat) : LossDetector where
  largest_acked := .replicate none
  smoothed_rtt := none
  rttvar := 0
  min_rtt := U64_MAX
  latest_rtt := 0
  pto_count := 0
  time_of_last_ack_eliciting := .replicate none
  max_ack_delay := max_ack_delay_us
  loss_time := .replicate none

/-- Smoothed RTT, or the default when there is no sample. -/
def srtt (ld : LossDetector) : Nat := ld.smoothed_rtt.getD DEFAULT_INITIAL_RTT

/-- Updates the RTT estimates from a newly acknowledged packet. -/
def update_rtt (ld : LossDetector) (latest_rtt ack_delay : Nat) (handshake_confirmed : Bool) :
    LossDetector :=
  let min_rtt := if ld.min_rtt = U64_MAX ∨ latest_rtt < ld.min_rtt then latest_rtt else ld.min_rtt
  let ld := { ld with latest_rtt, min_rtt }
  match ld.smoothed_rtt with
  | none => { ld with smoothed_rtt := some latest_rtt, rttvar := latest_rtt / 2 }
  | some srtt =>
    let adjusted_rtt :=
      if handshake_confirmed then
        let capped_delay := min ack_delay ld.max_ack_delay
        if latest_rtt > ld.min_rtt + capped_delay then latest_rtt - capped_delay else latest_rtt
      else latest_rtt
    let rttvar_sample := (srtt - adjusted_rtt) + (adjusted_rtt - srtt)
    { ld with
      rttvar := (3 * ld.rttvar + rttvar_sample) / 4
      smoothed_rtt := some ((7 * srtt + adjusted_rtt) / 8) }

/-- Records the largest acknowledged packet number of a space. -/
def on_ack_received (ld : LossDetector) (level : Level) (largest_acked : Nat) : LossDetector :=
  match ld.largest_acked.get level with
  | none => { ld with largest_acked := ld.largest_acked.set level (some largest_acked) }
  | some prev =>
    if largest_acked > prev then
      { ld with largest_acked := ld.largest_acked.set level (some largest_acked) }
    else ld

/-- The scan of `detect_lost_packets`: at most 64 lost numbers, and the earliest deadline of
the packets that are not lost yet. -/
def lost_scan (largest_acked loss_delay lost_send_time : Nat) :
    List SentPacket → List Nat → Option Instant → List Nat × Option Instant
  | [], lost, loss_time => (lost, loss_time)
  | pkt :: rest, lost, loss_time =>
    if largest_acked ≥ pkt.pn + PACKET_THRESHOLD ∨ pkt.time_sent ≤ lost_send_time then
      if lost.length ≥ 64 then (lost, loss_time)
      else lost_scan largest_acked loss_delay lost_send_time rest (lost ++ [pkt.pn]) loss_time
    else
      let deadline := pkt.time_sent + loss_delay
      lost_scan largest_acked loss_delay lost_send_time rest lost
        (some (loss_time.elim deadline (min · deadline)))

/-- Detects lost packets by packet number and by time. -/
def detect_lost_packets (ld : LossDetector) (level : Level) (tracker : SentPacketTracker)
    (now : Instant) : List Nat × LossDetector :=
  match ld.largest_acked.get level with
  | none => ([], ld)
  | some largest_acked =>
    let rtt_base := max ld.srtt ld.latest_rtt
    let loss_delay := max (rtt_base * 9 / 8) GRANULARITY
    let below := tracker.entries.filter fun p => p.level == level && p.pn < largest_acked + 1
    let (lost, loss_time) := lost_scan largest_acked loss_delay (now - loss_delay) below [] none
    (lost, { ld with loss_time := ld.loss_time.set level loss_time })

/-- The PTO duration. -/
def pto_duration (ld : LossDetector) : Nat :=
  let rttvar := if ld.smoothed_rtt.isSome then ld.rttvar else DEFAULT_INITIAL_RTT / 2
  ld.srtt + max (4 * rttvar) GRANULARITY + ld.max_ack_delay

/-- The latest of the times that are set. -/
def most_recent (ts : PerLevel (Option Instant)) : Option Instant :=
  [ts.initial, ts.handshake, ts.application].foldl (fun best t =>
    match best, t with
    | none, t => t
    | best, none => best
    | some b, some t => some (max b t)) none

/-- The earliest of the times that are set. -/
def earliest (ts : PerLevel (Option Instant)) : Option Instant :=
  [ts.initial, ts.handshake, ts.application].foldl (fun best t =>
    match best, t with
    | none, t => t
    | best, none => best
    | some b, some t => some (min b t)) none

/-- The PTO deadline, if ack-eliciting packets are in flight. -/
def pto_timeout (ld : LossDetector) (tracker : SentPacketTracker) : Option Instant :=
  let pto := ld.pto_duration * 2 ^ min ld.pto_count 62
  if [Level.Initial, .Handshake, .Application].any tracker.has_ack_eliciting_in_flight then
    (most_recent ld.time_of_last_ack_eliciting).map (· + pto)
  else none

def on_pto (ld : LossDetector) : LossDetector := { ld with pto_count := ld.pto_count + 1 }

def reset_pto_count (ld : LossDetector) : LossDetector := { ld with pto_count := 0 }

/-- The next timer deadline: the earlier of the loss timer and the PTO. -/
def next_timeout (ld : LossDetector) (tracker : SentPacketTracker) : Option Instant :=
  match earliest ld.loss_time, ld.pto_timeout tracker with
  | some l, some p => some (min l p)
  | some l, none => some l
  | none, p => p

def on_ack_eliciting_sent (ld : LossDetector) (level : Level) (now : Instant) : LossDetector :=
  { ld with time_of_last_ack_eliciting := ld.time_of_last_ack_eliciting.set level (some now) }

/-- Forgets a packet number space. -/
def drop_space (ld : LossDetector) (level : Level) : LossDetector :=
  { ld with
    largest_acked := ld.largest_acked.set level none
    time_of_last_ack_eliciting := ld.time_of_last_ack_eliciting.set level none
    loss_time := ld.loss_time.set level none }

end LossDetector

/-! ## Congestion control -/

/-- The window and the bytes in flight have 64 bits in the source and no bound here: they grow by the
sizes of packets that were sent, so the sums do not leave 64 bits before 2^64 bytes have been sent. -/
structure CongestionController where
  cwnd : Nat
  ssthresh : Nat
  bytes_in_flight : Nat
  recovery_start_time : Option Instant
  max_datagram_size : Nat
  minimum_window : Nat
  deriving DecidableEq, Repr

namespace CongestionController

def new (max_datagram_size : Nat) : CongestionController where
  cwnd := max (10 * max_datagram_size) 14720
  ssthresh := U64_MAX
  bytes_in_flight := 0
  recovery_start_time := none
  max_datagram_size := max_datagram_size
  minimum_window := 2 * max_datagram_size

/-- Available send window. -/
def available_window (cc : CongestionController) : Nat := cc.cwnd - cc.bytes_in_flight

def on_packet_sent (cc : CongestionController) (bytes : Nat) : CongestionController :=
  { cc with bytes_in_flight := cc.bytes_in_flight + bytes }

def remove_from_flight (cc : CongestionController) (bytes : Nat) : CongestionController :=
  { cc with bytes_in_flight := cc.bytes_in_flight - bytes }

/-- A packet sent at `sent_time` is in recovery if it left before recovery started. -/
def in_recovery (cc : CongestionController) (sent_time : Instant) : Bool :=
  match cc.recovery_start_time with
  | some start => sent_time ≤ start
  | none => false

/-- A packet was acknowledged. -/
def on_packet_acked (cc : CongestionController) (bytes : Nat) (sent_time : Instant) :
    CongestionController :=
  let cc := cc.remove_from_flight bytes
  if cc.in_recovery sent_time then cc
  else if cc.cwnd < cc.ssthresh then { cc with cwnd := cc.cwnd + bytes }
  else { cc with cwnd := cc.cwnd + cc.max_datagram_size * bytes / cc.cwnd }

/-- A packet was declared lost. -/
def on_packet_lost (cc : CongestionController) (bytes : Nat) (sent_time now : Instant) :
    CongestionController :=
  let cc := cc.remove_from_flight bytes
  if cc.in_recovery sent_time then cc
  else
    let ssthresh := max (cc.cwnd / 2) cc.minimum_window
    { cc with recovery_start_time := some now, ssthresh, cwnd := ssthresh }

end CongestionController

end milli_http.transport
