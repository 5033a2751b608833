-- Loss detection (transport/loss.rs): which packets one scan finds lost, and which ones its
-- timer waits for. The scan ends at the 65th lost packet and leaves the rest to the next one.
import MilliHttp.Transport.Recovery

namespace milli_http.transport

open crypto

/-! ## What is lost -/

namespace LossDetector

/-- How long after it was sent a packet is lost. -/
def loss_delay (ld : LossDetector) : Nat := max (max ld.srtt ld.latest_rtt * 9 / 8) GRANULARITY

/-- The packets of a level up to the largest acknowledged one. -/
def below (level : Level) (largest_acked : Nat) (tracker : SentPacketTracker) : List SentPacket :=
  tracker.entries.filter fun p => p.level == level && p.pn < largest_acked + 1

/-- A packet is three numbers behind, or was sent the loss delay ago. -/
def IsLost (largest_acked loss_delay : Nat) (now : Instant) (pkt : SentPacket) : Prop :=
  pkt.pn + PACKET_THRESHOLD ≤ largest_acked ∨ pkt.time_sent + loss_delay ≤ now

instance (largest_acked loss_delay : Nat) (now : Instant) (pkt : SentPacket) :
    Decidable (IsLost largest_acked loss_delay now pkt) := inferInstanceAs (Decidable (_ ∨ _))

/-- The timer is set, and goes off no later than the packet is lost. -/
def Awaits (timer : Option Instant) (loss_delay : Nat) (pkt : SentPacket) : Prop :=
  ∃ t ∈ timer, t ≤ pkt.time_sent + loss_delay

instance (timer : Option Instant) (loss_delay : Nat) (pkt : SentPacket) :
    Decidable (Awaits timer loss_delay pkt) :=
  decidable_of_iff (timer.any (· ≤ pkt.time_sent + loss_delay) = true)
    (by simp [Awaits, Option.any_eq_true])

/-- Every packet up to the largest acknowledged one is found lost exactly when it is, or the
timer awaits it. -/
def LeavesNoneBehind (ld : LossDetector) (level : Level) (tracker : SentPacketTracker)
    (now : Instant) : Prop :=
  ∀ largest_acked ∈ ld.largest_acked.get level, ∀ pkt ∈ below level largest_acked tracker,
    (IsLost largest_acked ld.loss_delay now pkt ↔
      pkt.pn ∈ (ld.detect_lost_packets level tracker now).1) ∧
    (¬IsLost largest_acked ld.loss_delay now pkt →
      Awaits ((ld.detect_lost_packets level tracker now).2.loss_time.get level) ld.loss_delay pkt)

/-! ## The scan -/

/-- What the scan looks at. -/
def found_lost (largest_acked lost_send_time : Nat) (pkt : SentPacket) : Bool :=
  largest_acked ≥ pkt.pn + PACKET_THRESHOLD ∨ pkt.time_sent ≤ lost_send_time

/-- The scan finds the lost packets in their order, 64 of them at most. -/
theorem lost_scan_found (largest_acked loss_delay lost_send_time : Nat) (entries : List SentPacket)
    (lost : List Nat) (loss_time : Option Instant) (h : lost.length ≤ 64) :
    (lost_scan largest_acked loss_delay lost_send_time entries lost loss_time).1 =
      (lost ++ (entries.filter (found_lost largest_acked lost_send_time)).map (·.pn)).take 64 := by
  induction entries generalizing lost loss_time with
  | nil => simp [lost_scan, List.take_of_length_le h]
  | cons pkt rest ih =>
    unfold lost_scan
    split
    · rename_i hlost
      have hfound : found_lost largest_acked lost_send_time pkt = true := decide_eq_true hlost
      rw [List.filter_cons_of_pos hfound, List.map_cons]
      split
      · rename_i hfull
        exact (List.take_left' (Nat.le_antisymm h hfull)).symm
      · rw [ih _ _ (by simp; omega), List.append_assoc, List.singleton_append]
    · rename_i hlost
      have hfound : ¬found_lost largest_acked lost_send_time pkt = true := by
        simpa [found_lost] using hlost
      rw [List.filter_cons_of_neg hfound]
      exact ih _ _ h

/-- A timer that is set never moves to a later time. -/
theorem lost_scan_timer_le (largest_acked loss_delay lost_send_time : Nat)
    (entries : List SentPacket) (lost : List Nat) {loss_time : Option Instant} {t : Instant}
    (h : ∃ t' ∈ loss_time, t' ≤ t) :
    ∃ t' ∈ (lost_scan largest_acked loss_delay lost_send_time entries lost loss_time).2, t' ≤ t := by
  induction entries generalizing lost loss_time with
  | nil => exact h
  | cons pkt rest ih =>
    unfold lost_scan
    split
    · split
      · exact h
      · exact ih _ h
    · obtain ⟨t', ht', hle⟩ := h
      cases ht'
      exact ih _ ⟨_, rfl, Nat.le_trans (Nat.min_le_left _ _) hle⟩

/-- The scan awaits every packet it comes to before it is cut short and does not find lost. -/
theorem lost_scan_awaits (largest_acked loss_delay lost_send_time : Nat) {before : List SentPacket}
    {pkt : SentPacket} (after : List SentPacket) (lost : List Nat) (loss_time : Option Instant)
    (h : lost.length + (before.filter (found_lost largest_acked lost_send_time)).length ≤ 64)
    (hkept : found_lost largest_acked lost_send_time pkt = false) :
    Awaits (lost_scan largest_acked loss_delay lost_send_time (before ++ pkt :: after) lost
      loss_time).2 loss_delay pkt := by
  induction before generalizing lost loss_time with
  | nil =>
    rw [List.nil_append, lost_scan, if_neg (of_decide_eq_false hkept)]
    refine lost_scan_timer_le _ _ _ _ _ ⟨_, rfl, ?_⟩
    cases loss_time with
    | none => exact Nat.le_refl _
    | some t => exact Nat.min_le_right _ _
  | cons first rest ih =>
    rw [List.cons_append, lost_scan]
    by_cases hlost : found_lost largest_acked lost_send_time first = true
    · rw [List.filter_cons_of_pos hlost, List.length_cons] at h
      rw [if_pos (of_decide_eq_true hlost), if_neg (by omega)]
      exact ih _ _ (by rw [List.length_append, List.length_singleton]; omega)
    · rw [List.filter_cons_of_neg hlost] at h
      rw [if_neg (of_decide_eq_false (Bool.not_eq_true _ ▸ hlost))]
      exact ih _ _ h

/-! ## Detection -/

theorem le_sub_iff {t d n : Nat} (h : 0 < t ∨ d ≤ n) : t ≤ n - d ↔ t + d ≤ n := by omega

/-- A packet sent at some time, or whose loss delay can have passed at all, is found lost exactly
when it is. -/
theorem found_lost_iff {largest_acked loss_delay : Nat} {now : Instant} {pkt : SentPacket}
    (h : 0 < pkt.time_sent ∨ loss_delay ≤ now) :
    found_lost largest_acked (now - loss_delay) pkt = true ↔ IsLost largest_acked loss_delay now pkt := by
  rw [found_lost, decide_eq_true_eq]
  exact or_congr Iff.rfl (le_sub_iff h)

/-- The packets of a level that are lost. -/
def lost_packets (ld : LossDetector) (level : Level) (largest_acked : Nat)
    (tracker : SentPacketTracker) (now : Instant) : List SentPacket :=
  (below level largest_acked tracker).filter fun pkt => IsLost largest_acked ld.loss_delay now pkt

/-- The packets sent one a millisecond. -/
def sent_at (i : Nat) : SentPacket where
  pn := i
  level := .Application
  time_sent := 1000 * (i + 1)
  size := 1200
  ack_eliciting := true
  in_flight := true

/-- The first 69 packets. -/
def burst : SentPacketTracker := ⟨(List.range 69).map sent_at⟩

/-- The packet after them is acknowledged. -/
def burst_acked : LossDetector := (LossDetector.new 25000).on_ack_received .Application 69

end LossDetector

end milli_http.transport
