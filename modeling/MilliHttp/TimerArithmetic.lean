-- The arithmetic of the timers. With the overflow checks of a debug build every deadline is what
-- it is without them, and the PTO backoff is raised only when its own deadline has passed: as
-- long as no loss timer is left behind that goes off before it, and no RTT sample is so long that
-- nine of it do not fit.
import MilliHttp.Connection.Updates
import MilliHttp.FrameCodec
import MilliHttp.Standin

open bytes method run

namespace milli_http.connection.timer_arithmetic

open crypto tls transport packet frame varint Connection LossDetector

variable {B : Build} {tracker : SentPacketTracker} {ld : LossDetector} {t : SentPacketTracker}
  {now : Instant} {c : Connection B}

/-! ## Arithmetic with overflow checks -/

/-- The sum of two 64-bit numbers, if it is one. -/
def checked_add (a b : Nat) : Option Nat := if a + b ≤ U64_MAX then some (a + b) else none

/-- The product of two 64-bit numbers, if it is one. -/
def checked_mul (a b : Nat) : Option Nat := if a * b ≤ U64_MAX then some (a * b) else none

theorem checked_add_eq {a b : Nat} (h : a + b ≤ U64_MAX) : checked_add a b = some (a + b) := if_pos h

theorem checked_mul_eq {a b : Nat} (h : a * b ≤ U64_MAX) : checked_mul a b = some (a * b) := if_pos h

/-- `pto_duration`, with overflow checks. -/
def checked_pto_duration (ld : LossDetector) : Option Nat := do
  let rttvar := if ld.smoothed_rtt.isSome then ld.rttvar else DEFAULT_INITIAL_RTT / 2
  let spread ← checked_mul 4 rttvar
  let pto ← checked_add ld.srtt (max spread GRANULARITY)
  checked_add pto ld.max_ack_delay

/-- `pto_timeout`, with overflow checks. -/
def checked_pto_timeout (ld : LossDetector) (tracker : SentPacketTracker) :
    Option (Option Instant) := do
  let pto_duration ← checked_pto_duration ld
  let backoff ← checked_mul 1 (2 ^ min ld.pto_count 62)
  let pto ← checked_mul pto_duration backoff
  if [Level.Initial, .Handshake, .Application].any tracker.has_ack_eliciting_in_flight then
    match LossDetector.most_recent ld.time_of_last_ack_eliciting with
    | none => some none
    | some t => (checked_add t pto).map some
  else some none

/-- `next_timeout`, with overflow checks. -/
def checked_next_timeout (ld : LossDetector) (tracker : SentPacketTracker) :
    Option (Option Instant) := do
  let pto ← checked_pto_timeout ld tracker
  match LossDetector.earliest ld.loss_time, pto with
  | some l, some p => some (some (min l p))
  | some l, none => some (some l)
  | none, p => some p

/-- The scan of `detect_lost_packets`, with overflow checks. -/
def checked_lost_scan (largest_acked loss_delay lost_send_time : Nat) :
    List SentPacket → List Nat → Option Instant → Option (List Nat × Option Instant)
  | [], lost, loss_time => some (lost, loss_time)
  | pkt :: rest, lost, loss_time => do
    let threshold ← checked_add pkt.pn PACKET_THRESHOLD
    if largest_acked ≥ threshold ∨ pkt.time_sent ≤ lost_send_time then
      if lost.length ≥ 64 then some (lost, loss_time)
      else checked_lost_scan largest_acked loss_delay lost_send_time rest (lost ++ [pkt.pn]) loss_time
    else
      let deadline ← checked_add pkt.time_sent loss_delay
      checked_lost_scan largest_acked loss_delay lost_send_time rest lost
        (some (loss_time.elim deadline (min · deadline)))

/-- `detect_lost_packets`, with overflow checks. -/
def checked_detect_lost_packets (ld : LossDetector) (level : Level) (tracker : SentPacketTracker)
    (now : Instant) : Option (List Nat × LossDetector) :=
  match ld.largest_acked.get level with
  | none => some ([], ld)
  | some largest_acked => do
    let scaled ← checked_mul (max ld.srtt ld.latest_rtt) 9
    let loss_delay := max (scaled / 8) GRANULARITY
    let bound ← checked_add largest_acked 1
    let below := tracker.entries.filter fun p => p.level == level && p.pn < bound
    let (lost, loss_time) ←
      checked_lost_scan largest_acked loss_delay (now - loss_delay) below [] none
    some (lost, { ld with loss_time := ld.loss_time.set level loss_time })

/-! ## What the law says -/

/-- The detector as it is when an ACK has it look for lost packets. -/
def acked_detector (level : Level) (now : Instant) (ack : AckFrame) (ranges : List (Nat × Nat))
    (c : Connection B) : LossDetector :=
  let acked := (c.sent_tracker.on_ack_received level ack.largest_ack ack.first_ack_range ranges).1
  let ld := c.loss_detector.on_ack_received level ack.largest_ack
  match acked.largest_newly_acked with
  | none => ld
  | some largest =>
    let ld := if largest.time_sent > 0 ∧ now ≥ largest.time_sent then
        ld.update_rtt (now - largest.time_sent) ack.ack_delay
          (decide (c.state = ConnectionState.Active))
      else ld
    ld.reset_pto_count

/-- The packets it looks through. -/
def acked_tracker (level : Level) (ack : AckFrame) (ranges : List (Nat × Nat)) (c : Connection B) :
    SentPacketTracker :=
  (c.sent_tracker.on_ack_received level ack.largest_ack ack.first_ack_range ranges).2

/-- A step that raises the backoff is a timeout at which the PTO deadline has passed. -/
def RaisedInTime (c : Connection B) (s : Step) : Prop :=
  c.loss_detector.pto_count < (s.apply c).loss_detector.pto_count →
    match s with
    | .op (.handle_timeout now) =>
      ∃ deadline ∈ c.loss_detector.pto_timeout c.sent_tracker, deadline ≤ now
    | _ => False

instance (c : Connection B) (s : Step) : Decidable (RaisedInTime c s) := by
  unfold RaisedInTime
  refine @instDecidableForall _ _ inferInstance ?_
  split <;> infer_instance

/-- Lost packets are looked for without an overflow. -/
def DetectsExactly (c : Connection B) : Step → Prop
  | .dispatch level now (.Ack ack) =>
    match ack_range_pairs ack.ack_ranges.length ack.ack_ranges with
    | .error _ => True
    | .ok ranges =>
      let ld := acked_detector level now ack (ranges.take 16) c
      let tracker := acked_tracker level ack (ranges.take 16) c
      checked_detect_lost_packets ld level tracker now = some (ld.detect_lost_packets level tracker now)
  | _ => True

instance (c : Connection B) (s : Step) : Decidable (DetectsExactly c s) := by
  unfold DetectsExactly
  split
  · split <;> infer_instance
  · infer_instance

/-- The backoff was raised in time, lost packets were looked for without an overflow, and the next
deadline is there without one. -/
structure Sound (trace : List (Connection B × Step)) (c : Connection B) : Prop where
  raised : ∀ x ∈ trace, RaisedInTime x.1 x.2
  detected : ∀ x ∈ trace, DetectsExactly x.1 x.2
  deadline : checked_next_timeout c.loss_detector c.sent_tracker =
    some (c.loss_detector.next_timeout c.sent_tracker)

/-- The time of a step. -/
def time_of : Step → Instant
  | .arrive _ now | .dispatch _ now _ => now
  | .op (.poll_transmit _ now) | .op (.handle_timeout now) => now
  | _ => 0

/-- The clock is below 2^62 microseconds. -/
def Early (s : Step) : Prop := time_of s < 2 ^ 62

/-- The longest RTT that fits 64 bits nine times. -/
def MAX_RTT : Nat := U64_MAX / 9

/-- A timeout that gets as far as the loss detector finds no loss timer that has gone off before
the PTO deadline has passed, and no RTT sample is out of range. -/
def Tame (c : Connection B) : Step → Prop
  | .op (.handle_timeout now) =>
    c.state ≠ .Draining → c.idle_timeout.any (now - c.last_activity ≥ ·) = false →
      (∃ t ∈ LossDetector.earliest c.loss_detector.loss_time, t ≤ now) →
        ∃ deadline ∈ c.loss_detector.pto_timeout c.sent_tracker, deadline ≤ now
  | .dispatch level now (.Ack ack) =>
    match ack_range_pairs ack.ack_ranges.length ack.ack_ranges with
    | .error _ => True
    | .ok ranges =>
      ∀ largest ∈ (c.sent_tracker.on_ack_received level ack.largest_ack ack.first_ack_range
          (ranges.take 16)).1.largest_newly_acked,
        largest.time_sent > 0 → now - largest.time_sent ≤ MAX_RTT
  | _ => True

instance (c : Connection B) (s : Step) : Decidable (Tame c s) := by
  unfold Tame
  split
  · infer_instance
  · split <;> infer_instance
  · infer_instance

instance (s : Step) : Decidable (Early s) := inferInstanceAs (Decidable (_ < _))

/-! ## What is in range -/

/-- The times and the estimates are in range. -/
structure Timely (tracker : SentPacketTracker) (ld : LossDetector) : Prop where
  sent : ∀ pkt ∈ tracker.entries, pkt.time_sent < 2 ^ 62
  last : ∀ level, ∀ t ∈ ld.time_of_last_ack_eliciting.get level, t < 2 ^ 62
  acked : ∀ level, ∀ pn ∈ ld.largest_acked.get level, pn ≤ MAX_VARINT
  srtt : ld.srtt ≤ MAX_RTT
  rttvar : ld.rttvar ≤ MAX_RTT
  latest : ld.latest_rtt ≤ MAX_RTT
  delay : ld.max_ack_delay ≤ 2 ^ 61

/-- The backoff is off, or it has not left the clock behind by more than a factor of two. -/
def Backed (ld : LossDetector) : Prop :=
  ld.pto_count = 0 ∨ ld.pto_duration * 2 ^ ld.pto_count ≤ 2 ^ 63

theorem spread_le {srtt rttvar delay granularity most last : Nat} (hsrtt : srtt ≤ most)
    (hrttvar : rttvar ≤ most) (hsmall : granularity ≤ most) (hdelay : delay ≤ 2 ^ 61)
    (hmax : 5 * most + 2 ^ 61 ≤ last) :
    4 * rttvar ≤ last ∧ srtt + max (4 * rttvar) granularity ≤ last ∧
      srtt + max (4 * rttvar) granularity + delay ≤ last ∧
      granularity ≤ srtt + max (4 * rttvar) granularity + delay ∧
      srtt + max (4 * rttvar) granularity + delay ≤ 5 * most + 2 ^ 61 := by
  omega

/-- The PTO duration is there without an overflow, and at least a millisecond. -/
theorem pto_duration_exact
    (h : Timely tracker ld) : checked_pto_duration ld = some ld.pto_duration ∧
      GRANULARITY ≤ ld.pto_duration ∧ ld.pto_duration ≤ 5 * MAX_RTT + 2 ^ 61 := by
  have hrttvar : (if ld.smoothed_rtt.isSome then ld.rttvar else DEFAULT_INITIAL_RTT / 2) ≤
      MAX_RTT := by
    split
    · exact h.rttvar
    · unfold DEFAULT_INITIAL_RTT MAX_RTT U64_MAX
      omega
  have hsrtt := h.srtt
  have hdelay := h.delay
  have hmax : 5 * MAX_RTT + 2 ^ 61 ≤ U64_MAX := by decide
  have hsmall : GRANULARITY ≤ MAX_RTT := by decide
  unfold checked_pto_duration pto_duration
  generalize (if ld.smoothed_rtt.isSome then ld.rttvar else DEFAULT_INITIAL_RTT / 2) = rttvar
    at hrttvar
  obtain ⟨hspread, hsum, hall, hlow, hhigh⟩ := spread_le hsrtt hrttvar hsmall hdelay hmax
  dsimp only
  refine ⟨?_, hlow, hhigh⟩
  rw [checked_mul_eq hspread]
  dsimp only [Option.bind_eq_bind, Option.bind_some]
  rw [checked_add_eq hsum]
  dsimp only [Option.bind_some]
  exact checked_add_eq hall

/-- A time of the clock and a duration that leaves room for it do not overflow. -/
theorem fits {t d : Nat} (ht : t < 2 ^ 62) (hd : d ≤ 3 * 2 ^ 62) : t + d ≤ U64_MAX := by
  have hmax : 3 * 2 ^ 62 + 2 ^ 62 - 1 ≤ U64_MAX := by decide
  omega

/-- With the backoff, the PTO leaves room for any time of the clock. -/
theorem pto_le (h : Timely tracker ld)
    (hbacked : Backed ld) : ld.pto_duration * 2 ^ min ld.pto_count 62 ≤ 3 * 2 ^ 62 := by
  rcases hbacked with hzero | hbacked
  · obtain ⟨-, -, hle⟩ := pto_duration_exact h
    have hmax : 5 * MAX_RTT + 2 ^ 61 ≤ 3 * 2 ^ 62 := by decide
    rw [hzero, Nat.zero_min, Nat.pow_zero, Nat.mul_one]
    exact Nat.le_trans hle hmax
  · have hpow : 2 ^ min ld.pto_count 62 ≤ 2 ^ ld.pto_count :=
      Nat.pow_le_pow_right (by decide) (Nat.min_le_left _ _)
    have hmul := Nat.mul_le_mul_left ld.pto_duration hpow
    omega

theorem latest_mem (ts : List (Option Instant)) (best : Option Instant) {t : Instant}
    (h : t ∈ ts.foldl (fun best t =>
      match best, t with
      | none, t => t
      | best, none => best
      | some b, some t => some (max b t)) best) : t ∈ best ∨ some t ∈ ts := by
  induction ts generalizing best with
  | nil => exact .inl h
  | cons x rest ih =>
    rcases ih _ h with h | h
    · rcases best with _ | b <;> rcases x with _ | x
      · cases h
      · exact .inr (h ▸ List.mem_cons_self)
      · exact .inl h
      · rcases Nat.le_total b x with hle | hle
        · refine .inr (List.mem_cons.mpr (.inl ?_))
          rw [← Nat.max_eq_right hle]
          exact h.symm
        · refine .inl ?_
          rw [← Nat.max_eq_left hle]
          exact h
    · exact .inr (List.mem_cons_of_mem _ h)

theorem most_recent_mem {ts : PerLevel (Option Instant)} {t : Instant}
    (h : t ∈ most_recent ts) : ∃ level, t ∈ ts.get level := by
  rcases latest_mem _ _ h with h | h
  · cases h
  · simp only [List.mem_cons, List.not_mem_nil, or_false] at h
    rcases h with h | h | h
    · exact ⟨.Initial, h.symm⟩
    · exact ⟨.Handshake, h.symm⟩
    · exact ⟨.Application, h.symm⟩

theorem next_timeout_exact (h : Timely tracker ld) (hbacked : Backed ld) :
    checked_next_timeout ld tracker = some (ld.next_timeout tracker) := by
  obtain ⟨hduration, -, -⟩ := pto_duration_exact h
  have hpto := pto_le h hbacked
  have hbackoff : 1 * 2 ^ min ld.pto_count 62 ≤ U64_MAX := by
    have hpow : 2 ^ min ld.pto_count 62 ≤ 2 ^ 62 :=
      Nat.pow_le_pow_right (by decide) (Nat.min_le_right _ _)
    have hmax : 2 ^ 62 ≤ U64_MAX := by decide
    omega
  have hroom : ld.pto_duration * 2 ^ min ld.pto_count 62 ≤ U64_MAX :=
    Nat.le_trans hpto (by decide)
  have htimeout : checked_pto_timeout ld tracker = some (ld.pto_timeout tracker) := by
    unfold checked_pto_timeout pto_timeout
    rw [hduration, checked_mul_eq hbackoff, Nat.one_mul]
    dsimp only [Option.bind_eq_bind, Option.bind_some]
    rw [checked_mul_eq hroom]
    dsimp only [Option.bind_some]
    split
    · cases hlast : most_recent ld.time_of_last_ack_eliciting with
      | none => rfl
      | some t =>
        obtain ⟨level, hlevel⟩ := most_recent_mem hlast
        dsimp only
        rw [checked_add_eq (fits (h.last level t hlevel) hpto)]
        rfl
    · rfl
  unfold checked_next_timeout LossDetector.next_timeout
  rw [htimeout]
  dsimp only [Option.bind_eq_bind, Option.bind_some]
  cases earliest ld.loss_time <;> cases ld.pto_timeout tracker <;> rfl

theorem lost_scan_exact (largest_acked : Nat) {loss_delay : Nat} (lost_send_time : Nat)
    (entries : List SentPacket) (lost : List Nat) (loss_time : Option Instant)
    (h : ∀ pkt ∈ entries, pkt.pn + PACKET_THRESHOLD ≤ U64_MAX ∧
      pkt.time_sent + loss_delay ≤ U64_MAX) :
    checked_lost_scan largest_acked loss_delay lost_send_time entries lost loss_time =
      some (lost_scan largest_acked loss_delay lost_send_time entries lost loss_time) := by
  induction entries generalizing lost loss_time with
  | nil => rfl
  | cons pkt rest ih =>
    obtain ⟨hpn, htime⟩ := h pkt List.mem_cons_self
    have hrest := fun lost loss_time =>
      ih lost loss_time fun pkt hpkt => h pkt (List.mem_cons_of_mem _ hpkt)
    unfold checked_lost_scan lost_scan
    rw [checked_add_eq hpn]
    dsimp only [Option.bind_eq_bind, Option.bind_some]
    split
    · split
      · rfl
      · exact hrest _ _
    · rw [checked_add_eq htime]
      exact hrest _ _

theorem detect_exact (h : Timely tracker ld) (level : Level) (now : Instant) :
    checked_detect_lost_packets ld level tracker now =
      some (ld.detect_lost_packets level tracker now) := by
  unfold checked_detect_lost_packets detect_lost_packets
  cases hlargest : ld.largest_acked.get level with
  | none => rfl
  | some largest_acked =>
    have hacked := h.acked level largest_acked hlargest
    have hrtt : max ld.srtt ld.latest_rtt ≤ MAX_RTT := Nat.max_le.mpr ⟨h.srtt, h.latest⟩
    have hmax : MAX_RTT * 9 ≤ U64_MAX := by decide
    have hvarint : MAX_VARINT + 1 + PACKET_THRESHOLD ≤ U64_MAX := by decide
    have hscaled : max ld.srtt ld.latest_rtt * 9 ≤ U64_MAX := by omega
    have hdelay : max (max ld.srtt ld.latest_rtt * 9 / 8) GRANULARITY ≤ 2 ^ 61 := by
      have hmost : U64_MAX / 8 ≤ 2 ^ 61 := by decide
      have hsmall : GRANULARITY ≤ 2 ^ 61 := by decide
      omega
    dsimp only
    rw [checked_mul_eq hscaled]
    dsimp only [Option.bind_eq_bind, Option.bind_some]
    rw [checked_add_eq (by omega)]
    dsimp only [Option.bind_some]
    rw [lost_scan_exact]
    · rfl
    · intro pkt hpkt
      obtain ⟨hmem, hbelow⟩ := List.mem_filter.mp hpkt
      obtain ⟨-, hpn⟩ := Bool.and_eq_true_iff.mp hbelow
      have hpn : pkt.pn < largest_acked + 1 := of_decide_eq_true hpn
      exact ⟨by omega, fits (h.sent pkt hmem) (Nat.le_trans hdelay (by decide))⟩

/-! ## Acknowledgements -/

theorem acked_tracker_subset (level : Level) (ack : AckFrame) (ranges : List (Nat × Nat))
    (c : Connection B) : (acked_tracker level ack ranges c).entries ⊆ c.sent_tracker.entries :=
  fun _ hpkt => (drain_perm _ _ 0 _).subset (List.mem_append_right _ hpkt)

theorem remove_lost_subset (level : Level) (now : Instant) (lost : List Nat)
    (s : SentPacketTracker × CongestionController) :
    (remove_lost level now lost s).1.entries ⊆ s.1.entries := by
  induction lost generalizing s with
  | nil => exact List.Subset.refl _
  | cons pn rest ih =>
    obtain ⟨t, cc⟩ := s
    unfold remove_lost
    rcases t.remove_cases level pn with hnone | ⟨pkt, -, -, hsome, hperm⟩
    · rw [hnone]
      exact ih _
    · rcases hr : t.remove level pn with ⟨removed, t'⟩
      rw [hr] at hsome hperm
      dsimp only at hsome hperm
      subst hsome
      exact fun x hx => hperm.subset (List.mem_cons_of_mem _ (ih _ hx))

theorem Timely.subset {t t' : SentPacketTracker} (h : Timely t ld)
    (hsub : t'.entries ⊆ t.entries) : Timely t' ld :=
  { h with sent := fun pkt hpkt => h.sent pkt (hsub hpkt) }

theorem Timely.loss_time (h : Timely t ld)
    (loss_time : PerLevel (Option Instant)) : Timely t { ld with loss_time } := { h with }

theorem detect_timer (ld : LossDetector) (level : Level) (t : SentPacketTracker) (now : Instant) :
    ∃ loss_time, (ld.detect_lost_packets level t now).2 = { ld with loss_time } := by
  unfold detect_lost_packets
  split
  · exact ⟨_, rfl⟩
  · exact ⟨_, rfl⟩

/-- The average of estimates is none longer than they are. -/
theorem smoothed_le {srtt rttvar latest adjusted most : Nat} (hsrtt : srtt ≤ most)
    (hrttvar : rttvar ≤ most) (hlatest : latest ≤ most) (hadjusted : adjusted ≤ latest) :
    (7 * srtt + adjusted) / 8 ≤ most ∧
      (3 * rttvar + ((srtt - adjusted) + (adjusted - srtt))) / 4 ≤ most := by
  omega

/-- A sample in range keeps the estimates in range. -/
theorem update_rtt_timely (h : Timely t ld)
    {latest_rtt : Nat} (hlatest : latest_rtt ≤ MAX_RTT) (ack_delay : Nat) (confirmed : Bool) :
    Timely t (ld.update_rtt latest_rtt ack_delay confirmed) := by
  have hsrtt := h.srtt
  unfold srtt at hsrtt
  unfold update_rtt
  dsimp only
  cases hsmoothed : ld.smoothed_rtt with
  | none =>
    exact { h with
      srtt := hlatest
      rttvar := Nat.le_trans (Nat.div_le_self _ _) hlatest
      latest := hlatest }
  | some srtt =>
    rw [hsmoothed] at hsrtt
    generalize hadjusted : (if confirmed = true then _ else latest_rtt) = adjusted
    have hle : adjusted ≤ latest_rtt := by
      rw [← hadjusted]
      split
      · split <;> split <;> first | exact Nat.sub_le _ _ | exact Nat.le_refl _
      · exact Nat.le_refl _
    obtain ⟨hsrtt', hrttvar'⟩ := smoothed_le hsrtt h.rttvar hlatest hle
    exact { h with srtt := hsrtt', rttvar := hrttvar', latest := hlatest }

theorem on_ack_received_timely (h : Timely t ld)
    (level : Level) {largest_acked : Nat} (hlargest : largest_acked ≤ MAX_VARINT) :
    Timely t (ld.on_ack_received level largest_acked) := by
  have hset : Timely t { ld with
      largest_acked := ld.largest_acked.set level (some largest_acked) } :=
    { h with
      acked := fun level' pn hpn => by
        dsimp only at hpn
        by_cases hlevel : level' = level
        · subst hlevel
          rw [PerLevel.get_set_self] at hpn
          cases hpn
          exact hlargest
        · rw [PerLevel.get_set_ne _ _ hlevel] at hpn
          exact h.acked level' pn hpn }
  unfold on_ack_received
  split
  · exact hset
  · split
    · exact hset
    · exact h

theorem on_ack_received_parts (ld : LossDetector) (level : Level) (largest_acked : Nat) :
    (ld.on_ack_received level largest_acked).pto_count = ld.pto_count ∧
      (ld.on_ack_received level largest_acked).pto_duration = ld.pto_duration := by
  unfold on_ack_received
  split
  · exact ⟨rfl, rfl⟩
  · split <;> exact ⟨rfl, rfl⟩

/-- What the detector keeps while it learns of an acknowledgement. -/
theorem acked_detector_sound {level : Level} {ack : AckFrame}
    {ranges : List (Nat × Nat)} (h : Timely c.sent_tracker c.loss_detector)
    (hbacked : Backed c.loss_detector) (hlargest : ack.largest_ack ≤ MAX_VARINT)
    (hsample : ∀ largest ∈ (c.sent_tracker.on_ack_received level ack.largest_ack
        ack.first_ack_range ranges).1.largest_newly_acked,
      largest.time_sent > 0 → now - largest.time_sent ≤ MAX_RTT) :
    Timely c.sent_tracker (acked_detector level now ack ranges c) ∧
      Backed (acked_detector level now ack ranges c) ∧
      (acked_detector level now ack ranges c).pto_count ≤ c.loss_detector.pto_count := by
  have hlearnt := on_ack_received_timely h level hlargest
  obtain ⟨hcount, hduration⟩ :=
    on_ack_received_parts c.loss_detector level ack.largest_ack
  unfold acked_detector
  dsimp only
  generalize (c.sent_tracker.on_ack_received level ack.largest_ack ack.first_ack_range
    ranges).1.largest_newly_acked = largest at hsample ⊢
  cases largest with
  | none =>
    refine ⟨hlearnt, ?_, Nat.le_of_eq hcount⟩
    unfold Backed
    rw [hcount, hduration]
    exact hbacked
  | some largest =>
    refine ⟨?_, .inl rfl, Nat.zero_le _⟩
    dsimp only
    split
    · rename_i hsent
      exact { update_rtt_timely hlearnt (hsample largest rfl hsent.1) ack.ack_delay _ with }
    · exact { hlearnt with }

/-! ## The steps -/

/-- What holds of the loss recovery throughout a run. -/
structure InRange (c : Connection B) : Prop where
  timely : Timely c.sent_tracker c.loss_detector
  backed : Backed c.loss_detector

/-- The backoff is not raised, and everything stays in range. -/
structure Calm (c c' : Connection B) : Prop where
  lowers : c'.loss_detector.pto_count ≤ c.loss_detector.pto_count
  keeps : InRange c → InRange c'

instance : IsPreorder (Connection B) Calm where
  refl _ := ⟨Nat.le_refl _, id⟩
  trans _ _ _ h h' := ⟨Nat.le_trans h'.lowers h.lowers, h'.keeps ∘ h.keeps⟩

/-- What touches neither the tracker nor the detector leaves them in range. -/
theorem Calm.of_same {c c' : Connection B} (htracker : c'.sent_tracker = c.sent_tracker)
    (hdetector : c'.loss_detector = c.loss_detector) : Calm c c' where
  lowers := Nat.le_of_eq (by rw [hdetector])
  keeps h := ⟨by rw [htracker, hdetector]; exact h.timely, by rw [hdetector]; exact h.backed⟩

theorem calm_data : Connection.KeptByData (B := B) Calm where
  streams _ _ := .of_same rfl rfl
  received _ _ := .of_same rfl rfl
  max_data _ _ := .of_same rfl rfl
  max_streams _ _ _ := .of_same rfl rfl
  max_data_sent _ := .of_same rfl rfl
  sio _ _ := .of_same rfl rfl
  path_response _ _ := .of_same rfl rfl

theorem calm_keys : Connection.KeptByKeys (B := B) Calm where
  remote_cid _ _ := .of_same rfl rfl
  keys _ _ := .of_same rfl rfl
  slot _ _ := .of_same rfl rfl

theorem push_event_same (event : Event) (c : Connection B) :
    (c.push_event event).sent_tracker = c.sent_tracker ∧
      (c.push_event event).loss_detector = c.loss_detector := by
  unfold Connection.push_event
  split <;> exact ⟨rfl, rfl⟩

theorem drop_space_timely (h : Timely t ld)
    (level : Level) : Timely (t.drop_space level) (ld.drop_space level) := by
  have hnone : ∀ {a : PerLevel (Option Nat)} {level' : Level} {n : Nat},
      n ∈ (a.set level none).get level' → n ∈ a.get level' := by
    intro a level' n hn
    by_cases hlevel : level' = level
    · subst hlevel
      rw [PerLevel.get_set_self] at hn
      cases hn
    · rwa [PerLevel.get_set_ne _ _ hlevel] at hn
  exact { h with
    sent := fun pkt hpkt =>
      h.sent pkt ((drain_perm _ _ 0 _).subset (List.mem_append_right _ hpkt))
    last := fun level' t ht => h.last level' t (hnone ht)
    acked := fun level' pn hpn => h.acked level' pn (hnone hpn) }

theorem record_same (pr : PacketResult) (c : Connection B) :
    (record_packet pr c).sent_tracker = c.sent_tracker ∧
      (record_packet pr c).loss_detector = c.loss_detector := by
  unfold record_packet track_received_pn
  split <;> exact ⟨rfl, rfl⟩

theorem calm_shifts : Connection.KeptByShifts (B := B) Calm where
  toKeptByData := calm_data
  toKeptByKeys := calm_keys
  draining _ := .of_same rfl rfl
  pushed event c _ := .of_same (push_event_same event c).1 (push_event_same event c).2
  connected _ _ := .of_same (push_event_same .Connected _).1 (push_event_same .Connected _).2
  drop_space level _ :=
    { lowers := Nat.le_refl _
      keeps := fun h => ⟨drop_space_timely h.timely level, h.backed⟩ }
  learn_peer_params _ _ := .of_same rfl rfl
  record pr c := .of_same (record_same pr c).1 (record_same pr c).2

theorem calm_requests : Connection.KeptByRequests (B := B) Calm where
  toKeptByData := calm_data
  polled _ := .of_same rfl rfl
  close _ _ _ := .of_same rfl rfl
  key_update := Method.keeps_on fun _ => .of_same rfl rfl

theorem packet_sent_calm (hnow : now < 2 ^ 62) (level : Level) (size : Nat)
    (ack_eliciting in_flight : Bool) (c : Connection B) :
    Calm c (c.packet_sent level size ack_eliciting in_flight now) := by
  refine ⟨?_, fun h => ⟨?_, ?_⟩⟩
  · unfold Connection.packet_sent
    cases ack_eliciting <;> exact Nat.le_refl _
  · have hsent : Timely (c.packet_sent level size ack_eliciting in_flight now).sent_tracker
        c.loss_detector :=
      { h.timely with
        sent := fun pkt hpkt => by
          simp only [Connection.packet_sent, SentPacketTracker.on_packet_sent] at hpkt
          split at hpkt
          · exact h.timely.sent pkt hpkt
          · rcases List.mem_append.mp hpkt with hpkt | hpkt
            · exact h.timely.sent pkt hpkt
            · rw [List.mem_singleton.mp hpkt]
              exact hnow }
    cases ack_eliciting with
    | false => exact hsent
    | true =>
      exact { hsent with
        last := fun level' t ht => by
          simp only [Connection.packet_sent, on_ack_eliciting_sent, if_true] at ht
          by_cases hlevel : level' = level
          · subst hlevel
            rw [PerLevel.get_set_self] at ht
            cases ht
            exact hnow
          · rw [PerLevel.get_set_ne _ _ hlevel] at ht
            exact h.timely.last level' t ht }
  · unfold Connection.packet_sent
    cases ack_eliciting <;> exact h.backed

theorem calm_transmit (hnow : now < 2 ^ 62) : Connection.KeptByTransmitAt (B := B) now Calm where
  toKeptByDrain := .of_parts calm_data calm_keys (fun _ => .of_same rfl rfl)
    (fun _ _ => .of_same rfl rfl) (fun _ _ => .of_same rfl rfl) (fun _ _ => .of_same rfl rfl)
  sent_at := packet_sent_calm hnow
  emitted_at _ _ := .of_same rfl rfl

theorem arrive_calm (len : Nat) (now : Instant) (c : Connection B) : Calm c (arrive len now c) := by
  unfold arrive
  dsimp only
  split <;> exact .of_same rfl rfl

/-- A timeout raises the backoff if a deadline of the loss detector has passed. -/
theorem handle_timeout_cases (c : Connection B) (now : Instant) :
    ((c.handle_timeout now).loss_detector = c.loss_detector ∧
      (c.handle_timeout now).sent_tracker = c.sent_tracker) ∨
    (c.state ≠ .Draining ∧ c.idle_timeout.any (now - c.last_activity ≥ ·) = false ∧
      (∃ t ∈ c.loss_detector.next_timeout c.sent_tracker, t ≤ now) ∧
      (c.handle_timeout now).loss_detector = c.loss_detector.on_pto ∧
      (c.handle_timeout now).sent_tracker = c.sent_tracker) := by
  unfold Connection.handle_timeout
  split
  · split <;> exact .inl ⟨rfl, rfl⟩
  · rename_i hdraining
    split
    · exact .inl ⟨(push_event_same _ _).2, (push_event_same _ _).1⟩
    · rename_i hidle
      split
      · rename_i hpto
        obtain ⟨t, ht, hle⟩ := (Option.any_eq_true _ _).mp hpto
        exact .inr ⟨hdraining, Bool.eq_false_iff.mpr hidle, ⟨t, ht, of_decide_eq_true hle⟩, rfl, rfl⟩
      · exact .inl ⟨rfl, rfl⟩

theorem next_timeout_cases {t : Instant} (h : t ∈ ld.next_timeout tracker) :
    t ∈ earliest ld.loss_time ∨ t ∈ ld.pto_timeout tracker := by
  unfold LossDetector.next_timeout at h
  cases hloss : earliest ld.loss_time with
  | none =>
    rw [hloss] at h
    cases hpto : ld.pto_timeout tracker <;> rw [hpto] at h <;> exact .inr h
  | some l =>
    rw [hloss] at h
    cases hpto : ld.pto_timeout tracker with
    | none =>
      rw [hpto] at h
      exact .inl h
    | some p =>
      rw [hpto] at h
      cases h
      rcases Nat.le_total l p with hle | hle
      · exact .inl (congrArg some (Nat.min_eq_left hle).symm)
      · exact .inr (congrArg some (Nat.min_eq_right hle).symm)

theorem backoff_le {duration count pto : Nat} (hduration : GRANULARITY ≤ duration)
    (hpto : pto = duration * 2 ^ min count 62) (hlt : pto < 2 ^ 62) :
    duration * 2 ^ (count + 1) ≤ 2 ^ 63 := by
  have hcount : count < 62 := by
    by_contra hge
    rw [Nat.min_eq_right (Nat.le_of_not_lt hge)] at hpto
    have hmul := Nat.mul_le_mul_right (2 ^ 62) hduration
    unfold GRANULARITY at hmul
    omega
  rw [Nat.min_eq_left (Nat.le_of_lt hcount)] at hpto
  rw [Nat.pow_succ, ← Nat.mul_assoc, ← hpto]
  omega

/-- A backoff that is raised at the PTO deadline has not left the clock behind. -/
theorem on_pto_backed (h : Timely tracker ld) (hnow : now < 2 ^ 62)
    (hdue : ∃ deadline ∈ ld.pto_timeout tracker, deadline ≤ now) : Backed ld.on_pto := by
  obtain ⟨deadline, hdeadline, hle⟩ := hdue
  obtain ⟨-, hduration, -⟩ := pto_duration_exact h
  unfold pto_timeout at hdeadline
  dsimp only at hdeadline
  split at hdeadline
  · obtain ⟨t, -, rfl⟩ := Option.map_eq_some_iff.mp hdeadline
    exact .inr (backoff_le hduration rfl
      (Nat.lt_of_le_of_lt (Nat.le_trans (Nat.le_add_left _ _) hle) hnow))
  · cases hdeadline

/-- A timeout that finds no loss timer gone off early raises the backoff only at the PTO
deadline, and keeps everything in range. -/
theorem handle_timeout_sound (h : InRange c)
    (hnow : now < 2 ^ 62) (htame : Tame c (.op (.handle_timeout now))) :
    InRange (c.handle_timeout now) ∧
      (c.loss_detector.pto_count < (c.handle_timeout now).loss_detector.pto_count →
        ∃ deadline ∈ c.loss_detector.pto_timeout c.sent_tracker, deadline ≤ now) := by
  rcases handle_timeout_cases c now with ⟨hdetector, htracker⟩ |
    ⟨hdraining, hidle, ⟨t, ht, hle⟩, hdetector, htracker⟩
  · refine ⟨(Calm.of_same htracker hdetector).keeps h, fun hlt => ?_⟩
    rw [hdetector] at hlt
    exact absurd hlt (Nat.lt_irrefl _)
  · have hdue : ∃ deadline ∈ c.loss_detector.pto_timeout c.sent_tracker, deadline ≤ now := by
      rcases next_timeout_cases ht with hloss | hpto
      · exact htame hdraining hidle ⟨t, hloss, hle⟩
      · exact ⟨t, hpto, hle⟩
    refine ⟨⟨?_, ?_⟩, fun _ => hdue⟩
    · rw [hdetector, htracker]
      exact { h.timely with }
    · rw [hdetector]
      exact on_pto_backed h.timely hnow hdue

/-- An acknowledgement in range looks for lost packets without an overflow, does not raise the
backoff, and keeps everything in range. -/
theorem on_ack_sound {level : Level} {ack : AckFrame} {ranges : List (Nat × Nat)}
    (h : InRange c) (hlargest : ack.largest_ack ≤ MAX_VARINT)
    (hsample : ∀ largest ∈ (c.sent_tracker.on_ack_received level ack.largest_ack
        ack.first_ack_range ranges).1.largest_newly_acked,
      largest.time_sent > 0 → now - largest.time_sent ≤ MAX_RTT) :
    InRange (on_ack level now ack ranges c) ∧
      (on_ack level now ack ranges c).loss_detector.pto_count ≤ c.loss_detector.pto_count ∧
      checked_detect_lost_packets (acked_detector level now ack ranges c) level
          (acked_tracker level ack ranges c) now =
        some ((acked_detector level now ack ranges c).detect_lost_packets level
          (acked_tracker level ack ranges c) now) := by
  obtain ⟨htimely, hbacked, hcount⟩ := acked_detector_sound h.timely h.backed hlargest hsample
  have hacked := htimely.subset (acked_tracker_subset level ack ranges c)
  obtain ⟨loss_time, htimer⟩ := detect_timer (acked_detector level now ack ranges c) level
    (acked_tracker level ack ranges c) now
  have hdetector : (on_ack level now ack ranges c).loss_detector =
      { acked_detector level now ack ranges c with loss_time } := htimer
  refine ⟨⟨?_, ?_⟩, ?_, detect_exact hacked level now⟩
  · rw [hdetector]
    exact (hacked.loss_time loss_time).subset (remove_lost_subset level now _ _)
  · rw [hdetector]
    exact hbacked
  · rw [hdetector]
    exact hcount

/-- The frame of a step acknowledges nothing past the largest number a frame can carry. -/
def Decoded (s : Step) : Prop :=
  ∀ level now ack, s = .dispatch level now (.Ack ack) → ack.largest_ack ≤ MAX_VARINT

theorem steps_decoded (c : Connection B) (cs : List Call) : ∀ s ∈ c.steps cs, Decoded s := by
  refine Connection.steps_forall ?_ ?_ ?_ c cs
  · rintro payload frame consumed _ _ hdecode level now ack heq
    cases heq
    exact decode_ack_bounded hdecode
  · rintro s hframe - level now ack rfl
    cases hframe
  · intro o level now ack heq
    cases heq

/-- An ACK frame whose ranges do not parse does nothing; of the others 16 ranges count. -/
theorem handle_ack_sound {level : Level} {ack : AckFrame}
    (h : InRange c) (hlargest : ack.largest_ack ≤ MAX_VARINT)
    (htame : Tame c (.dispatch level now (.Ack ack))) :
    InRange ((Step.dispatch level now (.Ack ack)).apply c) ∧
      RaisedInTime c (.dispatch level now (.Ack ack)) ∧
      DetectsExactly c (.dispatch level now (.Ack ack)) := by
  have hrun : (Step.dispatch level now (.Ack ack)).apply c =
      (handle_ack level now ack c).2 := rfl
  simp only [Tame] at htame
  simp only [DetectsExactly]
  unfold RaisedInTime
  rw [hrun]
  unfold handle_ack
  rw [Method.bind_run, Method.lift_run]
  cases hranges : ack_range_pairs ack.ack_ranges.length ack.ack_ranges with
  | error e => exact ⟨h, fun hlt => absurd hlt (Nat.lt_irrefl _), trivial⟩
  | ok ranges =>
    rw [hranges] at htame
    obtain ⟨hkept, hlowers, hexact⟩ := on_ack_sound h hlargest htame
    exact ⟨hkept, fun hlt => absurd hlt (Nat.not_lt_of_le hlowers), hexact⟩

theorem detects_other {s : Step}
    (hack : ∀ level now ack, s ≠ .dispatch level now (.Ack ack)) : DetectsExactly c s := by
  unfold DetectsExactly
  split
  · exact absurd rfl (hack _ _ _)
  · trivial

theorem step_sound {s : Step} (h : InRange c) (hdecoded : Decoded s)
    (hearly : Early s) (htame : Tame c s) :
    InRange (s.apply c) ∧ RaisedInTime c s ∧ DetectsExactly c s := by
  have hcalm : Calm c (s.apply c) → (∀ level now ack, s ≠ .dispatch level now (.Ack ack)) →
      InRange (s.apply c) ∧ RaisedInTime c s ∧ DetectsExactly c s := fun hcalm hack =>
    ⟨hcalm.keeps h, fun hlt => absurd hlt (Nat.not_lt_of_le hcalm.lowers), detects_other hack⟩
  by_cases hop : ∃ o, s = .op o
  · obtain ⟨o, rfl⟩ := hop
    by_cases htimeout : ∃ now, o = .handle_timeout now
    · obtain ⟨now, rfl⟩ := htimeout
      obtain ⟨hkept, hraised⟩ := handle_timeout_sound h hearly htame
      exact ⟨hkept, hraised, trivial⟩
    · refine hcalm ?_ nofun
      by_cases htransmit : ∃ buf_len now, o = .poll_transmit buf_len now
      · obtain ⟨buf_len, now, rfl⟩ := htransmit
        exact (calm_transmit hearly).poll_transmit buf_len c
      · exact calm_requests.op (fun buf_len now heq => htransmit ⟨buf_len, now, heq⟩)
          (fun now heq => htimeout ⟨now, heq⟩) c
  · by_cases hack : ∃ level now ack, s = .dispatch level now (.Ack ack)
    · obtain ⟨level, now, ack, rfl⟩ := hack
      exact handle_ack_sound h (hdecoded level now ack rfl) htame
    · have hno : ∀ level now ack, s ≠ .dispatch level now (.Ack ack) :=
        fun level now ack heq => hack ⟨level, now, ack, heq⟩
      refine hcalm ?_ hno
      by_cases harrive : ∃ len now, s = .arrive len now
      · obtain ⟨len, now, rfl⟩ := harrive
        exact arrive_calm len now c
      · exact calm_shifts.step (fun len now heq => harrive ⟨len, now, heq⟩)
          (fun o heq => hop ⟨o, heq⟩) hno c

/-! ## Every run -/

theorem started_in_range (h : Connection.Started c)
    (hdelay : c.loss_detector.max_ack_delay ≤ 2 ^ 61) : InRange c := by
  obtain ⟨role, keys, tls, local_cid, remote_cid, tp, rfl⟩ := h.fresh
  refine ⟨⟨nofun, ?_, ?_, ?_, Nat.zero_le _, Nat.zero_le _, hdelay⟩, .inl rfl⟩
  · intro level t ht
    cases level <;> cases ht
  · intro level pn hpn
    cases level <;> cases hpn
  · show DEFAULT_INITIAL_RTT ≤ MAX_RTT
    unfold DEFAULT_INITIAL_RTT MAX_RTT U64_MAX
    omega

/-- In a run whose clock is below 2^62, and in which no loss timer goes off before the PTO
deadline and no RTT sample is too long, the backoff is raised only when the PTO deadline has
passed, and the arithmetic of the timers never overflows. -/
theorem timers_are_sound {c : Connection B} (hstart : Connection.Started c)
    (hdelay : c.loss_detector.max_ack_delay ≤ 2 ^ 61) (cs : List Call)
    (hsteps : Along Step.apply (fun c s => Early s ∧ Tame c s) c (c.steps cs)) :
    Always Step.apply Sound c (c.steps cs) := by
  intro pre hpre
  have hok : Along Step.apply (fun c s => Decoded s ∧ Early s ∧ Tame c s) c pre := by
    intro x hx
    obtain ⟨before, hbefore, -⟩ := of_mem_trace hx
    refine ⟨steps_decoded c cs x.2 ?_, hsteps.upto hpre x hx⟩
    exact (hbefore.trans hpre).subset (List.mem_append_right _ (List.mem_singleton.mpr rfl))
  have hstart := started_in_range hstart hdelay
  have hstep : ∀ (c : Connection B) (s : Step), Decoded s ∧ Early s ∧ Tame c s → InRange c →
      InRange (s.apply c) :=
    fun c s hs h => (step_sound h hs.1 hs.2.1 hs.2.2).1
  have hkept := invariant hstep hok hstart
  have hat := invariant_at hstep hok hstart
  have hsound : ∀ x ∈ trace Step.apply c pre, RaisedInTime x.1 x.2 ∧ DetectsExactly x.1 x.2 :=
    fun x hx => (step_sound (hat x hx) (hok x hx).1 (hok x hx).2.1 (hok x hx).2.2).2
  exact ⟨fun x hx => (hsound x hx).1, fun x hx => (hsound x hx).2,
    next_timeout_exact hkept.timely hkept.backed⟩

/-! ## A run within the limits, and two that are not -/

open standin

/-- An acknowledgement of one packet. -/
def ack_of (pn : Nat) : AckFrame :=
  { largest_ack := pn, ack_delay := 0, first_ack_range := 0, ack_ranges := [], ecn := none }

/-- A client whose first packet is lost sends another at the PTO deadline, which the server
acknowledges at some later time. -/
def probed (now : Instant) : List Call :=
  [.op (.poll_transmit 1500 1), .op (.handle_timeout 1024001), .op (.poll_transmit 1500 1024001),
    .recv (initial_from_server [8, 7, 6, 5] 0 [.Ack (ack_of 1)]) 1500 now]

/-- The law while a client probes and is answered. -/
theorem probing_is_sound : Always Step.apply Sound (client .default_params)
    ((client .default_params).steps (probed 1100000)) :=
  timers_are_sound (client_started _) (by decide +kernel) _ (by decide +kernel)

/-- The server answers the probe ten seconds later, and the first packet is waited for until its
loss timer goes off. -/
def stale_timer : List Call := probed 11024001 ++ [.op (.handle_timeout 11250001)]

/-- The server answers after 2^61 microseconds. -/
def long_sample : List Call :=
  [.op (.poll_transmit 1500 1),
    .recv (initial_from_server [8, 7, 6, 5] 0 [.Ack (ack_of 0)]) 1500 (2 ^ 61 + 1)]

/-- The time of a call. -/
def clock : Call → Option Instant
  | .recv _ _ now | .op (.poll_transmit _ now) | .op (.handle_timeout now) => some now
  | _ => none

/-- With clocks that do not go back and stay below 2^62, a loss timer raises the backoff before
the PTO deadline, and an RTT sample overflows. -/
theorem timers_go_wrong :
    (stale_timer.filterMap clock).Pairwise (· ≤ ·) ∧
    (long_sample.filterMap clock).Pairwise (· ≤ ·) ∧
    Along Step.apply (fun _ s => Early s) (client .default_params)
      ((client .default_params).steps stale_timer) ∧
    Along Step.apply (fun _ s => Early s) (client .default_params)
      ((client .default_params).steps long_sample) ∧
    ¬Along Step.apply RaisedInTime (client .default_params)
      ((client .default_params).steps stale_timer) ∧
    ¬Along Step.apply DetectsExactly (client .default_params)
      ((client .default_params).steps long_sample) := by
  decide +kernel

end milli_http.connection.timer_arithmetic
