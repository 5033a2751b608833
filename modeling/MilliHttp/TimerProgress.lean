-- A caller that handles a timeout and polls for datagrams, over and over at one time, comes to a
-- later deadline or to a closed connection, and what a loss timer was set for is declared lost:
-- exactly while no loss timer has gone off. The deadline is that of the loss timers and of the PTO,
-- and only the PTO is looked after when it has passed.
import MilliHttp.TimerArithmetic

open bytes method run

namespace milli_http.connection.timer_progress

open crypto tls transport packet frame Connection timer_arithmetic

variable {B : Build} {c c' : Connection B} {now : Instant}

/-! ## What the law says -/

/-- One turn of a caller: a timeout is handled, and datagrams are polled for. -/
def turn (now : Instant) (bufs : List Nat) : List Step :=
  .op (.handle_timeout now) :: bufs.map fun buf_len => .op (.poll_transmit buf_len now)

/-- The first turns of a caller. -/
def turns (now : Instant) : (Nat → List Nat) → Nat → List Step
  | _, 0 => []
  | bufs, n + 1 => turn now (bufs 0) ++ turns now (fun i => bufs (i + 1)) n

/-- Closed, or the next deadline is later, and there without an overflow. -/
def Rests (now : Instant) (c : Connection B) : Prop :=
  c.state = .Closed ∨
    checked_next_timeout c.loss_detector c.sent_tracker =
        some (c.loss_detector.next_timeout c.sent_tracker) ∧
      ∀ t ∈ c.next_timeout, now < t

/-- A timeout gets as far as the loss detector. -/
def Due (now : Instant) (c : Connection B) : Prop :=
  c.state ≠ .Closed ∧ c.state ≠ .Draining ∧ c.idle_timeout.any (now - c.last_activity ≥ ·) = false

instance (now : Instant) (c : Connection B) : Decidable (Due now c) :=
  inferInstanceAs (Decidable (_ ∧ _))

/-- The turns come to rest, and where a loss timer has gone off its packets are declared lost. -/
structure Progresses (now : Instant) (c : Connection B) : Prop where
  rests : ∀ bufs, ∃ n, Rests now (c.after (turns now bufs n))
  declared : Due now c → ∀ level, ∀ t ∈ c.loss_detector.loss_time.get level, t ≤ now →
    t ∉ (c.handle_timeout now).loss_detector.loss_time.get level ∧
      ∀ pn ∈ (c.loss_detector.detect_lost_packets level c.sent_tracker now).1,
        ∀ pkt ∈ (c.handle_timeout now).sent_tracker.entries, pkt.level = level → pkt.pn ≠ pn

/-- No loss timer has gone off in a connection that has not been idle too long. -/
def Unexpired (now : Instant) (c : Connection B) : Prop :=
  Due now c → ∀ t ∈ LossDetector.earliest c.loss_detector.loss_time, now < t

instance (now : Instant) (c : Connection B) : Decidable (Unexpired now c) :=
  inferInstanceAs (Decidable (_ → _))

/-! ## The earliest loss timer -/

theorem earliest_mem {ts : PerLevel (Option Instant)} {t : Instant}
    (h : t ∈ LossDetector.earliest ts) : ∃ level, t ∈ ts.get level := by
  obtain ⟨initial, handshake, application⟩ := ts
  have hsome : initial = some t ∨ handshake = some t ∨ application = some t := by
    cases initial <;> cases handshake <;> cases application <;>
      simp only [LossDetector.earliest, List.foldl_cons, List.foldl_nil, Option.mem_def,
        Option.some.injEq, reduceCtorEq] at h ⊢ <;> grind
  rcases hsome with h | h | h
  · exact ⟨.Initial, h⟩
  · exact ⟨.Handshake, h⟩
  · exact ⟨.Application, h⟩

theorem earliest_le {ts : PerLevel (Option Instant)} {level : Level} {t : Instant}
    (h : t ∈ ts.get level) : ∃ e ∈ LossDetector.earliest ts, e ≤ t := by
  obtain ⟨initial, handshake, application⟩ := ts
  have hsome : initial = some t ∨ handshake = some t ∨ application = some t := by
    cases level
    · exact .inl h
    · exact .inr (.inl h)
    · exact .inr (.inr h)
  cases initial <;> cases handshake <;> cases application <;>
    simp only [LossDetector.earliest, List.foldl_cons, List.foldl_nil, Option.mem_def,
      Option.some.injEq, reduceCtorEq, exists_eq_left', false_or, or_false] at hsome ⊢ <;> grind

/-! ## What a turn does -/

/-- Polling for datagrams moves no timer of the loss detector and leaves the connection as it is,
or closes it. -/
structure Polled (c c' : Connection B) : Prop where
  state : c'.state = c.state ∨ c'.state = .Closed
  activity : c'.last_activity = c.last_activity
  idle : c'.idle_timeout = c.idle_timeout
  count : c'.loss_detector.pto_count = c.loss_detector.pto_count
  timers : c'.loss_detector.loss_time = c.loss_detector.loss_time

instance : IsPreorder (Connection B) Polled where
  refl _ := ⟨.inl rfl, rfl, rfl, rfl, rfl⟩
  trans _ _ _ h₁ h₂ :=
    ⟨h₂.state.elim (fun h => h₁.state.imp h.trans h.trans) .inr, h₂.activity.trans h₁.activity,
      h₂.idle.trans h₁.idle, h₂.count.trans h₁.count, h₂.timers.trans h₁.timers⟩

theorem Polled.of_same (hstate : c'.state = c.state)
    (hactivity : c'.last_activity = c.last_activity) (hidle : c'.idle_timeout = c.idle_timeout)
    (hdetector : c'.loss_detector = c.loss_detector) :
    Polled c c' :=
  ⟨.inl hstate, hactivity, hidle, by rw [hdetector], by rw [hdetector]⟩

theorem polled_data : Connection.KeptByData (B := B) Polled where
  streams _ _ := .of_same rfl rfl rfl rfl
  received _ _ := .of_same rfl rfl rfl rfl
  max_data _ _ := .of_same rfl rfl rfl rfl
  max_streams _ _ _ := .of_same rfl rfl rfl rfl
  max_data_sent _ := .of_same rfl rfl rfl rfl
  sio _ _ := .of_same rfl rfl rfl rfl
  path_response _ _ := .of_same rfl rfl rfl rfl

theorem polled_keys : Connection.KeptByKeys (B := B) Polled where
  remote_cid _ _ := .of_same rfl rfl rfl rfl
  keys _ _ := .of_same rfl rfl rfl rfl
  slot _ _ := .of_same rfl rfl rfl rfl

theorem polled_transmit : Connection.KeptByTransmit (B := B) Polled where
  toKeptByDrain := .of_parts polled_data polled_keys (fun _ => ⟨.inr rfl, rfl, rfl, rfl, rfl⟩)
    (fun _ _ => .of_same rfl rfl rfl rfl) (fun _ _ => .of_same rfl rfl rfl rfl)
    (fun _ _ => .of_same rfl rfl rfl rfl)
  sent level size ack_eliciting in_flight now c := by
    cases ack_eliciting <;> exact ⟨.inl rfl, rfl, rfl, rfl, rfl⟩
  emitted _ _ := .of_same rfl rfl rfl rfl

theorem after_append (c : Connection B) (as bs : List Step) :
    c.after (as ++ bs) = (c.after as).after bs := final_append

/-- After a turn the connection is what handling the timeout left, but for the polls. -/
theorem polled_turn (now : Instant) (bufs : List Nat) (c : Connection B) :
    Polled (c.handle_timeout now) (c.after (turn now bufs)) := by
  show Polled _ (final Step.apply (c.handle_timeout now) _)
  generalize c.handle_timeout now = c
  induction bufs generalizing c with
  | nil => exact refl c
  | cons buf_len bufs ih =>
    exact IsTrans.trans _ _ _ (polled_transmit.poll_transmit buf_len now c) (ih _)

/-- A timeout that gets as far as the loss detector counts a PTO if a deadline has passed, and
moves no timer. -/
theorem handle_timeout_due (h : Due now c) :
    (c.handle_timeout now).state = c.state ∧
      (c.handle_timeout now).last_activity = c.last_activity ∧
      (c.handle_timeout now).idle_timeout = c.idle_timeout ∧
      (c.handle_timeout now).loss_detector.loss_time = c.loss_detector.loss_time ∧
      (c.pto_expired now = true →
        (c.handle_timeout now).loss_detector.pto_count = c.loss_detector.pto_count + 1) := by
  obtain ⟨-, hdraining, hidle⟩ := h
  unfold Connection.handle_timeout
  rw [if_neg hdraining, if_neg (Bool.eq_false_iff.mp hidle)]
  split
  · exact ⟨rfl, rfl, rfl, rfl, fun _ => rfl⟩
  · rename_i hexpired
    exact ⟨rfl, rfl, rfl, rfl, fun h => absurd h hexpired⟩

/-- A turn that gets as far as the loss detector leaves the timers as they are, or closes the
connection. -/
theorem turn_due (h : Due now c) (bufs : List Nat) :
    (c.after (turn now bufs)).state = .Closed ∨
      Due now (c.after (turn now bufs)) ∧
        (c.after (turn now bufs)).loss_detector.loss_time = c.loss_detector.loss_time ∧
        (c.pto_expired now = true →
          (c.after (turn now bufs)).loss_detector.pto_count = c.loss_detector.pto_count + 1) := by
  obtain ⟨hstate, hactivity, hidle, htimers, hcount⟩ := handle_timeout_due h
  have hpolled := polled_turn now bufs c
  refine hpolled.state.symm.imp_right fun hstate' => ⟨?_, hpolled.timers.trans htimers,
    fun hexpired => hpolled.count.trans (hcount hexpired)⟩
  unfold Due
  rw [hstate', hstate, hpolled.activity, hactivity, hpolled.idle, hidle]
  exact h

/-! ## The next deadline -/

theorem next_timeout_of_due (h : Due now c) :
    c.next_timeout = match c.idle_timeout with
      | some idle => some ((c.loss_detector.next_timeout c.sent_tracker).elim
          (saturating_add c.last_activity idle) (min · (saturating_add c.last_activity idle)))
      | none => c.loss_detector.next_timeout c.sent_tracker := by
  obtain ⟨hclosed, hdraining, -⟩ := h
  unfold Connection.next_timeout
  split
  · exact absurd ‹_› hclosed
  · exact absurd ‹_› hdraining
  · rfl

theorem lt_saturating_add {now last period : Nat} (hnow : now < 2 ^ 62)
    (h : ¬ now - last ≥ period) : now < saturating_add last period :=
  Nat.lt_min.mpr ⟨by omega, Nat.lt_of_lt_of_le hnow (by decide)⟩

/-- A deadline that has passed, and is not that of the idle timeout, is one of the loss detector. -/
theorem pto_expired_of_deadline (h : Due now c) (hnow : now < 2 ^ 62) {t : Instant}
    (ht : t ∈ c.next_timeout) (hle : t ≤ now) : c.pto_expired now = true := by
  have hexpired : ∀ e ∈ c.loss_detector.next_timeout c.sent_tracker, e ≤ now →
      c.pto_expired now = true := fun e he hle =>
    (Option.any_eq_true _ _).mpr ⟨e, he, decide_eq_true hle⟩
  rw [next_timeout_of_due h] at ht
  cases hidle : c.idle_timeout with
  | none =>
    rw [hidle] at ht
    exact hexpired t ht hle
  | some idle =>
    have hearly := h.2.2
    rw [hidle] at ht hearly
    have hlast := lt_saturating_add hnow (of_decide_eq_false hearly)
    cases hnext : c.loss_detector.next_timeout c.sent_tracker with
    | none =>
      rw [hnext] at ht
      cases ht
      exact absurd hle (Nat.not_le_of_lt hlast)
    | some e =>
      rw [hnext] at ht
      cases ht
      refine hexpired e hnext ?_
      dsimp only [Option.elim_some] at hle
      rcases Nat.le_total e (saturating_add c.last_activity idle) with hmin | hmin
      · rwa [Nat.min_eq_left hmin] at hle
      · rw [Nat.min_eq_right hmin] at hle
        exact absurd hle (Nat.not_le_of_lt hlast)

/-- With the backoff at its limit the PTO is beyond any time of the clock. -/
theorem pto_beyond {tracker : SentPacketTracker} {ld : LossDetector} (h : Timely tracker ld)
    (hcount : 62 ≤ ld.pto_count) (hnow : now < 2 ^ 62) {t : Instant}
    (ht : t ∈ ld.pto_timeout tracker) : now < t := by
  obtain ⟨-, hduration, -⟩ := pto_duration_exact h
  have hmul := Nat.mul_le_mul_right (2 ^ 62) hduration
  unfold LossDetector.pto_timeout at ht
  dsimp only at ht
  rw [Nat.min_eq_right hcount] at ht
  split at ht
  · obtain ⟨sent, -, rfl⟩ := Option.map_eq_some_iff.mp ht
    have hmax : 2 ^ 62 ≤ GRANULARITY * 2 ^ 62 := by decide
    exact Nat.lt_of_lt_of_le hnow
      (Nat.le_trans hmax (Nat.le_trans hmul (Nat.le_add_left _ _)))
  · cases ht

/-! ## The turns of a caller -/

/-- A connection in range whose loss timers are all in the future. -/
structure Live (now : Instant) (c : Connection B) : Prop where
  due : Due now c
  timers : ∀ t ∈ LossDetector.earliest c.loss_detector.loss_time, now < t
  range : InRange c

theorem polls_in_range (hnow : now < 2 ^ 62) (bufs : List Nat) (h : InRange c) :
    InRange (final Step.apply c (bufs.map fun buf_len => .op (.poll_transmit buf_len now))) := by
  induction bufs generalizing c with
  | nil => exact h
  | cons buf_len bufs ih => exact ih (((calm_transmit hnow).poll_transmit buf_len c).keeps h)

/-- A turn goes on from there, or closes the connection. -/
theorem Live.turn (h : Live now c) (hnow : now < 2 ^ 62) (bufs : List Nat) :
    (c.after (turn now bufs)).state = .Closed ∨
      Live now (c.after (turn now bufs)) ∧
        (c.pto_expired now = true →
          (c.after (turn now bufs)).loss_detector.pto_count = c.loss_detector.pto_count + 1) := by
  have htame : Tame c (.op (.handle_timeout now)) := fun _ _ ⟨t, ht, hle⟩ =>
    absurd hle (Nat.not_le_of_lt (h.timers t ht))
  have hhandled := (handle_timeout_sound h.range hnow htame).1
  refine (turn_due h.due bufs).imp_right fun ⟨hdue, htimers, hcount⟩ => ⟨⟨hdue, ?_, ?_⟩, hcount⟩
  · rw [htimers]
    exact h.timers
  · exact polls_in_range hnow bufs hhandled

/-- If it does not rest, a deadline of the loss detector has passed. -/
theorem Live.expired (h : Live now c) (hnow : now < 2 ^ 62) (hrests : ¬ Rests now c) :
    c.pto_expired now = true := by
  by_contra hnot
  refine hrests (.inr ⟨next_timeout_exact h.range.timely h.range.backed, fun t ht => ?_⟩)
  by_contra hle
  exact hnot (pto_expired_of_deadline h.due hnow ht (Nat.le_of_not_lt hle))

/-- Every turn that finds a deadline passed doubles the PTO, so one of the next 62 finds none. -/
theorem Live.settles (k : Nat) (h : Live now c) (hnow : now < 2 ^ 62)
    (hk : 62 ≤ c.loss_detector.pto_count + k) (bufs : Nat → List Nat) :
    ∃ n, Rests now (c.after (turns now bufs n)) := by
  induction k generalizing c bufs with
  | zero =>
    by_cases hrests : Rests now c
    · exact ⟨0, hrests⟩
    obtain ⟨t, ht, hle⟩ := (Option.any_eq_true _ _).mp (h.expired hnow hrests)
    have hle : t ≤ now := of_decide_eq_true hle
    rcases next_timeout_cases ht with hloss | hpto
    · exact absurd (h.timers t hloss) (Nat.not_lt_of_le hle)
    · exact absurd (pto_beyond h.range.timely hk hnow hpto) (Nat.not_lt_of_le hle)
  | succ k ih =>
    by_cases hrests : Rests now c
    · exact ⟨0, hrests⟩
    rcases h.turn hnow (bufs 0) with hclosed | ⟨hlive, hcount⟩
    · refine ⟨1, .inl ?_⟩
      rw [turns, after_append]
      exact hclosed
    · have hcount := hcount (h.expired hnow hrests)
      obtain ⟨n, hn⟩ := ih hlive (by omega) fun i => bufs (i + 1)
      refine ⟨n + 1, ?_⟩
      rw [turns, after_append]
      exact hn

/-- A connection that is closed, drains or has been idle too long rests, or is closed by the next
timeout. -/
theorem rests_unless_due (h : ¬ Due now c) (hrange : InRange c) (hnow : now < 2 ^ 62) :
    Rests now c ∨ (c.handle_timeout now).state = .Closed := by
  by_cases hclosed : c.state = .Closed
  · exact .inl (.inl hclosed)
  unfold Connection.handle_timeout
  by_cases hdraining : c.state = .Draining
  · rw [if_pos hdraining]
    by_cases hover : now - c.last_activity ≥ c.drain_period
    · exact .inr (by rw [if_pos hover])
    · refine .inl (.inr ⟨next_timeout_exact hrange.timely hrange.backed, fun t ht => ?_⟩)
      unfold Connection.next_timeout at ht
      rw [hdraining] at ht
      cases ht
      exact lt_saturating_add hnow hover
  · have hidle : c.idle_timeout.any (now - c.last_activity ≥ ·) = true := by
      by_contra hearly
      exact h ⟨hclosed, hdraining, Bool.eq_false_iff.mpr hearly⟩
    rw [if_neg hdraining, if_pos hidle]
    unfold Connection.push_event
    split <;> exact .inr rfl

/-- Turns come to rest unless a loss timer has gone off. -/
theorem rests_of_unexpired (h : Unexpired now c) (hrange : InRange c) (hnow : now < 2 ^ 62)
    (bufs : Nat → List Nat) : ∃ n, Rests now (c.after (turns now bufs n)) := by
  by_cases hdue : Due now c
  · exact Live.settles 62 ⟨hdue, h hdue, hrange⟩ hnow (Nat.le_add_left _ _) bufs
  · rcases rests_unless_due hdue hrange hnow with hrests | hclosed
    · exact ⟨0, hrests⟩
    · refine ⟨1, .inl ?_⟩
      rw [turns, after_append]
      exact (polled_turn now (bufs 0) c).state.elim (·.trans hclosed) id

theorem progresses_iff (hrange : InRange c) (hnow : now < 2 ^ 62) :
    Progresses now c ↔ Unexpired now c := by
  constructor
  · intro h hdue t ht
    by_contra hle
    obtain ⟨level, hlevel⟩ := earliest_mem ht
    refine (h.declared hdue level t hlevel (Nat.le_of_not_lt hle)).1 ?_
    rw [(handle_timeout_due hdue).2.2.2.1]
    exact hlevel
  · intro h
    refine ⟨rests_of_unexpired h hrange hnow, fun hdue level t ht hle => ?_⟩
    obtain ⟨e, he, hearlier⟩ := earliest_le ht
    exact absurd (h hdue e he) (Nat.not_lt_of_le (Nat.le_trans hearlier hle))

/-! ## Every run -/

theorem in_range_after (hstart : Connection.Started c)
    (hdelay : c.loss_detector.max_ack_delay ≤ 2 ^ 61) (cs : List Call)
    (hsteps : Along Step.apply (fun c s => Early s ∧ Tame c s) c (c.steps cs)) :
    InRange (c.after (c.steps cs)) := by
  have hok : Along Step.apply (fun c s => Decoded s ∧ Early s ∧ Tame c s) c (c.steps cs) := by
    intro x hx
    obtain ⟨before, hbefore, -⟩ := of_mem_trace hx
    refine ⟨steps_decoded c cs x.2 ?_, hsteps x hx⟩
    exact hbefore.subset (List.mem_append_right _ (List.mem_singleton.mpr rfl))
  exact invariant (fun c s hs h => (step_sound h hs.1 hs.2.1 hs.2.2).1) hok
    (started_in_range hstart hdelay)

/-- In every state of a run whose clock is below 2^62, whose RTT samples are in range and in which
no loss timer raised the backoff, the turns of a caller come to rest and lost packets are declared
lost, if and only if no loss timer has gone off. -/
theorem deadlines_are_served_iff (hstart : Connection.Started c)
    (hdelay : c.loss_detector.max_ack_delay ≤ 2 ^ 61) (cs : List Call)
    (hsteps : Along Step.apply (fun c s => Early s ∧ Tame c s) c (c.steps cs))
    (hnow : now < 2 ^ 62) :
    Progresses now (c.after (c.steps cs)) ↔ Unexpired now (c.after (c.steps cs)) :=
  progresses_iff (in_range_after hstart hdelay cs hsteps) hnow

/-! ## Where a loss timer has gone off -/

/-- The state, and the CONNECTION_CLOSE that is to be sent. -/
def close_side (c : Connection B) : ConnectionState × Option (Nat × Bytes) :=
  (c.state, c.close_frame)

theorem close_side_packets : Connection.KeptByPackets (B := B) (Method.Same close_side) :=
  .of_parts
    { streams := fun _ _ => rfl
      received := fun _ _ => rfl
      max_data := fun _ _ => rfl
      max_streams := fun _ _ _ => rfl
      max_data_sent := fun _ => rfl
      sio := fun _ _ => rfl
      path_response := fun _ _ => rfl }
    { remote_cid := fun _ _ => rfl
      keys := fun _ _ => rfl
      slot := fun _ _ => rfl }
    (fun _ _ => rfl) (fun _ _ => rfl) (fun _ _ => rfl)

theorem recv_keys_transmit : Connection.KeptByTransmit (B := B)
    (Method.Same fun c => c.keys.has_recv_keys .Application) := by
  refine .of_calm (fun _ _ h => h.recv .Application) (fun _ => rfl) fun c => ?_
  rcases maybe_release_cases c with h | ⟨ctx, -, -, h⟩
  · rw [h]
    rfl
  · rw [h]
    rfl

/-- Nothing asks for the connection to be closed, and no key update is near. -/
structure Open (c : Connection B) : Prop where
  frame : c.close_frame = none
  keys : c.keys.has_recv_keys .Application = false

theorem auto_key_update_of_open (h : Open c) : auto_key_update c = (.ok (), c) := by
  have hneeds : c.keys.needs_key_update = false := by
    have hrecv : c.keys.app_recv.isSome = false := h.keys
    unfold ConnectionKeys.needs_key_update ConnectionKeys.can_initiate_key_update
    rw [hrecv, Bool.and_false]
    rfl
  unfold auto_key_update
  rw [Method.get_bind_run]
  rw [hneeds]
  rfl

theorem poll_open (h : Open c) (buf_len : Nat) (now : Instant) :
    (c.poll_transmit buf_len now).2.state = c.state ∧ Open (c.poll_transmit buf_len now).2 := by
  suffices hside : close_side (c.poll_transmit buf_len now).2 = close_side c by
    obtain ⟨hstate, hframe⟩ := Prod.mk.inj hside
    have hkeys := recv_keys_transmit.poll_transmit buf_len now c
    exact ⟨hstate, hframe.trans h.frame, hkeys.trans h.keys⟩
  unfold Connection.poll_transmit
  split
  · rfl
  · split
    · rfl
    · rw [auto_key_update_of_open h]
      dsimp only
      have hrewind : close_side c.rewind_crypto = close_side c := close_side_packets.rewind c
      unfold Connection.transmit
      rw [(Prod.mk.inj hrewind).2, h.frame]
      dsimp only
      have hbuilt : close_side (c.rewind_crypto.build_packets buf_len now).2 =
          close_side c.rewind_crypto :=
        close_side_packets.build_packets (fun _ _ _ _ _ => rfl) buf_len c.rewind_crypto
      unfold Connection.emit
      dsimp only
      split
      · exact hbuilt.trans hrewind
      · split
        · exact hbuilt.trans hrewind
        · split <;> exact hbuilt.trans hrewind

theorem polls_open (h : Open c) (bufs : List Nat) (now : Instant) :
    (final Step.apply c (bufs.map fun buf_len => .op (.poll_transmit buf_len now))).state =
        c.state ∧
      Open (final Step.apply c (bufs.map fun buf_len => .op (.poll_transmit buf_len now))) := by
  induction bufs generalizing c with
  | nil => exact ⟨rfl, h⟩
  | cons buf_len bufs ih =>
    obtain ⟨hstate, hopen⟩ := poll_open h buf_len now
    obtain ⟨hstate', hopen'⟩ := ih hopen
    exact ⟨hstate'.trans hstate, hopen'⟩

/-- A connection whose loss timer has gone off. -/
structure Spinning (now : Instant) (c : Connection B) : Prop extends Open c where
  due : Due now c
  expired : ∃ t ∈ LossDetector.earliest c.loss_detector.loss_time, t ≤ now

instance (now : Instant) (c : Connection B) : Decidable (Spinning now c) :=
  decidable_of_iff (c.close_frame = none ∧ c.keys.has_recv_keys .Application = false ∧
      Due now c ∧ (LossDetector.earliest c.loss_detector.loss_time).any (· ≤ now) = true)
    (by
      rw [Option.any_eq_true]
      exact ⟨fun ⟨hframe, hkeys, hdue, t, ht, hle⟩ =>
          ⟨⟨hframe, hkeys⟩, hdue, t, ht, of_decide_eq_true hle⟩,
        fun ⟨⟨hframe, hkeys⟩, hdue, t, ht, hle⟩ =>
          ⟨hframe, hkeys, hdue, t, ht, decide_eq_true hle⟩⟩)

/-- Its next deadline has passed. -/
theorem Spinning.restless (h : Spinning now c) : ¬ Rests now c := by
  obtain ⟨t, ht, hle⟩ := h.expired
  have hnext : ∃ e ∈ c.loss_detector.next_timeout c.sent_tracker, e ≤ t := by
    unfold LossDetector.next_timeout
    rw [Option.mem_def] at ht
    rw [ht]
    cases c.loss_detector.pto_timeout c.sent_tracker with
    | none => exact ⟨t, rfl, Nat.le_refl t⟩
    | some p => exact ⟨min t p, rfl, Nat.min_le_left t p⟩
  obtain ⟨e, he, hearlier⟩ := hnext
  rintro (hclosed | ⟨-, hlater⟩)
  · exact h.due.1 hclosed
  · rw [next_timeout_of_due h.due] at hlater
    rw [Option.mem_def] at he
    rw [he] at hlater
    have hpassed := Nat.le_trans hearlier hle
    cases hidle : c.idle_timeout with
    | none =>
      rw [hidle] at hlater
      exact absurd hpassed (Nat.not_le_of_lt (hlater e rfl))
    | some idle =>
      rw [hidle] at hlater
      exact absurd hpassed
        (Nat.not_le_of_lt (Nat.lt_of_lt_of_le (hlater _ rfl) (Nat.min_le_left _ _)))

/-- A turn of its caller changes none of that. -/
theorem Spinning.turn (h : Spinning now c) (bufs : List Nat) :
    Spinning now (c.after (turn now bufs)) := by
  obtain ⟨hclosed, hdraining, hearly⟩ := h.due
  have hopen : Open (c.handle_timeout now) := by
    unfold Connection.handle_timeout
    rw [if_neg hdraining, if_neg (Bool.eq_false_iff.mp hearly)]
    split <;> exact ⟨h.frame, h.keys⟩
  obtain ⟨hstate, hopen⟩ := polls_open hopen bufs now
  rcases turn_due h.due bufs with hturn | ⟨hdue, htimers, -⟩
  · exact absurd ((hstate.trans (handle_timeout_due h.due).1).symm.trans hturn) hclosed
  · refine ⟨hopen, hdue, ?_⟩
    rw [htimers]
    exact h.expired

/-- The turns of a caller never come to rest where a loss timer has gone off. -/
theorem Spinning.never_rests (h : Spinning now c) (bufs : Nat → List Nat) (n : Nat) :
    ¬ Rests now (c.after (turns now bufs n)) := by
  induction n generalizing c bufs with
  | zero => exact h.restless
  | succ n ih =>
    rw [turns, after_append]
    exact ih (h.turn (bufs 0)) fun i => bufs (i + 1)

/-! ## A probe, and a packet that is never declared lost -/

open standin

/-- The client whose first packet is lost, at the PTO deadline. -/
theorem lost_packet_is_probed_for : Progresses 1024001
    ((client .default_params).after
      ((client .default_params).steps [.op (.poll_transmit 1500 1)])) :=
  (deadlines_are_served_iff (client_started _) (by decide +kernel) _ (by decide +kernel)
    (by decide)).mpr (by decide +kernel)

/-- The client whose probe was acknowledged late, and whose first packet is still waited for. -/
def waiting : Connection build :=
  (client .default_params).after ((client .default_params).steps (probed 11024001))

/-- At the deadline of its loss timer no number of turns comes to rest. -/
theorem expired_loss_timer_is_not_served :
    Along Step.apply (fun c s => Early s ∧ Tame c s) (client .default_params)
      ((client .default_params).steps (probed 11024001)) ∧
    (∀ bufs n, ¬ Rests 11250001 (waiting.after (turns 11250001 bufs n))) ∧
    ¬ Progresses 11250001 waiting := by
  have hspins : Spinning 11250001 waiting := by decide +kernel
  refine ⟨by decide +kernel, hspins.never_rests, fun h => ?_⟩
  obtain ⟨n, hn⟩ := h.rests fun _ => [1500]
  exact hspins.never_rests _ n hn

end milli_http.connection.timer_progress
