-- The timeouts of a server (http1/connection.rs, next_timeout, handle_timeout): it gives up on a
-- client only after the header section it waits for has been due for the whole header timeout,
-- with no response being sent meanwhile, or after nothing went either way for the whole idle
-- timeout. The wait is timed from the last activity and runs whatever is sent, so the law takes
-- feeds that leave a message to come with bytes and with nothing left to be sent, and no
-- response to be sent while a header section is awaited.
import MilliHttp.Http1.EndOfBody

open bytes method run

namespace milli_http.http1.timeouts

open parse Http1Connection end_of_body

variable {L : Limits}

/-! ## Sessions -/

/-- A server and the time. The rest says when it began to wait for the header section it waits
for, whether bytes of a response went out since, and since when nothing was received or handed
over for sending. -/
structure Session (L : Limits) where
  c : Http1Connection L
  clock : Nat
  waiting_since : Nat
  responding : Bool
  quiet_since : Nat

/-- What can happen: time passes, a timed call is made at the time it is, or another call. -/
inductive Op where
  | pass (us : Nat)
  | feed (data : Bytes)
  | note_recv_activity
  | send_headers (stream_id : Nat) (headers : List (Bytes × Bytes))
  | send_data (stream_id : Nat) (data : Bytes)
  | tick
  | recv_headers (stream_id : Nat)
  | recv_body (stream_id room : Nat)
  | poll_event
  | poll_output (room : Nat)

/-- Bytes were handed over for sending. -/
def Session.handed_over (c : Http1Connection L) (s : Session L) : Session L :=
  { s with c := c, responding := true, quiet_since := s.clock }

/-- A feed that leaves the message begins a wait, in which what is still to be sent goes out. -/
def Session.fed (c : Http1Connection L) (s : Session L) : Session L :=
  if s.c.state ≠ .Idle ∧ c.state = .Idle then
    { s with c := c, waiting_since := s.clock, responding := s.c.send_offset < s.c.send_buf.length }
  else { s with c := c }

def Op.apply : Op → Session L → Session L
  | pass us, s => { s with clock := s.clock + us }
  | feed data, s =>
    let s := { s with quiet_since := if data = [] then s.quiet_since else s.clock }
    s.fed (feed_data_timed data s.clock s.c).2
  | note_recv_activity, s =>
    { s with c := Http1Connection.note_recv_activity s.clock s.c, quiet_since := s.clock }
  | send_headers stream_id headers, s =>
    match Http1Connection.send_headers stream_id headers s.c with
    | (.ok _, c) => s.handed_over c
    | (.error _, c) => { s with c := c }
  | send_data stream_id data, s =>
    match Http1Connection.send_data stream_id data s.c with
    | (.ok (_ + 1), c) => s.handed_over c
    | (_, c) => { s with c := c }
  | tick, s => { s with c := handle_timeout s.clock s.c }
  | recv_headers stream_id, s => { s with c := (Http1Connection.recv_headers stream_id s.c).2 }
  | recv_body stream_id room, s => { s with c := (Http1Connection.recv_body stream_id room s.c).2 }
  | poll_event, s => { s with c := (Http1Connection.poll_event s.c).2 }
  | poll_output room, s => { s with c := (Http1Connection.poll_output room s.c).2 }

/-- A new server, told of its timeouts. -/
def Session.start (config : TimeoutConfig) (now : Nat) : Session L where
  c := set_timeouts config now new_server
  clock := now
  waiting_since := now
  responding := false
  quiet_since := now

/-! ## The law -/

/-- The header section of a message has been awaited for the whole timeout, and no response to an
earlier request was being sent. -/
def Awaited (s : Session L) : Prop :=
  s.c.state = .Idle ∧
    (∃ us ∈ s.c.timeout_config.header_timeout_us, s.waiting_since + us ≤ s.clock) ∧
    (s.c.current_stream_id = 0 ∨ s.responding = false)

/-- Nothing was received or handed over for sending for the whole timeout. -/
def Quiet (s : Session L) : Prop :=
  ∃ us ∈ s.c.timeout_config.idle_timeout_us, s.quiet_since + us ≤ s.clock

/-- A tick closes the connection only for one of the two reasons. -/
def Lawful (s : Session L) : Op → Prop
  | .tick => s.c.closed = false → (handle_timeout s.clock s.c).closed = true → Awaited s ∨ Quiet s
  | _ => True

instance (s : Session L) : Decidable (Awaited s) := inferInstanceAs (Decidable (_ ∧ _ ∧ _))

instance (s : Session L) : Decidable (Quiet s) := inferInstanceAs (Decidable (∃ us ∈ _, _))

instance (s : Session L) : (op : Op) → Decidable (Lawful s op)
  | .tick => inferInstanceAs (Decidable (_ → _ → _ ∨ _))
  | .pass _ | .feed _ | .note_recv_activity | .send_headers _ _ | .send_data _ _ | .recv_headers _
  | .recv_body _ _ | .poll_event | .poll_output _ => inferInstanceAs (Decidable True)

/-- The next timeout is announced no later than a tick that would close the connection. -/
def Announced (s : Session L) : Prop :=
  ∀ now, s.clock ≤ now → s.c.closed = false → (handle_timeout now s.c).closed = true →
    ∃ due, next_timeout s.c = some due ∧ due ≤ now

/-- What the law takes: a feed that leaves a message has bytes or finds the last activity to be
now, and finds nothing left to be sent; a header section is awaited without a response being
sent; and a tick comes before the last time there is. -/
def Fair (s : Session L) : Op → Prop
  | .feed data => s.c.timeout_config.header_timeout_us ≠ none →
      s.c.recv_buf.length + data.length ≤ L.BUF → Leaves (take_in data s.c) →
      (data ≠ [] ∨ s.c.last_activity = s.clock) ∧ s.c.send_buf.length ≤ s.c.send_offset
  | .send_headers stream_id headers => s.c.timeout_config.header_timeout_us ≠ none →
      s.c.state = .Idle → (Http1Connection.send_headers stream_id headers s.c).1 = .ok () →
      s.c.current_stream_id = 0
  | .send_data stream_id data => s.c.timeout_config.header_timeout_us ≠ none →
      s.c.state = .Idle → (Http1Connection.send_data stream_id data s.c).1 = .ok data.length →
      s.c.current_stream_id = 0 ∨ data = []
  | .tick => s.clock < 2 ^ 64 - 1
  | _ => True

/-! ## Ticks -/

variable {c c' : Http1Connection L}

/-- Bytes handed over since the last tick count as activity now. -/
def noted (now : Nat) (c : Http1Connection L) : Http1Connection L :=
  if c.sent_since_tick then { c with sent_since_tick := false, last_activity := now } else c

/-- A tick closes the connection at either deadline. -/
theorem handle_timeout_run (now : Nat) (c : Http1Connection L) :
    handle_timeout now c =
      if c.closed then c
      else if (c.headers_phase_complete = false ∧
            Expired c.connection_start now c.timeout_config.header_timeout_us) ∨
          Expired (noted now c).last_activity now c.timeout_config.idle_timeout_us then
        push_event .Timeout { noted now c with closed := true }
      else noted now c := by
  have hsame : (noted now c).headers_phase_complete = c.headers_phase_complete ∧
      (noted now c).connection_start = c.connection_start ∧
      (noted now c).timeout_config = c.timeout_config := by
    unfold noted
    split <;> exact ⟨rfl, rfl, rfl⟩
  have hrun : handle_timeout now c =
      if c.closed then c
      else if (¬ (noted now c).headers_phase_complete = true) ∧
          Expired (noted now c).connection_start now
            (noted now c).timeout_config.header_timeout_us then
        push_event .Timeout { noted now c with closed := true }
      else if Expired (noted now c).last_activity now
          (noted now c).timeout_config.idle_timeout_us then
        push_event .Timeout { noted now c with closed := true }
      else noted now c := rfl
  rw [hrun, hsame.1, hsame.2.1, hsame.2.2]
  simp only [Bool.not_eq_true]
  by_cases hclosed : c.closed = true
  · rw [if_pos hclosed, if_pos hclosed]
  · rw [if_neg hclosed, if_neg hclosed]
    by_cases hheader : c.headers_phase_complete = false ∧
        Expired c.connection_start now c.timeout_config.header_timeout_us
    · rw [if_pos hheader, if_pos (.inl hheader)]
    · rw [if_neg hheader]
      simp only [hheader, false_or]

theorem noted_last_activity (now : Nat) (c : Http1Connection L) :
    (noted now c).last_activity = if c.sent_since_tick then now else c.last_activity := by
  unfold noted
  split <;> rfl

/-- A timeout that has expired has gone by, before the last time there is. -/
theorem gone_by {start now : Nat} {timeout : Option Nat} (h : Expired start now timeout)
    (hnow : now < 2 ^ 64 - 1) : ∃ us ∈ timeout, start + us ≤ now := by
  obtain ⟨us, hus, hle⟩ := h
  unfold saturating_add at hle
  exact ⟨us, hus, by omega⟩

theorem closes_iff {now : Nat} (hopen : c.closed = false) :
    (handle_timeout now c).closed = true ↔
      (c.headers_phase_complete = false ∧
          Expired c.connection_start now c.timeout_config.header_timeout_us) ∨
        Expired (noted now c).last_activity now c.timeout_config.idle_timeout_us := by
  rw [handle_timeout_run, if_neg (by simp [hopen])]
  split
  · rename_i h
    exact iff_of_true rfl h
  · rename_i h
    refine iff_of_false ?_ h
    unfold noted
    split <;> simp [hopen]

/-! ## The invariant -/

/-- What the timestamps say of the session. -/
structure Timed (s : Session L) : Prop where
  sane : Sane s.c
  phase : s.c.headers_phase_complete = false → s.c.state = .Idle
  past : s.quiet_since ≤ s.clock ∧ s.c.last_activity ≤ s.clock
  quiet : s.quiet_since ≤ s.c.last_activity ∨ s.c.sent_since_tick = true
  waiting : s.c.timeout_config.header_timeout_us ≠ none → s.c.state = .Idle →
    s.waiting_since ≤ s.c.connection_start ∧ s.waiting_since ≤ s.c.last_activity ∧
      (s.c.current_stream_id = 0 ∨ s.responding = false)

theorem timed_start (config : TimeoutConfig) (now : Nat) :
    Timed (Session.start (L := L) config now) where
  sane := ⟨rfl, nofun, fun h => absurd rfl h⟩
  phase _ := rfl
  past := ⟨le_refl _, le_refl _⟩
  quiet := .inl (le_refl _)
  waiting _ _ := ⟨le_refl _, le_refl _, .inl rfl⟩

variable {s : Session L}

theorem tick_lawful (h : Timed s) (hfair : Fair s .tick) : Lawful s .tick := by
  intro hopen hcloses
  have hnow : s.clock < 2 ^ 64 - 1 := hfair
  rcases (closes_iff hopen).mp hcloses with ⟨hphase, hexpired⟩ | hexpired
  · obtain ⟨us, hus, hle⟩ := gone_by hexpired hnow
    have hidle := h.phase hphase
    obtain ⟨hstart, -, hresponding⟩ := h.waiting (by rw [Option.mem_def.mp hus]; simp) hidle
    exact .inl ⟨hidle, ⟨us, hus, by omega⟩, hresponding⟩
  · obtain ⟨us, hus, hle⟩ := gone_by hexpired hnow
    refine .inr ⟨us, hus, ?_⟩
    have hpast := h.past
    have hquiet := h.quiet
    rw [noted_last_activity] at hle
    split at hle
    · omega
    · rename_i hsent
      have := hquiet.resolve_right hsent
      omega

/-- Whatever was handed over since the last tick, the deadline that closes the connection was
announced. -/
theorem timed_announced (h : Timed s) : Announced s := by
  intro now hnow hopen hcloses
  have hpast := h.past
  unfold next_timeout
  rw [if_neg (by simp [hopen])]
  dsimp only
  rcases (closes_iff hopen).mp hcloses with ⟨hphase, us, hus, hle⟩ | ⟨us, hus, hle⟩
  · rw [hphase, Option.mem_def.mp hus]
    cases s.c.timeout_config.idle_timeout_us with
    | none => exact ⟨_, rfl, hle⟩
    | some idle => exact ⟨_, rfl, (Nat.min_le_left _ _).trans hle⟩
  · have hidle : saturating_add s.c.last_activity us ≤ now := by
      rw [noted_last_activity] at hle
      unfold saturating_add at hle ⊢
      split at hle <;> omega
    rw [Option.mem_def.mp hus]
    generalize (if s.c.headers_phase_complete then none
      else s.c.timeout_config.header_timeout_us.map (saturating_add s.c.connection_start)) = header
    cases header with
    | none => exact ⟨_, rfl, hidle⟩
    | some deadline => exact ⟨_, rfl, (Nat.min_le_right _ _).trans hidle⟩

/-! ## Feeds -/

/-- What no turn of the receive loop changes. -/
def untimed (c : Http1Connection L) :=
  (c.last_activity, c.sent_since_tick, c.closed, c.timeout_config, c.send_buf, c.send_offset)

theorem untimed_moved (parked : Bool) (k r : Nat) :
    untimed (moved parked k r c) = untimed c ∧
      (moved parked k r c).headers_phase_complete = c.headers_phase_complete := by
  unfold moved go_on close_body with_left
  split <;> split <;> exact ⟨rfl, rfl⟩

/-- A body that goes on to the end of the connection keeps the times and the state. -/
theorem untimed_until_close :
    untimed (process_until_close_body c).2 = untimed c ∧
      (process_until_close_body c).2.state = c.state ∧
      (process_until_close_body c).2.headers_phase_complete = c.headers_phase_complete ∧
      (process_until_close_body c).2.connection_start = c.connection_start := by
  unfold process_until_close_body
  rw [Method.modify_run]
  dsimp only
  split
  · exact ⟨rfl, rfl, rfl, rfl⟩
  · split <;> exact ⟨rfl, rfl, rfl, rfl⟩

/-- A message that begins keeps the times, and its header section is over. -/
theorem untimed_begins {framing : Framing} {p : Http1Connection L} :
    untimed (announce (number_message (begin_body framing p))) = untimed p ∧
      (announce (number_message (begin_body framing p))).state ≠ .Idle ∧
      (announce (number_message (begin_body framing p))).headers_phase_complete =
        p.headers_phase_complete := by
  have hannounce : ∀ q : Http1Connection L, untimed (announce q) = untimed q ∧
      (announce q).state = q.state ∧
      (announce q).headers_phase_complete = q.headers_phase_complete := by
    intro q
    unfold announce
    dsimp only
    split <;> exact ⟨rfl, rfl, rfl⟩
  have hnumber : ∀ q : Http1Connection L, untimed (number_message q) = untimed q ∧
      (number_message q).state = q.state ∧
      (number_message q).headers_phase_complete = q.headers_phase_complete := by
    intro q
    unfold number_message
    split <;> exact ⟨rfl, rfl, rfl⟩
  obtain ⟨h₁, h₂, h₃⟩ := hannounce (number_message (begin_body framing p))
  obtain ⟨h₄, h₅, h₆⟩ := hnumber (begin_body framing p)
  rw [h₁, h₂, h₃, h₄, h₅, h₆]
  unfold begin_body
  split <;> exact ⟨rfl, nofun, rfl⟩

theorem untimed_open_message (sec : Section) (stop : Nat) :
    untimed (open_message sec stop c) = untimed c ∧ (open_message sec stop c).state ≠ .Idle ∧
      (open_message sec stop c).headers_phase_complete = true :=
  untimed_begins

theorem turn_untimed : Method.Keeps (Method.Same (untimed (L := L))) turn := by
  refine keeps_turn (fun c c' h => ?_) fun c r c' h => ?_
  · cases h with
    | opened sec stop _ _ _ => exact (untimed_open_message sec stop).1
    | moved r _ _ => exact (untimed_moved _ _ r).1
    | line n next _ => rfl
    | finished _ _ => rfl
    | left _ _ => rfl
  · cases h with
    | waits => rfl
    | parks => rfl
    | takes _ => exact untimed_until_close.1
    | fails e => rfl
    | refuses e buf _ => rfl

/-- A header section is awaited where no header section has been read, and a wait that begins is
timed from the last activity. -/
structure Armed (since : Nat) (c : Http1Connection L) : Prop where
  phase : c.headers_phase_complete = false → c.state = .Idle
  start : c.state = .Idle → since ≤ c.connection_start
  active : since ≤ c.last_activity

theorem turn_armed (since : Nat) :
    Method.Keeps (Method.Preserves (Armed (L := L) since)) turn := by
  refine keeps_turn (fun c c' h ha => ?_) fun c r c' h ha => ?_
  · cases h with
    | opened sec stop _ _ _ =>
      obtain ⟨htimes, hstate, hphase⟩ := untimed_open_message (c := c) sec stop
      have hactivity : (open_message sec stop c).last_activity = c.last_activity :=
        congrArg (fun t => t.1) htimes
      refine ⟨fun hno => ?_, fun hidle => absurd hidle hstate, by rw [hactivity]; exact ha.active⟩
      rw [hphase] at hno
      cases hno
    | moved r hbody hpos =>
      obtain ⟨-, hstate, -⟩ := moved_stays (c.can_store r < c.to_consume r) hbody
        ⟨hpos, can_store_le.1⟩
      obtain ⟨htimes, hphase⟩ := untimed_moved (c := c) (c.can_store r < c.to_consume r)
        (c.can_store r) r
      refine ⟨fun hno => ?_, fun hidle => absurd hidle hstate, ?_⟩
      · rw [hphase] at hno
        simp [body_left, ha.phase hno] at hbody
      · exact ha.active.trans (Nat.le_of_eq (congrArg (fun t => t.1) htimes).symm)
    | line n next hstate =>
      exact ⟨ha.phase, ha.start, ha.active⟩
    | finished hstate _ =>
      refine ⟨fun hno => ?_, by rintro ⟨⟩, ha.active⟩
      exact absurd (hstate.symm.trans (ha.phase hno)) (by decide)
    | left _ _ => exact ⟨fun _ => rfl, fun _ => ha.active, ha.active⟩
  · cases h with
    | waits => exact ha
    | parks => exact ⟨ha.phase, ha.start, ha.active⟩
    | takes _ =>
      obtain ⟨htimes, hstate, hphase, hstart⟩ := untimed_until_close (c := c)
      refine ⟨fun hno => ?_, fun hidle => ?_, ?_⟩
      · rw [hstate]
        exact ha.phase (hphase ▸ hno)
      · rw [hstart]
        exact ha.start (hstate ▸ hidle)
      · exact ha.active.trans (Nat.le_of_eq (congrArg (fun t => t.1) htimes).symm)
    | fails e => exact ha
    | refuses e buf _ => exact ⟨ha.phase, ha.start, ha.active⟩

/-- What a feed keeps of the times, and of the wait that began at some time. -/
theorem feed_keeps (data : Bytes) (c : Http1Connection L) :
    untimed (feed_data data c).2 = untimed c ∧
      ∀ since, Armed since c → Armed since (feed_data data c).2 :=
  ⟨keeps_feed_data turn_untimed (fun _ _ => rfl) data c, fun since =>
    keeps_feed_data (turn_armed since) (fun _ _ h => ⟨h.phase, h.start, h.active⟩) data c⟩

/-- A feed that begins a wait leaves a message; the others stay where they wait. -/
theorem feed_waits (data : Bytes) (hs : Sane c) (h : (feed_data data c).2.state = .Idle) :
    (feed_data data c).2.current_stream_id = c.current_stream_id ∧
      (c.state ≠ .Idle → c.recv_buf.length + data.length ≤ L.BUF ∧ Leaves (take_in data c)) := by
  rw [feed_data_run] at h ⊢
  by_cases hfits : c.recv_buf.length + data.length ≤ L.BUF
  · rw [if_pos hfits] at h ⊢
    obtain ⟨hleft, hstayed⟩ := process_recv_leaves (c := take_in data c)
      ⟨hs.server, hs.ended, hs.numbered⟩
    have hleaving : Leaving (take_in data c) := by
      by_contra hno
      exact (hstayed hno).1 h
    rcases hleft hleaving with ⟨-, hid⟩ | ⟨hstate, -⟩
    · exact ⟨hid, fun hbusy => ⟨hfits, hleaving.resolve_left hbusy⟩⟩
    · exact absurd h hstate
  · rw [if_neg hfits] at h ⊢
    exact ⟨rfl, fun hbusy => absurd h hbusy⟩

/-- The connection that has noted the arrival of bytes. -/
def arrived (data : Bytes) (now : Nat) (c : Http1Connection L) : Http1Connection L :=
  if data = [] then c else { c with last_activity := now }

theorem arrived_parts (data : Bytes) (now : Nat) (c : Http1Connection L) :
    arrived data now c =
      { c with last_activity := if data = [] then c.last_activity else now } := by
  unfold arrived
  split <;> rfl

/-- A feed keeps the invariant. -/
theorem feed_timed (data : Bytes) (h : Timed s) (hfair : Fair s (.feed data)) :
    Timed ((Op.feed data).apply s) := by
  have hparts := arrived_parts data s.clock s.c
  obtain ⟨c₁, hc₁⟩ : ∃ c₁, c₁ = arrived data s.clock s.c := ⟨_, rfl⟩
  have hsane : Sane c₁ := by
    rw [hc₁, hparts]
    exact ⟨h.sane.server, h.sane.ended, h.sane.numbered⟩
  have hactive : s.c.last_activity ≤ c₁.last_activity ∧ c₁.last_activity ≤ s.clock ∧
      (data ≠ [] → c₁.last_activity = s.clock) := by
    have hpast := h.past
    rw [hc₁, hparts]
    dsimp only
    split
    · exact ⟨le_refl _, hpast.2, fun hne => absurd ‹_› hne⟩
    · exact ⟨hpast.2, le_refl _, fun _ => rfl⟩
  obtain ⟨c₂, hc₂⟩ : ∃ c₂, c₂ = (feed_data data c₁).2 := ⟨_, rfl⟩
  have hsane' : Sane c₂ := by
    rw [hc₂]
    exact keeps_feed_data turn_sane (fun _ _ h => ⟨h.server, h.ended, h.numbered⟩) data c₁ hsane
  obtain ⟨htimes, harmed⟩ := feed_keeps data c₁
  have hwaits := feed_waits data hsane
  rw [← hc₂] at htimes harmed hwaits
  have hunchanged : c₁.state = s.c.state ∧ c₁.current_stream_id = s.c.current_stream_id ∧
      c₁.recv_buf = s.c.recv_buf ∧ c₁.sent_since_tick = s.c.sent_since_tick ∧
      c₁.timeout_config = s.c.timeout_config ∧ c₁.connection_start = s.c.connection_start ∧
      c₁.headers_phase_complete = s.c.headers_phase_complete ∧
      (Leaves (take_in data c₁) → Leaves (take_in data s.c)) := by
    rw [hc₁, hparts]
    exact ⟨rfl, rfl, rfl, rfl, rfl, rfl, rfl, fun hl => hl⟩
  obtain ⟨hstate, hid, hbuf, hsent, hconfig, hstart, hphase, hleaves⟩ := hunchanged
  simp only [untimed, Prod.mk.injEq] at htimes
  obtain ⟨hla, hsent', -, hconfig', -, -⟩ := htimes
  have hphase' : c₁.headers_phase_complete = false → c₁.state = .Idle := by
    rw [hphase, hstate]
    exact h.phase
  have harmed₀ := harmed 0 ⟨hphase', fun _ => Nat.zero_le _, Nat.zero_le _⟩
  obtain ⟨q, hq⟩ : ∃ q, q = if data = [] then s.quiet_since else s.clock := ⟨_, rfl⟩
  have hquiet : q ≤ s.clock ∧ (q ≤ c₂.last_activity ∨ c₂.sent_since_tick = true) := by
    have hpast := h.past
    rw [hq, hla, hsent', hsent]
    split
    · exact ⟨hpast.1, h.quiet.imp_left fun hle => hle.trans hactive.1⟩
    · rename_i hne
      exact ⟨le_refl _, .inl (Nat.le_of_eq (hactive.2.2 hne).symm)⟩
  have happly : (Op.feed data).apply s = ({ s with quiet_since := q } : Session L).fed c₂ := by
    rw [hc₂, hc₁, hq]
    rfl
  rw [happly]
  by_cases hwait : s.c.state ≠ .Idle ∧ c₂.state = .Idle
  · -- a message is left, with bytes that came now and nothing to be sent
    obtain ⟨hfits, hl⟩ := (hwaits hwait.2).2 (hstate ▸ hwait.1)
    rw [hbuf] at hfits
    unfold Session.fed
    rw [if_pos hwait]
    refine ⟨hsane', harmed₀.phase, ⟨hquiet.1, ?_⟩, hquiet.2, fun hset _ => ?_⟩
    · rw [hla]
      exact hactive.2.1
    · dsimp only at hset
      rw [hconfig', hconfig] at hset
      obtain ⟨hnow, hdrained⟩ := hfair hset hfits (hleaves hl)
      have hle : s.clock ≤ c₁.last_activity := by
        rcases hnow with hne | heq
        · exact Nat.le_of_eq (hactive.2.2 hne).symm
        · exact heq ▸ hactive.1
      have ha := harmed s.clock ⟨hphase', fun hi => absurd (hstate ▸ hi) hwait.1, hle⟩
      exact ⟨ha.start hwait.2, ha.active, .inr (by simpa using hdrained)⟩
  · unfold Session.fed
    rw [if_neg hwait]
    refine ⟨hsane', harmed₀.phase, ⟨hquiet.1, ?_⟩, hquiet.2, fun hset hidle => ?_⟩
    · rw [hla]
      exact hactive.2.1
    · dsimp only at hset hidle ⊢
      rw [hconfig', hconfig] at hset
      have hidle₀ : s.c.state = .Idle := by
        by_contra hbusy
        exact hwait ⟨hbusy, hidle⟩
      obtain ⟨hw, hw', hresponding⟩ := h.waiting hset hidle₀
      have ha := harmed s.waiting_since
        ⟨hphase', fun _ => by rw [hstart]; exact hw, hw'.trans hactive.1⟩
      rw [(hwaits hidle).1, hid]
      exact ⟨ha.start hidle, ha.active, hresponding⟩

/-! ## Other calls -/

/-- What the invariant says of the connection. -/
def timing (c : Http1Connection L) :=
  (c.role, c.state, c.body_finished, c.current_stream_id, c.headers_phase_complete,
    c.connection_start, c.last_activity, c.sent_since_tick, c.timeout_config)

theorem Timed.with (h : Timed s) (hsame : timing c = timing s.c) : Timed { s with c := c } := by
  simp only [timing, Prod.mk.injEq] at hsame
  obtain ⟨h₁, h₂, h₃, h₄, h₅, h₆, h₇, h₈, h₉⟩ := hsame
  constructor
  · exact ⟨h₁.trans h.sane.server, by rw [h₂, h₃]; exact h.sane.ended,
      by rw [h₂, h₄]; exact h.sane.numbered⟩
  · dsimp only
    rw [h₂, h₅]
    exact h.phase
  · dsimp only
    rw [h₇]
    exact h.past
  · dsimp only
    rw [h₇, h₈]
    exact h.quiet
  · dsimp only
    rw [h₂, h₄, h₆, h₇, h₉]
    exact h.waiting

theorem timing_recv_headers (stream_id : Nat) :
    timing (recv_headers stream_id c).2 = timing c := by
  rw [recv_headers_run]
  split
  · split <;> rfl
  · rfl

theorem timing_recv_body (stream_id room : Nat) :
    timing (recv_body stream_id room c).2 = timing c := by
  rw [recv_body_run]
  split
  · split
    · split <;> rfl
    · rfl
  · rfl

theorem timing_poll_event : timing (poll_event c).2 = timing c := by
  unfold poll_event
  split <;> rfl

theorem timing_poll_output (room : Nat) : timing (poll_output room c).2 = timing c := by
  unfold poll_output
  split
  · rfl
  · dsimp only
    split <;> rfl

/-- A head that is not taken as a whole may be queued in part. -/
theorem send_headers_cases (stream_id : Nat) (headers : List (Bytes × Bytes))
    (c : Http1Connection L) :
    (∃ e bytes, send_headers stream_id headers c = (.error e, queued bytes c)) ∨
      ∃ bytes, send_headers stream_id headers c = (.ok (), note_sent (queued bytes c)) := by
  rw [send_headers_run]
  split
  · rcases Nat.lt_or_ge L.BUF (c.send_buf.length + (head c.role headers).length) with hover | hfits
    · obtain ⟨e, bytes, hrun, -⟩ := queue_head_overflows hover
      exact .inl ⟨e, bytes, hrun⟩
    · exact .inr ⟨_, queue_head_fits hfits⟩
  · exact .inl ⟨.InvalidState, [], by simp [queued]⟩

theorem send_data_cases (stream_id : Nat) (data : Bytes) (c : Http1Connection L) :
    (∃ r, send_data stream_id data c = (r, c) ∧ ∀ n, r ≠ .ok (n + 1)) ∨
      data ≠ [] ∧ send_data stream_id data c = (.ok data.length, note_sent (queued data c)) := by
  rw [send_data_run]
  split
  · split
    · by_cases hdata : data = []
      · subst hdata
        exact .inl ⟨.ok 0, by simp [queued], by simp⟩
      · exact .inr ⟨hdata, by rw [if_neg hdata]⟩
    · exact .inl ⟨_, rfl, by simp⟩
  · exact .inl ⟨_, rfl, by simp⟩

/-- Bytes that are handed over are not those of a response where a header section is awaited. -/
theorem handed_over_timed (bytes : Bytes) (h : Timed s)
    (hfair : s.c.timeout_config.header_timeout_us ≠ none → s.c.state = .Idle →
      s.c.current_stream_id = 0) :
    Timed (s.handed_over (note_sent (queued bytes s.c))) where
  sane := ⟨h.sane.server, h.sane.ended, h.sane.numbered⟩
  phase := h.phase
  past := ⟨le_refl _, h.past.2⟩
  quiet := .inr rfl
  waiting hset hidle := by
    obtain ⟨hstart, hactive, -⟩ := h.waiting hset hidle
    exact ⟨hstart, hactive, .inl (hfair hset hidle)⟩

theorem tick_timed (h : Timed s) : Timed ((Op.tick).apply s) := by
  have hnoted : Timed { s with c := noted s.clock s.c } := by
    unfold noted
    split
    · refine ⟨⟨h.sane.server, h.sane.ended, h.sane.numbered⟩, h.phase, ⟨h.past.1, le_refl _⟩,
        .inl h.past.1, fun hset hidle => ?_⟩
      obtain ⟨hstart, hactive, hresponding⟩ := h.waiting hset hidle
      exact ⟨hstart, hactive.trans h.past.2, hresponding⟩
    · exact h
  unfold Op.apply
  dsimp only
  rw [handle_timeout_run]
  split
  · exact h
  · split
    · exact hnoted.with (c := push_event .Timeout { noted s.clock s.c with closed := true }) rfl
    · exact hnoted

/-! ## Runs -/

/-- Every fair step keeps the invariant. -/
theorem op_timed (op : Op) (h : Timed s) (hfair : Fair s op) : Timed (op.apply s) := by
  cases op with
  | pass us =>
    have hpast := h.past
    exact ⟨h.sane, h.phase, ⟨by simp only [Op.apply]; omega, by simp only [Op.apply]; omega⟩,
      h.quiet, h.waiting⟩
  | feed data => exact feed_timed data h hfair
  | note_recv_activity =>
    refine ⟨⟨h.sane.server, h.sane.ended, h.sane.numbered⟩, h.phase, ⟨le_refl _, le_refl _⟩,
      .inl (le_refl _), fun hset hidle => ?_⟩
    obtain ⟨hstart, hactive, hresponding⟩ := h.waiting hset hidle
    exact ⟨hstart, hactive.trans h.past.2, hresponding⟩
  | send_headers stream_id headers =>
    unfold Op.apply
    dsimp only
    rcases send_headers_cases stream_id headers s.c with ⟨e, bytes, hrun⟩ | ⟨bytes, hrun⟩
    · rw [hrun]
      exact h.with (c := queued bytes s.c) rfl
    · rw [hrun]
      refine handed_over_timed bytes h fun hset hidle => hfair hset hidle ?_
      rw [hrun]
  | send_data stream_id data =>
    unfold Op.apply
    dsimp only
    rcases send_data_cases stream_id data s.c with ⟨r, hrun, hno⟩ | ⟨hdata, hrun⟩
    · rw [hrun]
      split
      · rename_i n c heq
        exact absurd (Prod.mk.inj heq).1 (hno n)
      · rename_i heq
        obtain ⟨-, rfl⟩ := Prod.mk.inj heq
        exact h
    · have hlen : data.length = data.length - 1 + 1 := by
        have := List.length_pos_iff.mpr hdata
        omega
      have htaken := handed_over_timed data h fun hset hidle =>
        (hfair hset hidle (by rw [hrun])).resolve_right hdata
      rw [hrun, hlen]
      exact htaken
  | tick => exact tick_timed h
  | recv_headers stream_id => exact h.with (timing_recv_headers stream_id)
  | recv_body stream_id room => exact h.with (timing_recv_body stream_id room)
  | poll_event => exact h.with timing_poll_event
  | poll_output room => exact h.with (timing_poll_output room)

/-- A server whose steps are fair gives up on its client for one of the two reasons only, and
announces when. -/
theorem timeouts_are_lawful {config : TimeoutConfig} {now : Nat} {ops : List Op}
    (hfair : Along Op.apply Fair (Session.start (L := L) config now) ops) :
    Along Op.apply Lawful (Session.start (L := L) config now) ops ∧
      Throughout Op.apply Announced (Session.start (L := L) config now) ops := by
  have hstep : ∀ (s : Session L) op, Fair s op → Timed s → Timed (op.apply s) :=
    fun s op hf h => op_timed op h hf
  have hstart := timed_start (L := L) config now
  refine ⟨fun x hx => ?_, fun pre hpre => ?_⟩
  · have htimed := invariant_at hstep hfair hstart x hx
    have hf := hfair x hx
    obtain ⟨s, op⟩ := x
    cases op with
    | tick => exact tick_lawful htimed hf
    | _ => trivial
  · exact timed_announced (invariant hstep (hfair.upto hpre) hstart)

/-- A client that sends nothing is given up on once the header section is due. -/
theorem silent_client_is_given_up_on :
    Along Op.apply Lawful
        (Session.start (L := limits) { idle_timeout_us := some 30, header_timeout_us := some 10 } 0)
        [.pass 10, .tick] ∧
      Throughout Op.apply Announced
        (Session.start (L := limits) { idle_timeout_us := some 30, header_timeout_us := some 10 } 0)
        [.pass 10, .tick] :=
  timeouts_are_lawful (along_cons.mpr ⟨trivial, along_cons.mpr
    ⟨show 0 + 10 < 2 ^ 64 - 1 by decide, along_nil⟩⟩)

def get_request : Bytes := ascii "GET / HTTP/1.1" ++ CRLF ++ CRLF

/-- A server that waits for header sections no longer than `10`. -/
def impatient : Session limits :=
  Session.start { idle_timeout_us := none, header_timeout_us := some 10 } 0

/-- The connection is closed while the response to the request it has read goes out, and, where an
empty feed made it leave the request late, two time units after its wait for the next one began. -/
theorem response_is_cut_off :
    ¬ Along Op.apply Lawful impatient
        [.feed get_request, .recv_headers 1, .feed [], .pass 5, .send_headers 1 [], .pass 5,
          .tick] ∧
      ¬ Along Op.apply Lawful impatient
        [.feed get_request, .recv_headers 1, .pass 8, .feed [], .pass 2, .tick] := by
  decide

end milli_http.http1.timeouts
