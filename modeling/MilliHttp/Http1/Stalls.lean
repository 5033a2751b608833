-- Where the receive loop of a server stands when it ends, and what a feed of no bytes does from
-- there once the application has read: nothing, unless the message is over and the next header
-- section is already there.
import MilliHttp.Http1.Steps
import MilliHttp.Lib.Run

open bytes method

namespace milli_http.http1.stalls

open parse Http1Connection

variable {L : Limits} {c c' : Http1Connection L}

/-- Body bytes wait in the receive buffer for room in the body buffer. -/
def recv_blocked (c : Http1Connection L) : Bool := c.body_parked && !c.recv_buf.isEmpty

/-! ## What the application can see -/

/-- No event, no header and no body byte is there that was not there before. -/
structure Quiet (c c' : Http1Connection L) : Prop where
  events : c'.events = c.events
  headers : c'.headers_available = true → c.headers_available = true ∧ c'.header_buf = c.header_buf
  data : c'.data_buf = c.data_buf

instance (c c' : Http1Connection L) : Decidable (Quiet c c') :=
  decidable_of_iff (c'.events = c.events ∧
    (c'.headers_available = true → c.headers_available = true ∧ c'.header_buf = c.header_buf) ∧
    c'.data_buf = c.data_buf)
    ⟨fun ⟨h₁, h₂, h₃⟩ => ⟨h₁, h₂, h₃⟩, fun h => ⟨h.events, h.headers, h.data⟩⟩

/-- The message is over and read, and the header section of the next one is there. -/
def NextWaits (c : Http1Connection L) : Prop :=
  c.state = .Done ∧ c.Consumed ∧
    ∃ stop ∈ find_end_of_headers c.recv_buf,
      (Section.read L.HDRBUF c.role (c.recv_buf.take stop) {}).1 = .ok ()

instance (c : Http1Connection L) : Decidable (NextWaits c) := inferInstanceAs (Decidable (_ ∧ _ ∧ ∃ stop ∈ _, _))

theorem Quiet.refl (c : Http1Connection L) : Quiet c c := ⟨rfl, fun h => ⟨h, rfl⟩, rfl⟩

/-! ## Where the loop ends -/

/-- What the receive loop reads and writes of a connection beside what the application sees. -/
def parse_side (c : Http1Connection L) := (c.role, c.state, c.chunk_state, c.recv_buf, c.body_parked)

/-- The loop has gone as far as it can: a body has no bytes or no room, and anything else is not
there as a whole. A message that is over waits for the application. -/
def Stuck (c : Http1Connection L) : Prop :=
  match body_left c with
  | some _ => c.recv_buf = [] ∨ c.body_parked = true
  | none => c.state = .Done ∨ (turn c).1 ≠ .ok true

/-- A server between two calls. -/
structure Settled (c : Http1Connection L) : Prop where
  server : c.role = .Server
  framed : c.state ≠ .BodyUntilClose
  fits : c.recv_buf.length ≤ L.BUF
  stuck : Stuck c

theorem body_left_congr (hstate : c'.state = c.state) (hchunk : c'.chunk_state = c.chunk_state) :
    body_left c' = body_left c := by
  unfold body_left
  rw [hstate, hchunk]

/-- How a turn that takes no body bytes ends is read off the parser's own fields. -/
theorem turn_congr (hbody : body_left c = none) (hdone : c.state ≠ .Done)
    (hrole : c'.role = c.role) (hstate : c'.state = c.state)
    (hchunk : c'.chunk_state = c.chunk_state) (hrecv : c'.recv_buf = c.recv_buf) :
    (turn c').1 = (turn c).1 := by
  unfold turn
  rw [hstate]
  cases hs : c.state with
  | Idle =>
    simp only [try_parse_start_line, hrecv, hrole]
    rcases find_end_of_headers c.recv_buf with _ | stop
    · rfl
    · rcases hread : Section.read L.HDRBUF c.role (c.recv_buf.take stop) {} with ⟨e | _, sec⟩
      · simp only [hread]
      · simp only [hread]
  | BodyContentLength n => simp [body_left, hs] at hbody
  | BodyUntilClose => rfl
  | Done => exact absurd hs hdone
  | BodyChunked =>
    simp only [process_chunked_body, hchunk, hrecv]
    cases hc : c.chunk_state with
    | Size =>
      dsimp only
      rcases parse_chunk_size c.recv_buf with e | ⟨size, n⟩
      · cases e <;> rfl
      · rfl
    | Data n => simp [body_left, hs, hc] at hbody
    | DataTrailer =>
      dsimp only
      split
      · rfl
      · split <;> rfl
    | Trailers =>
      dsimp only
      split
      · rfl
      · split
        · rfl
        · rcases parse_header_line c.recv_buf with e | ⟨name, value, n⟩ <;> rfl

theorem stuck_congr (h : Stuck c) (hside : parse_side c' = parse_side c) : Stuck c' := by
  obtain ⟨hrole, hstate, hchunk, hrecv, hparked⟩ : c'.role = c.role ∧ c'.state = c.state ∧
      c'.chunk_state = c.chunk_state ∧ c'.recv_buf = c.recv_buf ∧ c'.body_parked = c.body_parked := by
    simpa [parse_side] using hside
  unfold Stuck at h ⊢
  rw [body_left_congr hstate hchunk]
  rcases hbody : body_left c with _ | n
  · simp only [hbody] at h
    dsimp only
    rw [hstate]
    by_cases hdone : c.state = .Done
    · exact .inl hdone
    · rw [turn_congr hbody hdone hrole hstate hchunk hrecv]
      exact h
  · simp only [hbody] at h
    dsimp only
    rw [hrecv, hparked]
    exact h

theorem Settled.of_same (h : Settled c) (hside : parse_side c' = parse_side c) : Settled c' := by
  obtain ⟨hrole, hstate, _, hrecv, _⟩ : c'.role = c.role ∧ c'.state = c.state ∧
      c'.chunk_state = c.chunk_state ∧ c'.recv_buf = c.recv_buf ∧ c'.body_parked = c.body_parked := by
    simpa [parse_side] using hside
  exact ⟨hrole ▸ h.server, hstate ▸ h.framed, by rw [hrecv]; exact h.fits, stuck_congr h.stuck hside⟩

/-- With nothing received the loop cannot go on but to leave a message behind. -/
theorem stuck_of_empty (h : c.recv_buf = []) : Stuck c := by
  unfold Stuck
  rcases hbody : body_left c with _ | n
  · dsimp only
    by_cases hdone : c.state = .Done
    · exact .inl hdone
    refine .inr fun hgo => ?_
    rcases hrun : turn c with ⟨r, c₁⟩
    rw [hrun] at hgo
    cases hgo
    have hlow := turn_lowers c c₁ hrun
    simp [budget, h, hdone] at hlow
  · exact .inl h

/-- A turn fails on what it cannot read, and takes nothing. -/
theorem turn_fails {e : Error} (h : turn c = (.error e, c')) :
    body_left c = none ∧ c.state ≠ .Done ∧
      (c' = c ∨ ∃ buf, c.state = .Idle ∧ c' = { c with header_buf := buf, headers_available := false }) := by
  have hbody : body_left c = none := by
    rcases hbody : body_left c with _ | n
    · rfl
    · by_cases hr : c.recv_buf = []
      · rw [turn_body_empty hbody hr] at h
        cases h
      · by_cases hk : c.can_store n = 0
        · rw [turn_body_full hbody hr hk] at h
          cases h
        · rw [turn_body_moves hbody hr (Nat.pos_of_ne_zero hk)] at h
          cases h
  have hdone : c.state ≠ .Done := by
    intro hdone
    simp only [turn, hdone] at h
    split at h <;> cases h
  refine ⟨hbody, hdone, ?_⟩
  unfold turn at h
  split at h
  · rename_i hidle
    unfold try_parse_start_line at h
    split at h
    · cases h
    · split at h
      · cases h
        exact .inr ⟨_, hidle, rfl⟩
      · cases h
  · rename_i hstate
    simp [body_left, hstate] at hbody
  · rename_i hstate
    unfold process_chunked_body at h
    split at h
    · split at h
      · cases h
      · cases h
      · cases h
        exact .inl rfl
    · rename_i hchunk
      simp [body_left, hstate, hchunk] at hbody
    · split at h
      · cases h
      · split at h
        · cases h
        · cases h
          exact .inl rfl
    · split at h
      · cases h
      · split at h
        · cases h
        · split at h
          · cases h
          · cases h
            exact .inl rfl
  · cases h
  · exact absurd ‹_› hdone

/-! ## The receive loop -/

theorem framing_server (sec : Section) : sec.framing .Server ≠ .UntilClose := by
  unfold Section.framing
  split
  · nofun
  · split <;> nofun

theorem message_begun {framing : Framing} {p : Http1Connection L} (hserver : p.role = .Server)
    (hclose : framing ≠ .UntilClose) :
    (announce (number_message (begin_body framing p))).role = .Server ∧
      (announce (number_message (begin_body framing p))).state ≠ .BodyUntilClose ∧
      (announce (number_message (begin_body framing p))).state ≠ .Idle ∧
      (announce (number_message (begin_body framing p))).headers_available = p.headers_available := by
  have hside : ∀ q : Http1Connection L, (announce q).role = q.role ∧ (announce q).state = q.state ∧
      (announce q).headers_available = q.headers_available := by
    intro q
    unfold announce
    dsimp only
    split <;> exact ⟨rfl, rfl, rfl⟩
  obtain ⟨hrole, hstate, havail⟩ := hside (number_message (begin_body framing p))
  rw [hrole, hstate, havail]
  unfold begin_body
  split
  · simp [number_message, hserver]
  · simp [number_message, hserver]
  · simp [number_message, hserver]
  · simp [number_message, hserver]
  · exact absurd rfl hclose

theorem message_opened (sec : Section) (stop : Nat) (hserver : c.role = .Server) :
    (open_message sec stop c).role = .Server ∧ (open_message sec stop c).state ≠ .BodyUntilClose ∧
      (open_message sec stop c).state ≠ .Idle ∧ (open_message sec stop c).headers_available = true := by
  unfold open_message
  rw [hserver]
  exact message_begun hserver (framing_server sec)

/-- A server stays one, and never reads a body up to the end of the connection. -/
theorem turned_server (hserver : c.role = .Server) (hframed : c.state ≠ .BodyUntilClose)
    (h : Turned c c') : c'.role = .Server ∧ c'.state ≠ .BodyUntilClose := by
  cases h with
  | opened sec stop _ _ _ =>
    obtain ⟨hrole, hstate, _⟩ := message_opened sec stop hserver
    exact ⟨hrole, hstate⟩
  | moved n hbody _ =>
    unfold body_left at hbody
    unfold moved go_on close_body with_left
    split at hbody <;> split <;> split <;>
      simp_all [store_body, drain_recv, push_event, finish_message]
  | line n next hstate => exact ⟨hserver, by simpa [drain_recv] using hframed⟩
  | finished _ _ => exact ⟨hserver, by simp [finish_message, push_event]⟩
  | left _ _ => exact ⟨hserver, by simp [next_message]⟩

theorem turned_recv_buf_le (h : Turned c c') : c'.recv_buf.length ≤ c.recv_buf.length := by
  cases h with
  | opened sec stop _ _ _ => simp [open_message, drain_recv]
  | moved n _ _ => simp [moved, store_body, drain_recv, push_event]
  | line n next _ => simp [drain_recv]
  | finished _ _ => simp [finish_message, push_event, drain_recv]
  | left _ _ => exact le_refl _

/-- Wherever the receive loop ends, it is stuck. -/
theorem process_recv_settles (hserver : c.role = .Server) (hframed : c.state ≠ .BodyUntilClose)
    (hfits : c.recv_buf.length ≤ L.BUF) : Settled (process_recv c).2 := by
  unfold process_recv
  induction c using Method.loop_induction turn_lowers with
  | hstop c c₁ hrun =>
    rw [Method.loop_of_stops hrun]
    have hsame := turn_stops hrun hframed
    rcases hbody : body_left c with _ | n
    · -- whether bytes are parked does not matter
      have hbody' : body_left c₁ = none := by
        rw [hsame]
        exact hbody
      have hstuck : Stuck c₁ := by
        unfold Stuck
        simp only [hbody']
        by_cases hdone : c.state = .Done
        · exact .inl (by rw [hsame]; exact hdone)
        · refine .inr ?_
          rw [turn_congr hbody hdone (by rw [hsame]) (by rw [hsame]) (by rw [hsame]) (by rw [hsame]),
            hrun]
          nofun
      exact ⟨by rw [hsame]; exact hserver, by rw [hsame]; exact hframed, by rw [hsame]; exact hfits,
        hstuck⟩
    · by_cases hr : c.recv_buf = []
      · rw [turn_body_empty hbody hr] at hrun
        cases hrun
        exact ⟨hserver, hframed, hfits, stuck_of_empty hr⟩
      · by_cases hk : c.can_store n = 0
        · rw [turn_body_full hbody hr hk] at hrun
          cases hrun
          refine ⟨hserver, hframed, hfits, ?_⟩
          have hbody' : body_left ({ c with body_parked := true } : Http1Connection L) = some n := hbody
          unfold Stuck
          simp only [hbody']
          exact .inr trivial
        · rw [turn_body_moves hbody hr (Nat.pos_of_ne_zero hk)] at hrun
          cases hrun
  | hfail c e c₁ hrun =>
    rw [Method.loop_of_fails hrun]
    obtain ⟨hbody, hdone, hsame⟩ := turn_fails hrun
    have hstuck : Stuck c := by
      unfold Stuck
      simp only [hbody]
      refine .inr ?_
      rw [hrun]
      nofun
    have hsettled : Settled c := ⟨hserver, hframed, hfits, hstuck⟩
    rcases hsame with rfl | ⟨buf, _, rfl⟩
    · exact hsettled
    · exact hsettled.of_same rfl
  | hgo c c₁ hrun ih =>
    rw [Method.loop_of_goes_on turn_lowers hrun]
    have hturned := turn_turned hrun
    obtain ⟨hserver', hframed'⟩ := turned_server hserver hframed hturned
    exact ih hserver' hframed' ((turned_recv_buf_le hturned).trans hfits)

theorem process_recv_recv_le (hserver : c.role = .Server) (hframed : c.state ≠ .BodyUntilClose) :
    (process_recv c).2.recv_buf.length ≤ c.recv_buf.length := by
  unfold process_recv
  induction c using Method.loop_induction turn_lowers with
  | hstop c c₁ hrun =>
    rw [Method.loop_of_stops hrun, turn_stops hrun hframed]
  | hfail c e c₁ hrun =>
    rw [Method.loop_of_fails hrun]
    obtain ⟨_, _, rfl | ⟨buf, _, rfl⟩⟩ := turn_fails hrun
    · exact le_refl _
    · exact le_refl _
  | hgo c c₁ hrun ih =>
    rw [Method.loop_of_goes_on turn_lowers hrun]
    have hturned := turn_turned hrun
    obtain ⟨hserver', hframed'⟩ := turned_server hserver hframed hturned
    exact (ih hserver' hframed').trans (turned_recv_buf_le hturned)

/-! ## A feed of no bytes -/

/-- Once a message is open its header section stays there until the application reads it. -/
theorem process_recv_keeps_headers (hserver : c.role = .Server)
    (havail : c.headers_available = true) (hidle : c.state ≠ .Idle) (hframed : c.state ≠ .BodyUntilClose) :
    (process_recv c).2.headers_available = true := by
  unfold process_recv
  induction c using Method.loop_induction turn_lowers with
  | hstop c c₁ hrun =>
    rw [Method.loop_of_stops hrun, turn_stops hrun hframed]
    exact havail
  | hfail c e c₁ hrun =>
    rw [Method.loop_of_fails hrun]
    obtain ⟨_, _, rfl | ⟨buf, hidle', rfl⟩⟩ := turn_fails hrun
    · exact havail
    · exact absurd hidle' hidle
  | hgo c c₁ hrun ih =>
    rw [Method.loop_of_goes_on turn_lowers hrun]
    have hturned := turn_turned hrun
    obtain ⟨hserver', hframed'⟩ := turned_server hserver hframed hturned
    refine ih hserver' ?_ ?_ hframed'
    · cases hturned with
      | opened sec stop hidle' _ _ => exact absurd hidle' hidle
      | moved n _ _ =>
        unfold moved go_on close_body with_left
        split <;> split <;> exact havail
      | line n next _ => exact havail
      | finished _ _ => exact havail
      | left _ hconsumed => exact havail
    · cases hturned with
      | opened sec stop hidle' _ _ => exact absurd hidle' hidle
      | moved n hbody _ =>
        unfold body_left at hbody
        unfold moved go_on close_body with_left
        split at hbody <;> split <;> split <;>
          simp_all [store_body, drain_recv, push_event, finish_message]
      | line n next hstate => simp [drain_recv, hstate]
      | finished _ _ => simp [finish_message, push_event]
      | left _ hconsumed => cases havail.symm.trans hconsumed.1

/-- A turn that stops or fails shows the application nothing. -/
theorem quiet_of_last_turn {r : Except Error Bool} (h : turn c = (r, c')) (hr : r ≠ .ok true)
    (hframed : c.state ≠ .BodyUntilClose) : Quiet c c' := by
  rcases r with e | b
  · obtain ⟨_, _, rfl | ⟨buf, _, rfl⟩⟩ := turn_fails h
    · exact Quiet.refl _
    · exact ⟨rfl, nofun, rfl⟩
  · cases b with
    | true => exact absurd rfl hr
    | false =>
      rw [turn_stops h hframed]
      exact ⟨rfl, fun ha => ⟨ha, rfl⟩, rfl⟩

theorem process_recv_of_last_turn {r : Except Error Bool} (h : turn c = (r, c')) (hr : r ≠ .ok true) :
    (process_recv c).2 = c' := by
  rcases r with e | b
  · rw [process_recv, Method.loop_of_fails h]
  · cases b with
    | true => exact absurd rfl hr
    | false => rw [process_recv, Method.loop_of_stops h]

theorem quiet_of_not_going_on (hframed : c.state ≠ .BodyUntilClose) (h : (turn c).1 ≠ .ok true) :
    Quiet c (process_recv c).2 := by
  rcases hrun : turn c with ⟨r, c'⟩
  rw [hrun] at h
  rw [process_recv_of_last_turn hrun h]
  exact quiet_of_last_turn hrun h hframed

/-- A message that is over and read makes way for the next one. -/
theorem turn_done (hdone : c.state = .Done) (hconsumed : c.Consumed) :
    turn c = (.ok true, next_message c) := by
  simp only [turn, hdone, hconsumed, if_true]

/-- From where the loop ended, going round again shows something exactly if the message is over
and read and the header section of the next one is there. -/
theorem process_recv_quiet_iff (h : Settled c) (hblocked : recv_blocked c = false) :
    Quiet c (process_recv c).2 ↔ ¬ NextWaits c := by
  by_cases hdone : c.state = .Done
  · by_cases hconsumed : c.Consumed
    · have hnext := turn_done hdone hconsumed
      have hloop : process_recv c = process_recv (next_message c) :=
        Method.loop_of_goes_on turn_lowers hnext
      constructor
      · rintro hquiet ⟨_, _, stop, hstop, hread⟩
        -- the next message is opened
        rcases hsec : Section.read L.HDRBUF c.role (c.recv_buf.take stop) {} with ⟨r, sec⟩
        rw [hsec] at hread
        obtain rfl : r = .ok () := hread
        have hopen : turn (next_message c) = (.ok true, open_message sec stop (next_message c)) := by
          have hstop' : find_end_of_headers (next_message c).recv_buf = some stop := hstop
          have hsec' : Section.read L.HDRBUF (next_message c).role
              ((next_message c).recv_buf.take stop) {} = (.ok (), sec) := hsec
          simp only [turn, show (next_message c).state = .Idle from rfl, try_parse_start_line, hstop',
            hsec']
        obtain ⟨hrole, hframed, hidle, havail⟩ := message_opened sec stop
          (c := next_message c) h.server
        have hkept := process_recv_keeps_headers hrole havail hidle hframed
        have hall : process_recv c = process_recv (open_message sec stop (next_message c)) :=
          hloop.trans (Method.loop_of_goes_on turn_lowers hopen)
        rw [hall] at hquiet
        cases hconsumed.1.symm.trans (hquiet.headers hkept).1
      · intro hno
        rw [hloop]
        have hlast : (turn (next_message c)).1 ≠ .ok true := by
          simp only [turn, show (next_message c).state = .Idle from rfl, try_parse_start_line]
          rcases hstop : find_end_of_headers (next_message c).recv_buf with _ | stop
          · simp
          · rcases hsec : Section.read L.HDRBUF (next_message c).role
                ((next_message c).recv_buf.take stop) {} with ⟨e | _, sec⟩
            · simp [hsec]
            · exact absurd ⟨hdone, hconsumed, stop, hstop, congrArg Prod.fst hsec⟩ hno
        have hquiet := quiet_of_not_going_on (c := next_message c) (by rintro ⟨⟩) hlast
        exact ⟨hquiet.events, hquiet.headers, hquiet.data⟩
    · refine ⟨fun _ hwaits => hconsumed hwaits.2.1, fun _ => ?_⟩
      refine quiet_of_not_going_on h.framed ?_
      simp [turn, hdone, hconsumed]
  · refine ⟨fun _ hwaits => hdone hwaits.1, fun _ => ?_⟩
    have hstuck := h.stuck
    unfold Stuck at hstuck
    refine quiet_of_not_going_on h.framed ?_
    rcases hbody : body_left c with _ | n
    · simp only [hbody] at hstuck
      exact hstuck.resolve_left hdone
    · simp only [hbody] at hstuck
      have hempty : c.recv_buf = [] := by
        rcases hstuck with hempty | hparked
        · exact hempty
        · simpa [recv_blocked, hparked] using hblocked
      rw [turn_body_empty hbody hempty]
      rintro ⟨⟩

end milli_http.http1.stalls
