-- The end of a connection: its state moves in one direction only, it is reported connected at
-- most once, and a connection that is closed sends nothing. One that is draining sends what it
-- has left.
import MilliHttp.Connection.Updates
import MilliHttp.Standin

open bytes method run

namespace milli_http.connection.closing

open crypto tls transport packet frame Connection

variable {B : Build}

/-! ## What the law says -/

/-- The order of the states. -/
def rank : ConnectionState → Nat
  | .Handshaking => 0
  | .Active => 1
  | .Closing => 2
  | .Draining => 3
  | .Closed => 4

/-- The event a step hands to the application. -/
def handed_out : Connection B × Step → Option Event
  | (c, .op .poll_event) => c.poll_event.1
  | _ => none

/-- How often `Connected` has been queued: it was handed out or is still in the queue. -/
def announced (trace : List (Connection B × Step)) (c : Connection B) : Nat :=
  (trace.filterMap handed_out ++ c.events).count .Connected

/-- A connection that is draining or closed gives no datagram. -/
def Silent (c : Connection B) : Step → Prop
  | .op (.poll_transmit buf_len now) =>
    c.state = .Draining ∨ c.state = .Closed → (c.poll_transmit buf_len now).1 = none
  | _ => True

instance (c : Connection B) : (s : Step) → Decidable (Silent c s)
  | .op (.poll_transmit _ _) => inferInstanceAs (Decidable (_ → _))
  | .op (.handle_timeout _) | .op .poll_event | .op .open_stream | .op .open_uni_stream
  | .op (.stream_send ..) | .op (.stream_recv ..) | .op (.stream_reset _)
  | .op (.stream_stop_sending _) | .op (.close ..) | .op .initiate_key_update
  | .arrive .. | .open_packet .. | .dispatch .. | .initial_done | .record _ | .check_tls_keys =>
    .isTrue trivial

/-! ## Nothing to send -/

/-- The engine hands out no flight: none is pending, or it is too long for the buffer of 2048
bytes. -/
def Resting (e : TlsEngine) : Prop :=
  match e.role with
  | .Client => e.state ≠ .Start ∧ (e.pending_write = [] ∨ 2048 < e.pending_write.length)
  | .Server =>
    (e.state = .SendServerFlightInitial → e.pending_write = [] ∨ 2048 < e.pending_write.length) ∧
      (e.state = .SendServerFlightHandshake →
        e.pending_write_hs = [] ∨ 2048 < e.pending_write_hs.length)

instance (e : TlsEngine) : Decidable (Resting e) := by
  unfold Resting
  cases e.role <;> infer_instance

/-- The CRYPTO stream of a level is sent to its end, and no flight follows. -/
def CryptoSent (level : Level) (c : Connection B) : Prop :=
  ∀ ctx ∈ c.handshake_slot,
    ctx.crypto_send_offset.get level = (ctx.pending_crypto.get level).length ∧ Resting ctx.tls

instance (level : Level) (c : Connection B) : Decidable (CryptoSent level c) :=
  inferInstanceAs (Decidable (∀ ctx ∈ c.handshake_slot, _))

/-- A 1-RTT packet finds nothing but, perhaps, an ACK: no HANDSHAKE_DONE, PATH_RESPONSE or limit,
and no data or no congestion window for it. -/
def ShortIdle (c : Connection B) : Prop :=
  ¬(c.role = .Server ∧ c.need_handshake_done = true) ∧ c.pending_path_response = none ∧
    c.flow_control.should_send_max_data = none ∧ c.streams.should_send_max_stream_data = none ∧
    (c.sio.send_queue = [] ∨ c.congestion.available_window < 16)

instance (c : Connection B) : Decidable (ShortIdle c) := inferInstanceAs (Decidable (_ ∧ _))

/-- The connection has nothing to send in a buffer of `buf_len` bytes: no CONNECTION_CLOSE, and at
no level with keys an ACK or one of the level's other frames. -/
structure Idle (buf_len : Nat) (c : Connection B) : Prop where
  close : c.close_frame.isSome = true → c.close_level = none
  acks : ∀ level, c.keys.has_send_keys level = true → c.ack_eliciting_received.get level = false
  initial : c.keys.has_send_keys .Initial = true → MIN_INITIAL_PACKET_SIZE ≤ buf_len →
    CryptoSent .Initial c
  handshake : c.keys.has_send_keys .Handshake = true → CryptoSent .Handshake c
  short : c.keys.has_send_keys .Application = true → ShortIdle c

instance (buf_len : Nat) (c : Connection B) : Decidable (Idle buf_len c) :=
  decidable_of_iff
    ((c.close_frame.isSome = true → c.close_level = none) ∧
      (c.keys.has_send_keys .Initial = true → c.ack_eliciting_received.get .Initial = false ∧
        (MIN_INITIAL_PACKET_SIZE ≤ buf_len → CryptoSent .Initial c)) ∧
      (c.keys.has_send_keys .Handshake = true → c.ack_eliciting_received.get .Handshake = false ∧
        CryptoSent .Handshake c) ∧
      (c.keys.has_send_keys .Application = true →
        c.ack_eliciting_received.get .Application = false ∧ ShortIdle c))
    ⟨fun ⟨hclose, hinitial, hhandshake, hshort⟩ => {
        close := hclose
        acks := fun level => match level with
          | .Initial => fun h => (hinitial h).1
          | .Handshake => fun h => (hhandshake h).1
          | .Application => fun h => (hshort h).1
        initial := fun h => (hinitial h).2
        handshake := fun h => (hhandshake h).2
        short := fun h => (hshort h).2 },
      fun h => ⟨h.close, fun hk => ⟨h.acks _ hk, h.initial hk⟩,
        fun hk => ⟨h.acks _ hk, h.handshake hk⟩, fun hk => ⟨h.acks _ hk, h.short hk⟩⟩⟩

/-- The call is no `poll_transmit` on a draining connection that may send and has something to
send, once the CRYPTO streams are rewound if they have to be. -/
def Spares (c : Connection B) : Step → Prop
  | .op (.poll_transmit buf_len _) =>
    c.state = .Draining → c.amplification_allows 1 = false ∨ Idle buf_len c.rewind_crypto
  | _ => True

instance (c : Connection B) : (s : Step) → Decidable (Spares c s)
  | .op (.poll_transmit _ _) => inferInstanceAs (Decidable (_ → _))
  | .op (.handle_timeout _) | .op .poll_event | .op .open_stream | .op .open_uni_stream
  | .op (.stream_send ..) | .op (.stream_recv ..) | .op (.stream_reset _)
  | .op (.stream_stop_sending _) | .op (.close ..) | .op .initiate_key_update
  | .arrive .. | .open_packet .. | .dispatch .. | .initial_done | .record _ | .check_tls_keys =>
    .isTrue trivial

/-! ## One direction -/

/-- How often `Connected` is in the queue, and once more while it can still be pushed. -/
def prospects (c : Connection B) : Nat :=
  c.events.count .Connected + if c.state = .Handshaking then 1 else 0

/-- The state is no earlier, and `Connected` has no better prospects. -/
structure Later (c c' : Connection B) : Prop where
  state : rank c.state ≤ rank c'.state
  prospects : prospects c' ≤ prospects c

instance : IsPreorder (Connection B) Later where
  refl _ := ⟨Nat.le_refl _, Nat.le_refl _⟩
  trans _ _ _ h₁ h₂ := ⟨Nat.le_trans h₁.1 h₂.1, Nat.le_trans h₂.2 h₁.2⟩

/-- The same of a connection that is not closed, which stays so. -/
def Onward (c c' : Connection B) : Prop := c.state ≠ .Closed → c'.state ≠ .Closed ∧ Later c c'

instance : IsPreorder (Connection B) Onward where
  refl c h := ⟨h, refl c⟩
  trans _ _ _ h₁ h₂ h := by
    obtain ⟨hopen, hlater⟩ := h₁ h
    obtain ⟨hopen', hlater'⟩ := h₂ hopen
    exact ⟨hopen', IsTrans.trans _ _ _ hlater hlater'⟩

theorem later_of_eq {c c' : Connection B} (hstate : c'.state = c.state)
    (hevents : c'.events = c.events) : Later c c' := by
  refine ⟨Nat.le_of_eq (by rw [hstate]), Nat.le_of_eq ?_⟩
  unfold prospects
  rw [hstate, hevents]

theorem onward_of_eq {c c' : Connection B} (hstate : c'.state = c.state)
    (hevents : c'.events = c.events) : Onward c c' :=
  fun h => ⟨hstate ▸ h, later_of_eq hstate hevents⟩

theorem later_of_state {c c' : Connection B} (hrank : rank c.state ≤ rank c'.state)
    (hevents : c'.events = c.events) : Later c c' := by
  refine ⟨hrank, ?_⟩
  unfold prospects
  rw [hevents]
  by_cases hlate : c'.state = .Handshaking
  · have hearly : c.state = .Handshaking := by
      rw [hlate] at hrank
      cases hc : c.state <;> simp [hc, rank] at hrank ⊢
    exact Nat.le_of_eq (by rw [if_pos hlate, if_pos hearly])
  · rw [if_neg hlate]
    exact Nat.le_add_right _ _

theorem push_event_state (event : Event) (c : Connection B) :
    (c.push_event event).state = c.state := by
  unfold push_event
  split <;> rfl

theorem count_push_event (event : Event) (c : Connection B) :
    (c.push_event event).events.count .Connected ≤
      c.events.count .Connected + [event].count .Connected := by
  unfold push_event
  split
  · exact Nat.le_of_eq List.count_append
  · exact Nat.le_add_right _ _

theorem later_pushed {event : Event} (hevent : event ≠ .Connected) (c : Connection B) :
    Later c (c.push_event event) := by
  refine ⟨Nat.le_of_eq (by rw [push_event_state]), ?_⟩
  have hcount := count_push_event event c
  rw [List.count_singleton, if_neg (by simpa using hevent)] at hcount
  unfold prospects
  rw [push_event_state]
  omega

/-- `Connected` is pushed only in the step that ends the handshake. -/
theorem later_connected {c : Connection B} (h : c.state = .Handshaking) :
    Later c (push_event { c with state := .Active, address_validated := true }
      .Connected) := by
  constructor
  · rw [push_event_state, h]
    exact Nat.zero_le _
  · have hcount := count_push_event .Connected
      ({ c with state := .Active, address_validated := true } : Connection B)
    rw [List.count_singleton_self] at hcount
    unfold prospects
    rw [push_event_state, if_neg nofun, if_pos h]
    exact hcount

theorem onward_moves : Connection.KeptByMoves (B := B) Onward where
  streams _ _ := onward_of_eq rfl rfl
  received _ _ := onward_of_eq rfl rfl
  max_data _ _ := onward_of_eq rfl rfl
  max_streams _ _ _ := onward_of_eq rfl rfl
  max_data_sent _ := onward_of_eq rfl rfl
  sio _ _ := onward_of_eq rfl rfl
  path_response _ _ := onward_of_eq rfl rfl
  draining c hopen := by
    refine ⟨nofun, later_of_state ?_ rfl⟩
    cases hc : c.state <;> simp [rank]
    exact absurd hc hopen
  pushed event c hevent hopen := ⟨by rwa [push_event_state], later_pushed hevent c⟩
  remote_cid _ _ := onward_of_eq rfl rfl
  keys _ _ := onward_of_eq rfl rfl
  slot _ _ := onward_of_eq rfl rfl
  connected c h _ := ⟨by rw [push_event_state]; exact nofun, later_connected h⟩
  drop_space _ _ := onward_of_eq rfl rfl
  learn_peer_params _ _ := onward_of_eq rfl rfl
  ack _ _ _ _ _ := onward_of_eq rfl rfl
  record pr c := by
    unfold record_packet
    split <;> exact onward_of_eq rfl rfl

theorem later_data : Connection.KeptByData (B := B) Later where
  streams _ _ := later_of_eq rfl rfl
  received _ _ := later_of_eq rfl rfl
  max_data _ _ := later_of_eq rfl rfl
  max_streams _ _ _ := later_of_eq rfl rfl
  max_data_sent _ := later_of_eq rfl rfl
  sio _ _ := later_of_eq rfl rfl
  path_response _ _ := later_of_eq rfl rfl

theorem later_keys : Connection.KeptByKeys (B := B) Later where
  remote_cid _ _ := later_of_eq rfl rfl
  keys _ _ := later_of_eq rfl rfl
  slot _ _ := later_of_eq rfl rfl

theorem later_closed (c : Connection B) : Later c { c with state := .Closed } := by
  refine later_of_state ?_ rfl
  cases hc : c.state <;> simp [rank]

theorem later_calls : Connection.KeptByCalls (B := B) Later where
  toKeptByData := later_data
  pushed event c hevent := later_pushed hevent c
  polled c := by
    refine ⟨Nat.le_refl _, Nat.add_le_add_right ?_ _⟩
    exact List.Sublist.count_le _ (List.tail_sublist c.events)
  closed := later_closed
  pto _ _ := later_of_eq rfl rfl
  close _ c hearly := by
    refine later_of_state ?_ rfl
    cases hc : c.state <;> simp [rank]
    all_goals simp [hc] at hearly
  key_update := Method.keeps_on fun _ => later_of_eq rfl rfl

theorem later_transmit : Connection.KeptByTransmit (B := B) Later where
  toKeptByDrain := .of_parts later_data later_keys later_closed (fun _ _ => later_of_eq rfl rfl)
    (fun _ _ => later_of_eq rfl rfl) fun _ _ => later_of_eq rfl rfl
  sent _ _ _ _ _ _ := later_of_eq rfl rfl
  emitted _ _ := later_of_eq rfl rfl

/-- A step that a connection can take leads to no earlier state. -/
theorem later_step {c : Connection B} {s : Step} (hlive : Connection.Live c s) :
    Later c (s.apply c) := by
  by_cases hop : ∃ o, s = .op o
  · obtain ⟨o, rfl⟩ := hop
    by_cases htransmit : ∃ buf_len now, o = .poll_transmit buf_len now
    · obtain ⟨buf_len, now, rfl⟩ := htransmit
      exact later_transmit.poll_transmit buf_len now c
    · exact later_calls.op (fun buf_len now heq => htransmit ⟨buf_len, now, heq⟩) c
  · have hopen := hlive.resolve_left hop
    by_cases harrive : ∃ len now, s = .arrive len now
    · obtain ⟨len, now, rfl⟩ := harrive
      simp only [Step.apply, arrive]
      split <;> exact later_of_eq rfl rfl
    · exact (onward_moves.step (fun len now heq => harrive ⟨len, now, heq⟩)
        (fun o heq => hop ⟨o, heq⟩) c hopen).2

/-! ## Silence -/

theorem flight_stays {flight : Bytes} (h : flight = [] ∨ 2048 < flight.length) (level : Level)
    (rest : Method TlsEngine Error (Bytes × Level)) (e : TlsEngine) :
    ∃ r, (if flight = [] then pure ([], level)
        else do
          Method.require (flight.length ≤ 2048) (.BufferTooSmall flight.length)
          rest : Method TlsEngine Error (Bytes × Level)) e = (r, e) ∧ ∀ p, r = .ok p → p.1 = [] := by
  split
  · refine ⟨_, rfl, ?_⟩
    rintro p hp
    cases hp
    rfl
  · rename_i hne
    rw [Method.require_bind_run, if_neg (Nat.not_le.mpr (h.resolve_left hne))]
    exact ⟨_, rfl, by rintro _ ⟨⟩⟩

theorem write_handshake_resting (X : Primitives) {e : TlsEngine} (h : Resting e) :
    ∃ r, TlsEngine.write_handshake X 2048 e = (r, e) ∧ ∀ p, r = .ok p → p.1 = [] := by
  unfold TlsEngine.write_handshake
  rw [Method.bind_run, Method.get_run]
  unfold Resting at h
  dsimp only
  cases hrole : e.role with
  | Client =>
    rw [hrole] at h
    obtain ⟨hstart, hpending⟩ := h
    simp only [TlsEngine.write_client, Method.bind_run, Method.get_run, if_neg hstart]
    exact flight_stays hpending _ _ e
  | Server =>
    rw [hrole] at h
    obtain ⟨hinitial, hhandshake⟩ := h
    simp only [TlsEngine.write_server, Method.bind_run, Method.get_run]
    split
    · exact flight_stays (hinitial ‹_›) _ _ e
    · split
      · exact flight_stays (hhandshake ‹_›) _ _ e
      · refine ⟨_, rfl, ?_⟩
        rintro p hp
        cases hp
        rfl

theorem stage_flight_resting (X : Primitives) (level : Level) {ctx : HandshakeContext}
    (h : Resting ctx.tls) : stage_flight X level ctx = ctx := by
  obtain ⟨r, hrun, hnone⟩ := write_handshake_resting X h
  unfold stage_flight
  split
  · rw [hrun]
    cases r with
    | error e => rfl
    | ok p =>
      obtain ⟨flight, tls_level⟩ := p
      have hempty : flight = [] := hnone _ rfl
      subst hempty
      simp only [List.append_nil, PerLevel.set_get_self, ite_self]
  · rfl

variable {buf_len : Nat} {c : Connection B}

theorem put_ack_idle {level : Level} (h : c.ack_eliciting_received.get level = false) (room : Nat)
    (p : Payload) : put_ack level room (c, p) = (c, p) := by
  simp [put_ack, h]

/-- A CRYPTO stream that is sent to its end adds nothing. -/
theorem write_tls_crypto_data_idle {level : Level} (h : CryptoSent level c)
    (room : Nat) (p : Payload) :
    write_tls_crypto_data level room (c, p) = (c, p) := by
  unfold write_tls_crypto_data
  dsimp only
  cases hslot : c.handshake_slot with
  | none => rfl
  | some ctx =>
    obtain ⟨hsent, hresting⟩ := h ctx hslot
    have hnone : next_crypto_frame level (room - p.bytes.length) ctx = none := by
      simp [next_crypto_frame, hsent]
    dsimp only
    rw [stage_flight_resting _ level hresting, hnone, ← hslot]

theorem build_initial_idle (hack : c.ack_eliciting_received.get .Initial = false)
    (hcrypto : MIN_INITIAL_PACKET_SIZE ≤ buf_len → CryptoSent .Initial c) (now : Instant) :
    c.build_initial_packet buf_len now = (none, c) := by
  unfold build_initial_packet
  dsimp only
  split
  · rfl
  · have hdraft : ∀ room, (if buf_len ≥ MIN_INITIAL_PACKET_SIZE then
        write_tls_crypto_data .Initial room
          (put_ack .Initial room (c, .empty))
        else put_ack .Initial room (c, .empty)) = (c, .empty) := by
      intro room
      rw [put_ack_idle hack]
      split
      · exact write_tls_crypto_data_idle (hcrypto ‹_›) _ _
      · rfl
    rw [hdraft]
    rfl

theorem build_handshake_idle (hack : c.ack_eliciting_received.get .Handshake = false)
    (hcrypto : CryptoSent .Handshake c) (now : Instant) :
    c.build_handshake_packet buf_len now = (none, c) := by
  unfold build_handshake_packet
  dsimp only
  split
  · rfl
  · rw [put_ack_idle hack, write_tls_crypto_data_idle hcrypto]
    rfl

/-- Without HANDSHAKE_DONE, PATH_RESPONSE, ACK, limits and data a 1-RTT packet stays empty. -/
theorem drain_short_idle (hack : c.ack_eliciting_received.get .Application = false)
    (h : ShortIdle c) (room : Nat) : c.drain_short room = (c, .empty) := by
  obtain ⟨hdone, hpath, hdata, hstream, hqueue⟩ := h
  have hlimits : ∀ fuel, put_max_stream_data room fuel (c, .empty) = (c, .empty) := by
    intro fuel
    cases fuel with
    | zero => rfl
    | succ fuel => simp [put_max_stream_data, hstream]
  have hstreams : put_streams room (c, .empty) = (c, .empty) := by
    unfold put_streams
    have hnone : build_stream_frames
        (Payload.empty.bytes.length +
          min c.congestion.available_window (room - Payload.empty.bytes.length))
        c.sio.send_queue .empty = (c.sio.send_queue, .empty) := by
      cases hq : c.sio.send_queue with
      | nil => rfl
      | cons entry rest =>
        have hwindow := hqueue.resolve_left (by simp [hq])
        unfold build_stream_frames
        rw [if_pos (by omega)]
    dsimp only
    rw [hnone]
  unfold drain_short
  dsimp only
  have hdone' : put_handshake_done room (c, .empty) = (c, .empty) := by
    simp only [put_handshake_done, if_neg hdone]
  have hpath' : put_path_response room (c, .empty) = (c, .empty) := by
    simp only [put_path_response, hpath]
  have hdata' : put_max_data room (c, .empty) = (c, .empty) := by
    simp only [put_max_data, hdata]
  rw [hdone', hpath', put_ack_idle hack, hdata', hlimits, hstreams]

/-- The slot being released changes nothing about that. -/
theorem Idle.release (h : Idle buf_len c) : Idle buf_len c.maybe_release_handshake_slot := by
  rcases maybe_release_cases c with heq | ⟨ctx, -, -, heq⟩
  · rwa [heq]
  · have hsent : ∀ level, CryptoSent level { c with handshake_slot := none } := by
      intro level ctx hctx
      cases hctx
    rw [heq]
    exact ⟨h.close, h.acks, fun _ _ => hsent .Initial, fun _ => hsent .Handshake, h.short⟩

theorem Idle.short_packet (h : Idle buf_len c) (cap : Nat) (now : Instant) :
    c.build_with_keys .Application (build_short_packet cap now) = (none, c) := by
  unfold build_with_keys
  split
  · rename_i hkeys
    unfold build_short_packet
    dsimp only
    split
    · rfl
    · rw [drain_short_idle (h.acks .Application hkeys) (h.short hkeys)]
      rfl
  · rfl

theorem Idle.build_packets (h : Idle buf_len c) (now : Instant) :
    (c.build_packets buf_len now).1 = [] := by
  have hinitial : c.build_with_keys .Initial (build_initial_packet buf_len now) =
      (none, c) := by
    unfold build_with_keys
    split
    · exact build_initial_idle (h.acks .Initial ‹_›) (h.initial ‹_›) now
    · rfl
  have hhandshake : c.build_with_keys .Handshake (build_handshake_packet buf_len now) =
      (none, c) := by
    unfold build_with_keys
    split
    · exact build_handshake_idle (h.acks .Handshake ‹_›) (h.handshake ‹_›) now
    · rfl
  have hnone : packet_length none = 0 := rfl
  unfold Connection.build_packets Connection.build_long_packets
  simp only [hinitial, hnone, Nat.sub_zero, hhandshake, h.release.short_packet]
  rfl

/-- A connection with nothing to send transmits nothing. -/
theorem Idle.transmit (h : Idle buf_len c) (now : Instant) : (c.transmit buf_len now).1 = none := by
  unfold Connection.transmit
  cases hclose : c.close_frame with
  | some frame =>
    have hlevel := h.close (by rw [hclose]; rfl)
    simp only [transmit_close, hlevel]
  | none =>
    have hpackets := h.build_packets now
    rcases hbuilt : c.build_packets buf_len now with ⟨packets, c'⟩
    rw [hbuilt] at hpackets
    dsimp only at hpackets ⊢
    subst hpackets
    rfl

/-- Neither does a key update. -/
theorem Idle.with_keys (h : Idle buf_len c) {keys : ConnectionKeys B.toPrimitives}
    (hkeys : ∀ level, keys.has_send_keys level = c.keys.has_send_keys level) :
    Idle buf_len { c with keys } where
  close hsome := by
    have hlevel := h.close hsome
    unfold close_level at hlevel ⊢
    simpa only [hkeys] using hlevel
  acks level hhas := h.acks level (hkeys level ▸ hhas)
  initial hhas := h.initial (hkeys .Initial ▸ hhas)
  handshake hhas := h.handshake (hkeys .Handshake ▸ hhas)
  short hhas := h.short (hkeys .Application ▸ hhas)

theorem auto_key_update_send_keys (c : Connection B) :
    ∃ keys, (auto_key_update c).2 = { c with keys } ∧
      ∀ level, keys.has_send_keys level = c.keys.has_send_keys level := by
  unfold auto_key_update
  rw [Method.get_bind_run]
  split
  · exact ⟨_, rfl, ConnectionKeys.perform_key_update_has_send_keys c.keys⟩
  · exact ⟨c.keys, rfl, fun _ => rfl⟩

theorem rewind_crypto_with_keys (c : Connection B) (keys : ConnectionKeys B.toPrimitives) :
    ({ c with keys } : Connection B).rewind_crypto = { c.rewind_crypto with keys } := by
  unfold rewind_crypto
  dsimp only
  split <;> rfl

theorem rewind_crypto_keys (c : Connection B) : c.rewind_crypto.keys = c.keys := by
  unfold rewind_crypto
  split <;> rfl

theorem silent_of_spares {s : Step} (h : Spares c s) : Silent c s := by
  cases s with
  | op o =>
    cases o with
    | poll_transmit buf_len now =>
      intro hstate
      unfold poll_transmit
      by_cases hclosed : c.state = .Closed
      · rw [if_pos hclosed]
      · rw [if_neg hclosed]
        split
        · rfl
        · rename_i hamp
          have hidle := (h (hstate.resolve_right hclosed)).resolve_left hamp
          obtain ⟨keys, heq, hkeys⟩ := auto_key_update_send_keys c
          rcases hrun : auto_key_update c with ⟨r, c'⟩
          rw [hrun] at heq
          cases r with
          | error e => rfl
          | ok u =>
            dsimp only at heq ⊢
            rw [heq, rewind_crypto_with_keys]
            exact (hidle.with_keys fun level => by rw [rewind_crypto_keys, hkeys]).transmit now
    | _ => trivial
  | _ => trivial

/-! ## Runs -/

/-- What is handed out and what is still queued, and the prospects of more, only get less. -/
def hopes (trace : List (Connection B × Step)) (c : Connection B) : Nat :=
  (trace.filterMap handed_out).count .Connected + prospects c

theorem hopes_step {trace : List (Connection B × Step)} {s : Step} (hlive : Connection.Live c s) :
    hopes (trace ++ [(c, s)]) (s.apply c) ≤ hopes trace c := by
  have hlater := (later_step hlive).prospects
  unfold hopes
  rw [List.filterMap_append, List.count_append]
  by_cases hpoll : s = .op .poll_event
  · -- What is handed out leaves the queue.
    subst hpoll
    have hqueue : ([(c, Step.op .poll_event)].filterMap handed_out).count .Connected +
        c.events.tail.count .Connected = c.events.count .Connected := by
      cases hevents : c.events with
      | nil => simp [handed_out, poll_event, hevents]
      | cons event rest =>
        simp [handed_out, poll_event, hevents, List.count_cons]
        omega
    have hnext : prospects (Step.apply (.op .poll_event) c) =
        c.events.tail.count .Connected + if c.state = .Handshaking then 1 else 0 := rfl
    rw [hnext]
    unfold prospects
    omega
  · have hnone : ([(c, s)].filterMap handed_out) = [] := by
      simp only [List.filterMap_cons, List.filterMap_nil]
      have : handed_out (c, s) = none := by
        unfold handed_out
        split
        · rename_i heq
          cases heq
          exact absurd rfl hpoll
        · rfl
      rw [this]
    rw [hnone, List.count_nil]
    omega

theorem Started.hopes (h : Connection.Started c) : hopes [] c ≤ 1 := by
  obtain ⟨role, keys, tls, local_cid, remote_cid, tp, rfl⟩ := h.fresh
  exact Nat.le_refl 1

/-- The state of a connection never moves back and `Connected` is queued at most once. A connection
that is draining or closed sends nothing, if nothing is left to send whenever it is polled while
draining. -/
theorem closing_is_silent_and_one_way {c : Connection B} (h : Connection.Started c) (cs : List Call) :
    (∀ early late, early <+: late → late <+: c.steps cs →
      rank (c.after early).state ≤ rank (c.after late).state) ∧
    Always Step.apply (fun trace c => announced trace c ≤ 1) c (c.steps cs) ∧
    (Along Step.apply Spares c (c.steps cs) → Along Step.apply Silent c (c.steps cs)) := by
  have hlive := Connection.steps_live c cs
  refine ⟨?_, ?_, fun hspares => hspares.mono fun c s => silent_of_spares⟩
  · rintro early late ⟨rest, rfl⟩ hlate
    have hrest := (along_append.mp (hlive.upto hlate)).2
    have hlater := related (R := Later) (fun c s => later_step) hrest
    show rank (final Step.apply c early).state ≤ rank (final Step.apply c (early ++ rest)).state
    rw [final_append]
    exact hlater.state
  · intro pre hpre
    have hhopes := history (fun trace c => hopes trace c ≤ 1)
      (fun trace c s hs hle => Nat.le_trans (hopes_step hs) hle) (hlive.upto hpre) (Started.hopes h)
    refine Nat.le_trans ?_ hhopes
    unfold announced hopes prospects
    rw [List.count_append]
    omega

section Runs

open standin

def bye : Frame :=
  .ConnectionClose { is_application := false, error_code := 0, frame_type := 0, reason := [] }

/-- A client whose peer closes in a packet that is not acknowledged (its last frame is refused) is
silent while draining, and closed after the drain period. -/
def refused_close : List Call :=
  [.op (.poll_transmit 1500 0),
    .recv (initial_from_server [8, 7, 6, 5] 0 [bye, .Crypto { offset := 2 ^ 21, data := [1] }])
      1500 1,
    .op (.poll_transmit 1500 2), .op (.handle_timeout 10000000), .op (.poll_transmit 1500 10000001)]

theorem a_refused_close_is_silent :
    ((client .default_params).after ((client .default_params).steps refused_close)).state =
        .Closed ∧
      Along Step.apply Silent (client .default_params)
        ((client .default_params).steps refused_close) := by
  have hrun : ((client .default_params).after ((client .default_params).steps refused_close)).state =
        .Closed ∧
      Along Step.apply Spares (client .default_params)
        ((client .default_params).steps refused_close) := by decide +kernel
  exact ⟨hrun.1, (closing_is_silent_and_one_way (client_started _) refused_close).2.2 hrun.2⟩

/-- A client whose peer closes in a packet of its own acknowledges the packet while draining. -/
theorem draining_connection_sends :
    ¬∀ (B : Build) (c : Connection B), Connection.Started c → ∀ cs : List Call,
      Along Step.apply Silent c (c.steps cs) := by
  intro hall
  have hsilent := hall build (client .default_params) (client_started _)
    [.op (.poll_transmit 1500 0), .recv (initial_from_server [8, 7, 6, 5] 0 [bye]) 1500 1,
      .op (.poll_transmit 1500 2)]
  exact absurd hsilent (by decide +kernel)

end Runs

end milli_http.connection.closing
