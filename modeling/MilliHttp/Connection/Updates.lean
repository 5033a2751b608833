-- Every step is made of updates of single parts. A relation that each of these updates keeps
-- is kept by every step; arriving and transmitting are left to the law at hand.
import MilliHttp.Connection.Handshaking

open bytes method
open method.Method (keeps_on keeps_seq keeps_get keeps_ignore keeps_ite keeps_pure keeps_modify
  keeps_lift bind_run)

namespace milli_http.connection

open crypto tls transport packet frame

variable {B : Build}

namespace Connection

/-! ## Updates -/

/-- The relation is kept by what the data of the streams touches. -/
structure KeptByData (R : Connection B → Connection B → Prop) : Prop where
  streams : ∀ streams c, R c { c with streams }
  received : ∀ n c, R c { c with flow_control := (FlowController.on_recv n c.flow_control).2 }
  max_data : ∀ n c, R c { c with flow_control := c.flow_control.handle_max_data n }
  max_streams : ∀ bidirectional n c,
    R c { c with flow_control := c.flow_control.handle_max_streams bidirectional n }
  max_data_sent : ∀ c, R c { c with flow_control := c.flow_control.max_data_sent }
  sio : ∀ sio c, R c { c with sio }
  path_response : ∀ pending_path_response c, R c { c with pending_path_response }

/-- The relation is kept by what a frame does that neither moves the handshake nor acknowledges. -/
structure KeptByFrames (R : Connection B → Connection B → Prop) : Prop extends KeptByData R where
  draining : ∀ c, R c { c with state := .Draining }
  pushed : ∀ event c, event ≠ .Connected → R c (c.push_event event)

/-- The relation is kept by writing keys, the engine and the peer's id. -/
structure KeptByKeys (R : Connection B → Connection B → Prop) : Prop where
  remote_cid : ∀ remote_cid c, R c { c with remote_cid }
  keys : ∀ keys c, R c { c with keys }
  slot : ∀ handshake_slot c, R c { c with handshake_slot }

/-- The relation is kept by what the packets of a datagram do but for acknowledging. -/
structure KeptByShifts (R : Connection B → Connection B → Prop) : Prop
  extends KeptByFrames R, KeptByKeys R where
  connected : ∀ c, c.state = .Handshaking →
    R c (Connection.push_event { c with state := .Active, address_validated := true } .Connected)
  drop_space : ∀ level c, R c (c.drop_space level)
  learn_peer_params : ∀ params c, R c (learn_peer_params params c)
  record : ∀ pr c, R c (record_packet pr c)

/-- The relation is kept by everything the packets of a datagram do. -/
structure KeptByMoves (R : Connection B → Connection B → Prop) : Prop
  extends KeptByFrames R, KeptByKeys R where
  connected : ∀ c, c.state = .Handshaking →
    R c (Connection.push_event { c with state := .Active, address_validated := true } .Connected)
  drop_space : ∀ level c, R c (c.drop_space level)
  learn_peer_params : ∀ params c, R c (learn_peer_params params c)
  ack : ∀ level now ack ranges c, R c (on_ack level now ack ranges c)
  record : ∀ pr c, R c (record_packet pr c)

/-- The relation is kept by what the application asks for. -/
structure KeptByRequests (R : Connection B → Connection B → Prop) : Prop extends KeptByData R where
  polled : ∀ c, R c { c with events := c.events.tail }
  close : ∀ close_frame c, ¬(c.state = .Closed ∨ c.state = .Draining ∨ c.state = .Closing) →
    R c { c with close_frame, state := .Closing }
  key_update : Method.Keeps R (Method.on (σ := Connection B) Connection.keys
    (fun keys c => { c with keys }) ConnectionKeys.perform_key_update)

/-- The relation is kept by everything the calls other than `recv` and `poll_transmit` do. -/
structure KeptByCalls (R : Connection B → Connection B → Prop) : Prop extends KeptByData R where
  pushed : ∀ event c, event ≠ .Connected → R c (c.push_event event)
  polled : ∀ c, R c { c with events := c.events.tail }
  closed : ∀ c, R c { c with state := .Closed }
  pto : ∀ crypto_rewind_pending c,
    R c { c with loss_detector := c.loss_detector.on_pto, crypto_rewind_pending }
  close : ∀ close_frame c, ¬(c.state = .Closed ∨ c.state = .Draining ∨ c.state = .Closing) →
    R c { c with close_frame, state := .Closing }
  key_update : Method.Keeps R (Method.on (σ := Connection B) Connection.keys
    (fun keys c => { c with keys }) ConnectionKeys.perform_key_update)

namespace KeptByData

variable {R : Connection B → Connection B → Prop} (h : KeptByData R)

include h

theorem on_streams {α : Type} (m : Method StreamMap Error α) :
    Method.Keeps R (on_streams (B := B) m) :=
  keeps_on fun c => h.streams _ c

end KeptByData

namespace KeptByFrames

variable {R : Connection B → Connection B → Prop} [IsPreorder (Connection B) R]
  (h : KeptByFrames R)

include h

theorem handle_stream (stream : StreamFrame) : Method.Keeps R (handle_stream (B := B) stream) := by
  refine keeps_seq keeps_get fun c => ?_
  refine keeps_seq (keeps_ignore (h.on_streams _)) fun _ => ?_
  refine keeps_seq keeps_get fun c => keeps_ite ?_ (keeps_pure _)
  refine keeps_seq (h.on_streams _) fun new_bytes => ?_
  refine keeps_seq (keeps_on fun c => h.received _ c) fun _ => ?_
  refine keeps_seq (keeps_modify fun c => h.sio _ c) fun _ => ?_
  exact keeps_modify fun c => h.pushed _ c nofun

theorem stream_event (stream_id : Nat) (m : Method StreamMap Error Unit) {event : Event}
    (hevent : event ≠ .Connected) :
    Method.Keeps R (stream_event (B := B) stream_id m event) := by
  refine keeps_seq keeps_get fun c => keeps_ite ?_ (keeps_pure _)
  refine keeps_seq (keeps_ignore (h.on_streams _)) fun _ => ?_
  exact keeps_modify fun c => h.pushed _ c hevent

/-- A frame that neither moves the handshake nor acknowledges is such updates. -/
theorem plain_frame {frame : Frame} (hf : is_handshake_frame frame = false)
    (hack : ∀ ack, frame ≠ .Ack ack) (level : Level) (now : Instant) :
    Method.Keeps R (dispatch_frame (B := B) level now frame) := by
  cases frame with
  | Padding | Ping | NewToken | NewConnectionId | RetireConnectionId | PathResponse | DataBlocked
  | StreamDataBlocked | StreamsBlocked => exact keeps_pure _
  | Ack ack => exact absurd rfl (hack ack)
  | Stream stream => exact h.handle_stream stream
  | MaxData n => exact keeps_modify fun c => h.max_data _ c
  | MaxStreamData msd => exact keeps_ignore (h.on_streams _)
  | MaxStreams ms => exact keeps_modify fun c => h.max_streams _ _ c
  | ResetStream rst => exact h.stream_event _ _ nofun
  | StopSending ss => exact h.stream_event _ _ nofun
  | ConnectionClose cc =>
    exact keeps_modify fun c => IsTrans.trans _ _ _ (h.draining c) (h.pushed _ _ nofun)
  | PathChallenge data => exact keeps_modify fun c => h.path_response _ c
  | Crypto | HandshakeDone => cases hf

end KeptByFrames

namespace KeptByKeys

variable {R : Connection B → Connection B → Prop} (h : KeptByKeys R)

include h

theorem on_keys {α : Type} (m : Method (ConnectionKeys B.toPrimitives) Error α) :
    Method.Keeps R (Method.on (σ := Connection B) Connection.keys (fun keys c => { c with keys }) m) :=
  keeps_on fun c => h.keys _ c

variable [IsPreorder (Connection B) R]

theorem on_tls (m : Method TlsEngine Error Unit) : Method.Keeps R (on_tls (B := B) m) := by
  intro c
  unfold Connection.on_tls
  split
  · exact refl c
  · exact h.slot _ c

theorem open_kind (kind : PacketKind) (pkt_data : Bytes) (scratch_len : Nat) (c : Connection B) :
    R c (c.open_kind kind pkt_data scratch_len).2 := by
  refine open_kind_keeps (fun hdr => learn_initial_keeps ?_ fun c => ?_) (fun u => ?_) kind pkt_data
    scratch_len c
  · refine keeps_seq keeps_get fun c => keeps_ite (keeps_pure _) ?_
    refine keeps_seq (h.on_keys _) fun _ => keeps_modify fun c => ?_
    split
    · exact h.slot _ c
    · exact refl c
  · unfold learn_remote_cid
    split
    · exact h.remote_cid _ c
    · exact refl c
  · refine keeps_seq keeps_get fun c => keeps_seq (Method.keeps_okOr _ _) ?_
    refine fun recv => keeps_ite (fun c => ?_) ?_
    · unfold open_current
      split
      · exact h.keys _ c
      · split <;> exact refl c
    · refine keeps_seq keeps_get fun c => keeps_seq (keeps_lift _) ?_
      refine fun next => keeps_seq (keeps_lift _) fun payload => ?_
      exact keeps_seq (h.on_keys _) fun _ => keeps_pure _

theorem maybe_release_handshake_slot (c : Connection B) : R c c.maybe_release_handshake_slot := by
  rcases maybe_release_cases c with heq | ⟨ctx, -, -, heq⟩
  · rw [heq]
    exact refl c
  · rw [heq]
    exact h.slot none c

end KeptByKeys

namespace KeptByShifts

variable {R : Connection B → Connection B → Prop} [IsPreorder (Connection B) R]
  (h : KeptByShifts R)

include h

theorem discard_initial (c : Connection B) : R c c.discard_initial :=
  IsTrans.trans _ _ _ (h.keys _ c) (h.drop_space .Initial _)

theorem discard_handshake (c : Connection B) : R c c.discard_handshake :=
  IsTrans.trans _ _ _ (h.keys _ c) (h.drop_space .Handshake _)

theorem keys_installed (level : Level) (c : Connection B) : R c (keys_installed level c) := by
  unfold Connection.keys_installed
  split
  · exact refl c
  · split
    · exact h.discard_initial c
    · exact refl c
  · split
    · rename_i hserver
      exact IsTrans.trans _ _ _ (h.connected c hserver.2) (h.discard_handshake _)
    · exact refl c

theorem check_tls_keys : Method.Keeps R (check_tls_keys (B := B)) := by
  refine check_tls_keys_keeps (keeps_seq keeps_get fun c => ?_)
    h.maybe_release_handshake_slot
  split
  · exact keeps_pure _
  · refine keeps_seq (keeps_modify fun c => h.slot _ c) fun _ => ?_
    refine keeps_seq (keeps_on fun c => h.keys _ c) fun _ => ?_
    refine keeps_seq (keeps_modify (h.keys_installed _)) fun _ => ?_
    refine keeps_modify fun c => ?_
    split
    · exact h.learn_peer_params _ c
    · exact refl c

theorem handshake_done (c : Connection B) : R c c.handshake_done := by
  unfold Connection.handshake_done
  split
  · exact refl c
  · refine IsTrans.trans _ _ _ ?_ (h.discard_handshake _)
    split
    · exact h.connected c ‹_›
    · exact refl c

/-- A frame that does not acknowledge is such updates. -/
theorem dispatch_frame {frame : Frame} (hack : ∀ ack, frame ≠ .Ack ack) (level : Level)
    (now : Instant) : Method.Keeps R (dispatch_frame (B := B) level now frame) := by
  cases frame with
  | Ack ack => exact absurd rfl (hack ack)
  | Crypto crypto =>
    exact handle_crypto_frame_keeps (fun _ _ c => h.slot _ c) (fun _ _ => h.on_tls _)
      h.check_tls_keys level _ _
  | HandshakeDone => exact keeps_modify h.handshake_done
  | _ => exact h.toKeptByFrames.plain_frame rfl (fun _ => by simp) level now

/-- Every step of `recv` but the arrival and an acknowledgement is such updates. -/
theorem step {s : Step} (harrive : ∀ len now, s ≠ .arrive len now) (hop : ∀ o, s ≠ .op o)
    (hack : ∀ level now ack, s ≠ .dispatch level now (.Ack ack)) (c : Connection B) :
    R c (s.apply c) := by
  cases s with
  | arrive len now => exact absurd rfl (harrive len now)
  | open_packet kind pkt_data scratch_len => exact h.open_kind kind pkt_data scratch_len c
  | dispatch level now frame =>
    refine h.dispatch_frame (fun ack heq => ?_) level now c
    exact hack level now ack (by rw [heq])
  | initial_done =>
    simp only [Step.apply, initial_done]
    split
    · exact h.discard_initial c
    · exact refl c
  | record pr => exact h.record pr c
  | check_tls_keys => exact h.check_tls_keys c
  | op o => exact absurd rfl (hop o)

end KeptByShifts

namespace KeptByMoves

variable {R : Connection B → Connection B → Prop} (h : KeptByMoves R)

include h

theorem shifts : KeptByShifts R := { h with }

variable [IsPreorder (Connection B) R]

/-- Every frame is such updates. -/
theorem dispatch_frame (level : Level) (now : Instant) (frame : Frame) :
    Method.Keeps R (dispatch_frame (B := B) level now frame) := by
  by_cases hack : ∃ ack, frame = .Ack ack
  · obtain ⟨ack, rfl⟩ := hack
    exact keeps_seq (keeps_lift _) fun _ => keeps_modify fun c => h.ack _ _ _ _ c
  · exact h.shifts.dispatch_frame (fun ack heq => hack ⟨ack, heq⟩) level now

/-- Every step of `recv` but the arrival is such updates. -/
theorem step {s : Step} (harrive : ∀ len now, s ≠ .arrive len now) (hop : ∀ o, s ≠ .op o)
    (c : Connection B) : R c (s.apply c) := by
  by_cases hack : ∃ level now frame, s = .dispatch level now frame
  · obtain ⟨level, now, frame, rfl⟩ := hack
    exact h.dispatch_frame level now frame c
  · exact h.shifts.step harrive hop (fun level now ack heq => hack ⟨level, now, _, heq⟩) c

end KeptByMoves

namespace KeptByRequests

variable {R : Connection B → Connection B → Prop} [IsPreorder (Connection B) R]
  (h : KeptByRequests R)

include h

/-- Every call but `poll_transmit` and `handle_timeout` is such updates. -/
theorem op {o : Op} (htransmit : ∀ buf_len now, o ≠ .poll_transmit buf_len now)
    (htimeout : ∀ now, o ≠ .handle_timeout now) (c : Connection B) : R c (o.apply c) := by
  cases o with
  | poll_transmit buf_len now => exact absurd rfl (htransmit buf_len now)
  | handle_timeout now => exact absurd rfl (htimeout now)
  | poll_event => exact h.polled c
  | open_stream =>
    exact open_stream_keeps (R := R) (fun c => h.streams _ c) (fun _ _ _ c => h.streams _ c) c
  | open_uni_stream =>
    exact open_uni_stream_keeps (R := R) (fun c => h.streams _ c) (fun _ _ _ c => h.streams _ c) c
  | stream_send stream_id data fin =>
    exact stream_send_keeps (R := R) (fun _ _ _ => h.on_streams _) (fun c _ _ => h.sio _ c) stream_id
      data fin c
  | stream_recv stream_id cap =>
    refine keeps_seq (R := R) keeps_get (fun c => ?_) c
    exact keeps_seq (Method.keeps_require _ _) fun _ => keeps_on fun c => h.sio _ c
  | stream_reset stream_id => exact h.on_streams _ c
  | stream_stop_sending stream_id => exact h.on_streams _ c
  | close error_code reason =>
    simp only [Op.apply, Connection.close]
    split
    · exact refl c
    · exact h.close _ c ‹_›
  | initiate_key_update =>
    refine keeps_seq (R := R) keeps_get (fun c => ?_) c
    exact keeps_seq (Method.keeps_require _ _) fun _ => h.key_update

end KeptByRequests

namespace KeptByCalls

variable {R : Connection B → Connection B → Prop} (h : KeptByCalls R)

include h

theorem requests : KeptByRequests R := { h with }

variable [IsPreorder (Connection B) R]

/-- Every call but `poll_transmit` is such updates. -/
theorem op {o : Op} (ho : ∀ buf_len now, o ≠ .poll_transmit buf_len now) (c : Connection B) :
    R c (o.apply c) := by
  by_cases htimeout : ∃ now, o = .handle_timeout now
  · obtain ⟨now, rfl⟩ := htimeout
    simp only [Op.apply, handle_timeout]
    split
    · split
      · exact h.closed c
      · exact refl c
    · split
      · exact IsTrans.trans _ _ _ (h.closed c) (h.pushed _ _ (by simp))
      · split
        · exact h.pto _ c
        · exact refl c
  · exact h.requests.op ho (fun now heq => htimeout ⟨now, heq⟩) c

end KeptByCalls

/-- A relation that all of these keep, the arrival of a datagram and `poll_transmit` too, is kept
by every step. -/
theorem keeps_step {R : Connection B → Connection B → Prop} [IsPreorder (Connection B) R]
    (hmoves : KeptByMoves R) (hcalls : KeptByCalls R) (htransmit : KeptByTransmit R)
    (harrive : ∀ len now c, R c (c.arrive len now)) (s : Step) (c : Connection B) :
    R c (s.apply c) := by
  by_cases hop : ∃ o, s = .op o
  · obtain ⟨o, rfl⟩ := hop
    by_cases hpoll : ∃ buf_len now, o = .poll_transmit buf_len now
    · obtain ⟨buf_len, now, rfl⟩ := hpoll
      exact htransmit.poll_transmit buf_len now c
    · exact hcalls.op (fun buf_len now heq => hpoll ⟨buf_len, now, heq⟩) c
  · by_cases hlen : ∃ len now, s = .arrive len now
    · obtain ⟨len, now, rfl⟩ := hlen
      exact harrive len now c
    · exact hmoves.step (fun len now heq => hlen ⟨len, now, heq⟩) (fun o heq => hop ⟨o, heq⟩) c

/-! ## Writes -/

/-- The relation is kept by writing what is neither keys, nor the engine, nor packet numbers. -/
structure KeptByPlain (R : Connection B → Connection B → Prop) : Prop where
  state : ∀ state c, state ≠ .Closed → R c { c with state }
  events : ∀ events c, R c { c with events }
  remote_cid : ∀ remote_cid c, R c { c with remote_cid }
  streams : ∀ streams c, R c { c with streams }
  flow_control : ∀ flow_control c, R c { c with flow_control }
  sio : ∀ sio c, R c { c with sio }
  path_response : ∀ pending_path_response c, R c { c with pending_path_response }

/-- The relation is kept by writing keys and the engine, too. -/
structure KeptByFields (R : Connection B → Connection B → Prop) : Prop extends KeptByPlain R where
  keys : ∀ keys c, R c { c with keys }
  slot : ∀ handshake_slot c, R c { c with handshake_slot }

/-- The relation is kept by the parts of a connection that have nothing to do with the end of a
packet number space. -/
structure KeptByParts (R : Connection B → Connection B → Prop) : Prop extends KeptByFields R where
  record : ∀ pr c, R c (record_packet pr c)

/-- The relation is kept by everything the packets of a datagram can do. -/
structure KeptByRecv (R : Connection B → Connection B → Prop) : Prop extends KeptByParts R where
  validated : ∀ c, R c { c with address_validated := true }
  drop_space : ∀ level c, R c (c.drop_space level)
  peer_params : ∀ flow_control idle_timeout peer_params c,
    R c { c with flow_control, idle_timeout, peer_params }
  ack : ∀ level now ack ranges c, R c (on_ack level now ack ranges c)

/-- The relation is kept by everything the calls other than `recv` and `poll_transmit` can do. -/
structure KeptByOps (R : Connection B → Connection B → Prop) : Prop extends KeptByPlain R where
  closed : ∀ c, R c { c with state := .Closed }
  pto : ∀ crypto_rewind_pending c,
    R c { c with loss_detector := c.loss_detector.on_pto, crypto_rewind_pending }
  close : ∀ close_frame c, R c { c with close_frame, state := .Closing }
  key_update : Method.Keeps R (Method.on (σ := Connection B) Connection.keys
    (fun keys c => { c with keys }) ConnectionKeys.perform_key_update)

/-- Both. -/
structure KeptByUpdates (R : Connection B → Connection B → Prop) : Prop
  extends KeptByRecv R, KeptByOps R

namespace KeptByPlain

variable {R : Connection B → Connection B → Prop} (h : KeptByPlain R)

include h

theorem data : KeptByData R where
  streams := h.streams
  received _ c := h.flow_control _ c
  max_data _ c := h.flow_control _ c
  max_streams _ _ c := h.flow_control _ c
  max_data_sent c := h.flow_control _ c
  sio := h.sio
  path_response := h.path_response

theorem on_streams {α : Type} (m : Method StreamMap Error α) :
    Method.Keeps R (on_streams (B := B) m) :=
  h.data.on_streams m

variable [IsPreorder (Connection B) R]

theorem push_event (event : Event) (c : Connection B) : R c (c.push_event event) := by
  unfold Connection.push_event
  split
  · exact h.events _ c
  · exact refl c

theorem frames : KeptByFrames R where
  toKeptByData := h.data
  draining c := h.state .Draining c nofun
  pushed event c _ := h.push_event event c

/-- A frame that neither moves the handshake nor acknowledges is such updates. -/
theorem plain_frame {frame : Frame} (hf : is_handshake_frame frame = false)
    (hack : ∀ ack, frame ≠ .Ack ack) (level : Level) (now : Instant) :
    Method.Keeps R (dispatch_frame (B := B) level now frame) :=
  h.frames.plain_frame hf hack level now

end KeptByPlain

namespace KeptByFields

variable {R : Connection B → Connection B → Prop} (h : KeptByFields R)

include h

theorem on_engine : KeptByKeys R := ⟨h.remote_cid, h.keys, h.slot⟩

theorem on_keys {α : Type} (m : Method (ConnectionKeys B.toPrimitives) Error α) :
    Method.Keeps R (Method.on (σ := Connection B) Connection.keys (fun keys c => { c with keys }) m) :=
  h.on_engine.on_keys m

variable [IsPreorder (Connection B) R]

theorem open_kind (kind : PacketKind) (pkt_data : Bytes) (scratch_len : Nat) (c : Connection B) :
    R c (c.open_kind kind pkt_data scratch_len).2 :=
  h.on_engine.open_kind kind pkt_data scratch_len c

end KeptByFields

namespace KeptByRecv

variable {R : Connection B → Connection B → Prop} [IsPreorder (Connection B) R]
  (h : KeptByRecv R)

include h

theorem moves : KeptByMoves R where
  toKeptByFrames := h.toKeptByPlain.frames
  toKeptByKeys := h.toKeptByFields.on_engine
  connected c _ := IsTrans.trans _ _ _ (h.state .Active c nofun)
    (IsTrans.trans _ _ _ (h.validated _) (h.toKeptByPlain.push_event _ _))
  drop_space := h.drop_space
  learn_peer_params _ c := h.peer_params _ _ _ c
  ack := h.ack
  record := h.record

/-- Every step of `recv` but the arrival is such updates. -/
theorem step {s : Step} (harrive : ∀ len now, s ≠ .arrive len now) (hop : ∀ o, s ≠ .op o)
    (c : Connection B) : R c (s.apply c) :=
  h.moves.step harrive hop c

end KeptByRecv

namespace KeptByOps

variable {R : Connection B → Connection B → Prop} [IsPreorder (Connection B) R]
  (h : KeptByOps R)

include h

theorem calls : KeptByCalls R where
  toKeptByData := h.toKeptByPlain.data
  pushed event c _ := h.toKeptByPlain.push_event event c
  polled c := h.events _ c
  closed := h.closed
  pto := h.pto
  close close_frame c _ := h.close close_frame c
  key_update := h.key_update

/-- Every call but `poll_transmit` is such updates. -/
theorem op {o : Op} (ho : ∀ buf_len now, o ≠ .poll_transmit buf_len now) (c : Connection B) :
    R c (o.apply c) :=
  h.calls.op ho c

end KeptByOps

namespace KeptByUpdates

/-- Every step but an arrival and `poll_transmit` is such updates. -/
theorem step {R : Connection B → Connection B → Prop} [IsPreorder (Connection B) R]
    (h : KeptByUpdates R) {s : Step} (harrive : ∀ len now, s ≠ .arrive len now)
    (htransmit : ∀ buf_len now, s ≠ .op (.poll_transmit buf_len now)) (c : Connection B) :
    R c (s.apply c) := by
  by_cases hop : ∃ o, s = .op o
  · obtain ⟨o, rfl⟩ := hop
    refine h.op ?_ c
    rintro buf_len now rfl
    exact htransmit buf_len now rfl
  · exact h.toKeptByRecv.step harrive (fun o ho => hop ⟨o, ho⟩) c

end KeptByUpdates

/-! ## Draining -/

/-- Draining frames is updates of single parts, too. -/
theorem KeptByPackets.of_parts {R : Connection B → Connection B → Prop}
    [IsPreorder (Connection B) R] (hdata : KeptByData R) (hkeys : KeptByKeys R)
    (hrewind : ∀ crypto_rewind_pending c, R c { c with crypto_rewind_pending })
    (hack : ∀ ack_eliciting_received c, R c { c with ack_eliciting_received })
    (hdone : ∀ need_handshake_done c, R c { c with need_handshake_done }) : KeptByPackets R where
  key_update :=
    keeps_seq keeps_get fun _ => keeps_ite (hkeys.on_keys _) (keeps_pure _)
  rewind c := by
    unfold rewind_crypto
    split
    · exact IsTrans.trans _ _ _ (hrewind false c) (hkeys.slot _ _)
    · exact refl c
  ack level room d := by
    simp only [put_ack]
    split
    · split
      · exact hack _ _
      · exact refl d.1
    · exact refl d.1
  crypto level room d := by
    simp only [write_tls_crypto_data]
    split
    · exact refl d.1
    · split
      · exact hkeys.slot _ _
      · split <;> exact hkeys.slot _ _
  path_response room d := by
    simp only [put_path_response]
    split
    · exact refl d.1
    · split
      · exact hdata.path_response _ _
      · exact refl d.1
  max_data room d := by
    simp only [put_max_data]
    split
    · exact refl d.1
    · split
      · exact hdata.max_data_sent _
      · exact refl d.1
  max_stream_data _ c := hdata.streams _ c
  streams _ d := hdata.sio _ d.1
  short_sent frames c := IsTrans.trans _ _ _
    (hdone (c.need_handshake_done && !frames.contains .HandshakeDone) c)
    (hkeys.keys _ { c with
      need_handshake_done := c.need_handshake_done && !frames.contains .HandshakeDone })
  release := hkeys.maybe_release_handshake_slot

theorem KeptByDrain.of_parts {R : Connection B → Connection B → Prop} [IsPreorder (Connection B) R]
    (hdata : KeptByData R) (hkeys : KeptByKeys R) (hclosed : ∀ c, R c { c with state := .Closed })
    (hrewind : ∀ crypto_rewind_pending c, R c { c with crypto_rewind_pending })
    (hack : ∀ ack_eliciting_received c, R c { c with ack_eliciting_received })
    (hdone : ∀ need_handshake_done c, R c { c with need_handshake_done }) : KeptByDrain R where
  toKeptByPackets := .of_parts hdata hkeys hrewind hack hdone
  closed := hclosed

theorem KeptByDrain.of_fields {R : Connection B → Connection B → Prop} [IsPreorder (Connection B) R]
    (h : KeptByFields R) (hclosed : ∀ c, R c { c with state := .Closed })
    (hrewind : ∀ crypto_rewind_pending c, R c { c with crypto_rewind_pending })
    (hack : ∀ ack_eliciting_received c, R c { c with ack_eliciting_received })
    (hdone : ∀ need_handshake_done c, R c { c with need_handshake_done }) : KeptByDrain R :=
  .of_parts h.toKeptByPlain.data h.on_engine hclosed hrewind hack hdone

/-! ## Closed connections -/

theorem op_of_closed {c : Connection B} (h : c.state = .Closed) (o : Op) :
    (o.apply c).state = .Closed := by
  cases o with
  | poll_transmit buf_len now => simp [Op.apply, poll_transmit, h]
  | handle_timeout now =>
    simp only [Op.apply, handle_timeout]
    rw [if_neg (by simp [h])]
    split
    · unfold push_event
      split <;> rfl
    · split <;> exact h
  | poll_event => exact h
  | open_stream =>
    simp [Op.apply, open_stream, bind_run, Method.require, h]
  | open_uni_stream =>
    simp [Op.apply, open_uni_stream, bind_run, Method.require, h]
  | stream_send stream_id data fin =>
    simp [Op.apply, stream_send, bind_run, Method.require, h]
  | stream_recv stream_id cap => simp [Op.apply, stream_recv, bind_run, Method.require, h]
  | stream_reset stream_id => exact h
  | stream_stop_sending stream_id => exact h
  | close error_code reason => simp [Op.apply, close, h]
  | initiate_key_update =>
    simp [Op.apply, initiate_key_update, bind_run, Method.require, h]

/-- Receiving does not close a connection. -/
theorem keptByRecv_live : KeptByRecv (B := B) (Method.Preserves fun c => c.state ≠ .Closed) where
  keys _ _ := id
  slot _ _ := id
  state _ _ hs _ := hs
  validated _ := id
  events _ _ := id
  drop_space _ _ := id
  peer_params _ _ _ _ := id
  remote_cid _ _ := id
  ack _ _ _ _ _ := id
  streams _ _ := id
  flow_control _ _ := id
  sio _ _ := id
  path_response _ _ := id
  record pr c h := by
    unfold record_packet
    split <;> exact h

/-- A datagram is handled only while the connection is not closed. -/
def Live (c : Connection B) (s : Step) : Prop := (∃ o, s = .op o) ∨ c.state ≠ .Closed

section Forall

variable {P : Step → Prop}
  (hframe : ∀ {payload frame consumed} level now, decode payload = .ok (frame, consumed) →
    P (.dispatch level now frame))
  (hother : ∀ s : Step, s.frame = none → (∀ o, s ≠ .op o) → P s)

include hframe

theorem frame_steps_forall (level : Level) (now : Instant) (fuel : Nat) (payload : Bytes)
    (c : Connection B) : ∀ s ∈ frame_steps level now fuel payload c, P s := by
  induction fuel generalizing payload c with
  | zero => rintro _ ⟨⟩
  | succ fuel ih =>
    unfold frame_steps
    split
    · rintro _ ⟨⟩
    · split
      · rintro _ ⟨⟩
      · rename_i hdecode
        intro s hs
        rcases List.mem_cons.mp hs with rfl | hs
        · exact hframe level now hdecode
        · split at hs
          · cases hs
          · exact ih _ _ s hs

include hother

theorem packet_steps_forall (kind : PacketKind) (pkt_data : Bytes) (scratch_len : Nat)
    (now : Instant) (c : Connection B) :
    ∀ s ∈ packet_steps kind pkt_data scratch_len now c, P s := by
  unfold packet_steps
  intro s hs
  rcases List.mem_cons.mp hs with rfl | hs
  · exact hother _ rfl nofun
  · split at hs
    · unfold opened_steps at hs
      split at hs
      · rw [List.mem_singleton.mp hs]
        exact hother _ rfl nofun
      · rcases List.mem_append.mp hs with hs | hs
        · exact frame_steps_forall hframe _ _ _ _ _ s hs
        · split at hs
          · cases hs
          · rcases List.mem_append.mp hs with hs | hs
            · split at hs
              · rw [List.mem_singleton.mp hs]
                exact hother _ rfl nofun
              · cases hs
            · rw [List.mem_singleton.mp hs]
              exact hother _ rfl nofun
    · cases hs

theorem packets_steps_forall (scratch_len : Nat) (now : Instant) (items : List (Outcome Error Bytes))
    (c : Connection B) : ∀ s ∈ packets_steps scratch_len now items c, P s := by
  induction items generalizing c with
  | nil => exact nofun
  | cons item rest ih =>
    cases item with
    | panic => exact nofun
    | err e => exact nofun
    | ok pkt_data =>
      unfold packets_steps
      intro s hs
      rcases List.mem_append.mp hs with hs | hs
      · split at hs
        · cases hs
        · exact packet_steps_forall hframe hother _ _ _ _ _ s hs
      · split at hs
        · cases hs
        · exact ih _ s hs

/-- What is so of every frame that decodes, and of every other step but a call, is so of every
step of a datagram. -/
theorem recv_steps_forall (datagram : Bytes) (scratch_len : Nat) (now : Instant)
    (c : Connection B) : ∀ s ∈ c.recv_steps datagram scratch_len now, P s := by
  unfold recv_steps
  split
  · exact nofun
  · intro s hs
    rw [List.cons_append] at hs
    rcases List.mem_cons.mp hs with rfl | hs
    · exact hother _ rfl nofun
    · rcases List.mem_append.mp hs with hs | hs
      · exact packets_steps_forall hframe hother _ _ _ _ s hs
      · split at hs
        · cases hs
        · rw [List.mem_singleton.mp hs]
          exact hother _ rfl nofun

/-- What is so of calls as well is so of every step of every run. -/
theorem steps_forall (hop : ∀ o, P (.op o)) (c : Connection B) (cs : List Call) :
    ∀ s ∈ c.steps cs, P s := by
  induction cs generalizing c with
  | nil => exact nofun
  | cons call rest ih =>
    intro s hs
    rcases List.mem_append.mp hs with hs | hs
    · cases call with
      | recv datagram scratch_len now => exact recv_steps_forall hframe hother _ _ _ _ s hs
      | op o =>
        rw [List.mem_singleton.mp hs]
        exact hop o
    · split at hs
      · cases hs
      · exact ih _ s hs

end Forall

theorem recv_steps_not_op (datagram : Bytes) (scratch_len : Nat) (now : Instant) (c : Connection B) :
    ∀ s ∈ c.recv_steps datagram scratch_len now, ∀ o, s ≠ .op o :=
  recv_steps_forall (fun _ _ _ _ => nofun) (fun _ _ hop => hop) datagram scratch_len now c

theorem steps_live (c : Connection B) (cs : List Call) : run.Along Step.apply Live c (c.steps cs) := by
  induction cs generalizing c with
  | nil => exact run.along_nil
  | cons call rest ih =>
    refine run.along_append.mpr ⟨?_, ?_⟩
    · cases call with
      | op o => exact run.along_cons.mpr ⟨.inl ⟨o, rfl⟩, run.along_nil⟩
      | recv datagram scratch_len now =>
        by_cases hc : c.state = .Closed
        · simp only [Call.steps, recv_steps, hc, if_true]
          exact run.along_nil
        · have hnotop := recv_steps_not_op datagram scratch_len now c
          have hok : run.Along Step.apply (fun _ s => ∀ o, s ≠ .op o) c
              (c.recv_steps datagram scratch_len now) := by
            intro x hx
            obtain ⟨pre, hpre, -⟩ := run.of_mem_trace hx
            exact hnotop x.2 (hpre.subset (List.mem_append_right _ (List.mem_singleton.mpr rfl)))
          refine (run.invariant_at (fun c s hs hlive => ?_) hok hc).mono fun c s h => .inr h
          by_cases harrive : ∃ len now, s = .arrive len now
          · obtain ⟨len, now, rfl⟩ := harrive
            simp only [Step.apply, arrive]
            split <;> exact hlive
          · exact keptByRecv_live.step (fun len now h => harrive ⟨len, now, h⟩) hs c hlive
    · cases hr : call.run c with
      | none => exact run.along_nil
      | some c' =>
        rw [← call.run_eq_final hr]
        exact ih c'

end Connection

end milli_http.connection
