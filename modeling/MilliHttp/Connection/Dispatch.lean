-- What the frames of a decrypted packet do to a connection (connection/recv.rs), and how
-- the keys the TLS engine derives are installed.
import MilliHttp.Connection.Streams
import MilliHttp.Frame

open bytes method

namespace milli_http.connection

open crypto tls transport packet frame varint

variable {B : Build}

namespace Connection

/-! ## Keys from the TLS engine -/

/-- Rewrites the TLS engine of the handshake context. -/
def map_tls (f : TlsEngine → TlsEngine) (c : Connection B) : Connection B :=
  { c with handshake_slot := c.handshake_slot.map fun ctx => { ctx with tls := f ctx.tls } }

/-- Drops the Initial keys and forgets the Initial packet number space. -/
def discard_initial (c : Connection B) : Connection B :=
  drop_space { c with keys := c.keys.drop_initial } .Initial

/-- Drops the Handshake keys and forgets the Handshake packet number space. -/
def discard_handshake (c : Connection B) : Connection B :=
  drop_space { c with keys := c.keys.drop_handshake } .Handshake

/-- What new keys of a level mean: a client is done with Initial, a server that gets
application keys is connected. -/
def keys_installed (level : Level) (c : Connection B) : Connection B :=
  match level with
  | .Initial => c
  | .Handshake => if c.role = .Client then c.discard_initial else c
  | .Application =>
    if c.role = .Server ∧ c.state = .Handshaking then
      discard_handshake
        (push_event { c with state := .Active, address_validated := true } .Connected)
    else c

/-- The smaller of the two idle timeouts that are set, in milliseconds. -/
def effective_idle_timeout (own peer : Nat) : Nat :=
  match own, peer with
  | 0, p => p
  | l, 0 => l
  | l, p => min l p

/-- Takes over the limits of the peer's transport parameters. -/
def learn_peer_params (params : TransportParams) (c : Connection B) : Connection B :=
  let effective_ms := effective_idle_timeout c.local_params.max_idle_timeout params.max_idle_timeout
  { c with
    flow_control := ((c.flow_control.handle_max_data params.initial_max_data).handle_max_streams
      true params.initial_max_streams_bidi).handle_max_streams false params.initial_max_streams_uni
    idle_timeout :=
      if effective_ms ≠ 0 then some (min (effective_ms * 1000) U64_MAX) else c.idle_timeout
    peer_params := some params }

/-- Installs keys the engine handed out, and what comes with them. -/
def install_keys (derived : DerivedKeys) : Method (Connection B) Error Unit := do
  Method.on Connection.keys (fun keys c => { c with keys })
    (ConnectionKeys.install_derived derived)
  Method.modify (keys_installed derived.level)
  Method.modify fun c =>
    match c.handshake_slot.bind (·.tls.peer_transport_params) with
    | some params => c.learn_peer_params params
    | none => c

/-- Whether the handshake context is no longer needed. A client still needs it until its
Finished is written. -/
def can_release (c : Connection B) (ctx : HandshakeContext) : Bool :=
  match c.role with
  | .Server => c.state = .Active
  | .Client => c.keys.app_send.isSome && c.keys.app_recv.isSome && ctx.tls.complete

/-- Releases the handshake slot if the handshake is complete. -/
def maybe_release_handshake_slot (c : Connection B) : Connection B :=
  match c.handshake_slot with
  | none => c
  | some ctx => if c.can_release ctx then { c with handshake_slot := none } else c

/-- Installs the keys the engine has ready. It hands each out once, so the loop of the source
runs at most once. -/
def install_ready_keys : Method (Connection B) Error Unit := do
  let c ← Method.get
  match c.handshake_slot.bind (·.tls.pending_keys) with
  | none => pure ()
  | some derived => do
    Method.modify (map_tls fun tls => (tls.derived_keys).2)
    install_keys derived

/-- Checks whether the engine has new keys, and whether the handshake is over. -/
def check_tls_keys : Method (Connection B) Error Unit := do
  install_ready_keys
  Method.modify maybe_release_handshake_slot

/-! ## CRYPTO frames -/

/-- CRYPTO data beyond this offset is refused. -/
def MAX_CRYPTO_OFFSET : Nat := 2 ^ 20

/-- Runs a method of the TLS engine, if there is one. -/
def on_tls (m : Method TlsEngine Error Unit) : Method (Connection B) Error Unit := fun c =>
  match c.handshake_slot with
  | none => (.ok (), c)
  | some ctx => ((m ctx.tls).1, c.map_tls fun tls => (m tls).2)

/-- Rewrites the reassembly buffer of a level. -/
def map_reasm (level : Level) (f : CryptoReassemblyBuf → CryptoReassemblyBuf) (c : Connection B) :
    Connection B :=
  { c with handshake_slot := c.handshake_slot.map fun ctx =>
      { ctx with crypto_reasm := ctx.crypto_reasm.set level (f (ctx.crypto_reasm.get level)) } }

/-- The complete message at the front of a reassembly buffer: four bytes of header say how
long it is. -/
def next_message (data : Bytes) : Option Bytes :=
  if data.length < 4 then none
  else
    let msg_len := 4 + beNat ((data.drop 1).take 3)
    if data.length < msg_len then none else some (data.take msg_len)

/-- Hands the next complete message of a level to the engine and looks for new keys. Returns
whether there was one. -/
def deliver_message (level : Level) : Method (Connection B) Error Bool := do
  let c ← Method.get
  match c.handshake_slot.bind fun ctx => next_message (ctx.crypto_reasm.get level).contiguous_data with
  | none => pure false
  | some msg => do
    on_tls (TlsEngine.read_handshake B.toPrimitives level msg)
    Method.modify (map_reasm level (·.advance msg.length))
    check_tls_keys
    pure true

/-- The delivery loop. Every message takes at least four bytes of the buffer. -/
def deliver_messages (level : Level) : Nat → Method (Connection B) Error Unit
  | 0 => pure ()
  | fuel + 1 => do
    let delivered ← deliver_message level
    if delivered then deliver_messages level fuel else pure ()

/-- Handles a CRYPTO frame: reassembles the data and feeds complete messages to the engine. -/
def handle_crypto_frame (level : Level) (offset : Nat) (data : Bytes) :
    Method (Connection B) Error Unit := do
  let c ← Method.get
  match c.handshake_slot with
  | none => pure ()
  | some ctx => do
    Method.require (offset ≤ MAX_CRYPTO_OFFSET ∧
      saturating_add offset data.length ≤ MAX_CRYPTO_OFFSET) (.Transport .CryptoBufferExceeded)
    let reasm ← Method.lift ((ctx.crypto_reasm.get level).insert offset data)
    Method.modify (map_reasm level fun _ => reasm)
    deliver_messages level (reasm.buf.length + 1)

/-! ## Frames -/

/-- Takes the packets found lost out of the tracker and out of flight. -/
def remove_lost (level : Level) (now : Instant) :
    List Nat → SentPacketTracker × CongestionController → SentPacketTracker × CongestionController
  | [], s => s
  | lost_pn :: rest, (tracker, cc) =>
    match tracker.remove level lost_pn with
    | (some lost, tracker) =>
      remove_lost level now rest (tracker, cc.on_packet_lost lost.size lost.time_sent now)
    | (none, tracker) => remove_lost level now rest (tracker, cc)

/-- What an ACK with its ranges does: acknowledged packets leave the tracker, the RTT and the
congestion window move, lost packets are taken out. -/
def on_ack (level : Level) (now : Instant) (ack : AckFrame) (ranges : List (Nat × Nat))
    (c : Connection B) : Connection B :=
  let (acked, tracker) := c.sent_tracker.on_ack_received level ack.largest_ack
    ack.first_ack_range ranges
  let ld := c.loss_detector.on_ack_received level ack.largest_ack
  let ld := match acked.largest_newly_acked with
    | none => ld
    | some largest =>
      let ld := if largest.time_sent > 0 ∧ now ≥ largest.time_sent then
          ld.update_rtt (now - largest.time_sent) ack.ack_delay (decide (c.state = ConnectionState.Active))
        else ld
      ld.reset_pto_count
  let cc := acked.newly_acked.foldl
    (fun cc pkt => cc.on_packet_acked pkt.size pkt.time_sent) c.congestion
  let (lost_pns, ld) := ld.detect_lost_packets level tracker now
  let (tracker, cc) := remove_lost level now lost_pns (tracker, cc)
  { c with sent_tracker := tracker, loss_detector := ld, congestion := cc }

/-- An ACK frame: 16 of its additional ranges count. -/
def handle_ack (level : Level) (now : Instant) (ack : AckFrame) :
    Method (Connection B) Error Unit := do
  let ranges ← Method.lift (ack_range_pairs ack.ack_ranges.length ack.ack_ranges)
  Method.modify (on_ack level now ack (ranges.take 16))

/-- A STREAM frame: the stream is looked up or created, the data charged to both flow-control
levels, then stored. -/
def handle_stream (stream : StreamFrame) : Method (Connection B) Error Unit := do
  let c ← Method.get
  Method.ignore (on_streams (StreamMap.get_or_create B.MAX_STREAMS stream.stream_id
    (c.role = .Client) c.local_params.initial_max_stream_data_bidi_remote))
  let c ← Method.get
  -- Even if the stream could not be created, data of one that exists is taken.
  if (c.streams.get stream.stream_id).isSome then do
    let new_bytes ← on_streams
      (StreamMap.mark_recv stream.stream_id stream.offset stream.data.length stream.fin)
    Method.on Connection.flow_control (fun flow_control c => { c with flow_control })
      (FlowController.on_recv new_bytes)
    Method.modify fun c => { c with
      sio := c.sio.store_stream_data B.MAX_STREAMS B.STREAM_BUF stream.stream_id stream.offset
        stream.data stream.fin }
    Method.modify (push_event · (.StreamReadable stream.stream_id))
  else pure ()

/-- A frame about a stream that exists: a method of the table whose outcome does not matter,
and an event. -/
def stream_event (stream_id : Nat) (m : Method StreamMap Error Unit) (event : Event) :
    Method (Connection B) Error Unit := do
  let c ← Method.get
  if (c.streams.get stream_id).isSome then do
    Method.ignore (on_streams m)
    Method.modify (push_event · event)
  else pure ()

/-- HANDSHAKE_DONE at a client: the handshake is confirmed. -/
def handshake_done (c : Connection B) : Connection B :=
  match c.role with
  | .Server => c
  | .Client =>
    discard_handshake
      (if c.state = .Handshaking then
        push_event { c with state := .Active, address_validated := true } .Connected
      else c)

/-- Dispatches a single frame. -/
def dispatch_frame (level : Level) (now : Instant) (frame : Frame) :
    Method (Connection B) Error Unit :=
  match frame with
  | .Padding => pure ()
  | .Ping => pure ()
  | .Ack ack => handle_ack level now ack
  | .Crypto crypto => handle_crypto_frame level crypto.offset crypto.data
  | .Stream stream => handle_stream stream
  | .MaxData max_data =>
    Method.modify fun c => { c with flow_control := c.flow_control.handle_max_data max_data }
  | .MaxStreamData msd =>
    Method.ignore (on_streams (StreamMap.handle_max_stream_data msd.stream_id msd.max_data))
  | .MaxStreams ms =>
    Method.modify fun c =>
      { c with flow_control := c.flow_control.handle_max_streams ms.bidirectional ms.max_streams }
  | .ResetStream rst =>
    stream_event rst.stream_id (StreamMap.handle_reset rst.stream_id rst.final_size)
      (.StreamReset rst.stream_id rst.error_code)
  | .StopSending ss =>
    stream_event ss.stream_id (StreamMap.handle_stop_sending ss.stream_id)
      (.StopSending ss.stream_id ss.error_code)
  | .ConnectionClose cc =>
    Method.modify fun c =>
      push_event { c with state := .Draining } (.ConnectionClose cc.error_code (cc.reason.take 64))
  | .HandshakeDone => Method.modify handshake_done
  | .PathChallenge data => Method.modify fun c => { c with pending_path_response := some data }
  | .NewToken _ | .NewConnectionId _ | .RetireConnectionId _ => pure ()
  | .PathResponse _ => pure ()
  | .DataBlocked _ | .StreamDataBlocked _ | .StreamsBlocked _ => pure ()

/-- All frames except PADDING and ACK are ack-eliciting. -/
def is_ack_eliciting : Frame → Bool
  | .Padding | .Ack _ => false
  | _ => true

/-- Parses and dispatches all frames of a payload. Returns whether one was ack-eliciting. -/
def dispatch_frames (level : Level) (now : Instant) :
    Nat → Bytes → Bool → Method (Connection B) Error Bool
  | 0, _, ack_eliciting => pure ack_eliciting
  | fuel + 1, payload, ack_eliciting =>
    if payload = [] then pure ack_eliciting
    else do
      let (frame, consumed) ← Method.lift (decode payload)
      dispatch_frame level now frame
      dispatch_frames level now fuel (payload.drop consumed)
        (ack_eliciting || is_ack_eliciting frame)

end Connection

end milli_http.connection
