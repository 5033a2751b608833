-- The transmit path (connection/transmit.rs): frames are drained into packets, packets are
-- sealed and coalesced into one datagram. Beside the bytes of a packet the model keeps the
-- frames they were made from.
import MilliHttp.Connection.Recv

open bytes method

namespace milli_http.connection

open crypto tls transport packet frame varint

variable {B : Build}

/-! ## Packets under construction -/

/-- Frames written one behind the other. -/
structure Payload where
  frames : List Frame
  bytes : Bytes
  deriving DecidableEq, Repr

namespace Payload

def empty : Payload := { frames := [], bytes := [] }

/-- Writes a frame behind the others, into `cap` bytes in all. -/
def push (cap : Nat) (frame : Frame) (p : Payload) : Option Payload :=
  match encode frame (cap - p.bytes.length) with
  | .ok b => some { frames := p.frames ++ [frame], bytes := p.bytes ++ b }
  | .error _ => none

/-- Everything the builders write except ACK frames is ack-eliciting. -/
def ack_eliciting (p : Payload) : Bool := p.frames.any Connection.is_ack_eliciting

end Payload

/-- A packet that was built: what it carries and the bytes it has. -/
structure Packet where
  level : Level
  frames : List Frame
  data : Bytes
  deriving DecidableEq, Repr

/-- A datagram to send. -/
structure Transmit where
  packets : List Packet
  data : Bytes
  deriving DecidableEq, Repr

/-- The AEAD tag a packet needs room for. -/
def tag_len : Nat := 16

/-- Seals the payload behind a header and a packet number, and protects the header. `bits` are
the bits of the first byte that are protected. -/
def encrypt_and_protect {P : CryptoProvider} (send : DirectionalKeys P) (bits : UInt8) (cap : Nat)
    (header pn_bytes payload : Bytes) (pn : Nat) : Except Error Bytes :=
  let total_pkt_len := header.length + pn_bytes.length + payload.length + tag_len
  if total_pkt_len > cap then .error (.BufferTooSmall total_pkt_len)
  else
    let ct := P.seal_in_place send.aead (send.nonce pn) (header ++ pn_bytes) payload
    let out := header ++ pn_bytes ++ ct
    let sample_offset := header.length + 4
    if sample_offset + 16 > out.length then .error .Crypto
    else
      let mask := P.mask send.header_protection ((out.drop sample_offset).take 16)
      .ok (header.modifyHead (· ^^^ (mask.headD 0 &&& bits)) ++
        pn_bytes.zipWith (· ^^^ ·) (mask.drop 1) ++ ct)

/-- Writes the packet number behind a header and seals the packet. -/
def seal_packet {P : CryptoProvider} (send : DirectionalKeys P) (bits : UInt8) (cap : Nat)
    (header : Except Error Bytes) (payload : Bytes) (pn largest_acked : Nat) :
    Except Error Bytes := do
  let header ← header
  let pn_bytes ← encode_pn pn largest_acked (cap - header.length)
  encrypt_and_protect send bits cap header pn_bytes payload pn

/-! ## ACK frames -/

/-- The raw ranges of an ACK below its highest one, from high to low, in a buffer of 256
bytes. A buffer that fills up ends them, even between the two numbers of a pair. -/
def ack_range_bytes : Nat → List (Nat × Nat) → Bytes → Bytes
  | _, [], out => out
  | prev_smallest, (r_start, r_end) :: rest, out =>
    match encode_varint (prev_smallest - r_end - 2) (256 - out.length) with
    | .error _ => out
    | .ok gap =>
      match encode_varint (r_end - r_start) (256 - (out ++ gap).length) with
      | .error _ => out ++ gap
      | .ok ack_range => ack_range_bytes r_start rest (out ++ gap ++ ack_range)

/-- The ACK frame of a tracker, if it has recorded anything. -/
def build_ack_frame (tracker : RecvPnTracker) : Option AckFrame :=
  match tracker.ranges.reverse with
  | [] => none
  | (highest_start, highest_end) :: rest =>
    some { largest_ack := highest_end, ack_delay := 0, first_ack_range := highest_end - highest_start,
           ack_ranges := ack_range_bytes highest_start rest [], ecn := none }

/-! ## CRYPTO frames -/

/-- Takes the engine's next flight when all of the level's CRYPTO stream is sent. A flight goes
to its own level's stream, of at most 2048 bytes. -/
def stage_flight (X : Primitives) (target_level : Level) (ctx : HandshakeContext) :
    HandshakeContext :=
  if ctx.crypto_send_offset.get target_level = (ctx.pending_crypto.get target_level).length then
    match TlsEngine.write_handshake X 2048 ctx.tls with
    | (.ok (flight, tls_level), tls) =>
      let stream := ctx.pending_crypto.get tls_level ++ flight
      if stream.length ≤ 2048 then
        { ctx with tls, pending_crypto := ctx.pending_crypto.set tls_level stream }
      else { ctx with tls }
    | (.error _, tls) => { ctx with tls }
  else ctx

/-- Worst-case CRYPTO frame overhead and the AEAD tag. -/
def FRAME_OVERHEAD : Nat := 33

/-- The CRYPTO frame that sends as much of a level's unsent stream as `room` bytes hold. -/
def next_crypto_frame (level : Level) (room : Nat) (ctx : HandshakeContext) : Option CryptoFrame :=
  let offset := ctx.crypto_send_offset.get level
  let unsent := (ctx.pending_crypto.get level).length - offset
  if unsent = 0 ∨ room ≤ FRAME_OVERHEAD then none
  else
    let send_len := min (room - FRAME_OVERHEAD) unsent
    some { offset, data := ((ctx.pending_crypto.get level).drop offset).take send_len }

namespace Connection

/-! ## Draining frames -/

/-- A connection and the payload drained from it so far. -/
abbrev Draft (B : Build) := Connection B × Payload

/-- Writes an ACK if one is owed. Every writer below leaves the connection alone when its frame
does not fit into the `room` bytes there are. -/
def put_ack (level : Level) (room : Nat) : Draft B → Draft B
  | (c, p) =>
    if c.ack_eliciting_received.get level then
      match (build_ack_frame (c.recv_pn_tracker.get level)).bind fun ack => p.push room (.Ack ack) with
      | some p =>
        ({ c with ack_eliciting_received := c.ack_eliciting_received.set level false }, p)
      | none => (c, p)
    else (c, p)

/-- Writes pending TLS handshake data as a CRYPTO frame. -/
def write_tls_crypto_data (level : Level) (room : Nat) : Draft B → Draft B
  | (c, p) =>
    match c.handshake_slot with
    | none => (c, p)
    | some ctx =>
      let ctx := stage_flight B.toPrimitives level ctx
      let c := { c with handshake_slot := some ctx }
      match next_crypto_frame level (room - p.bytes.length) ctx with
      | none => (c, p)
      | some crypto =>
        match p.push room (.Crypto crypto) with
        | none => (c, p)
        | some p =>
          ({ c with handshake_slot := some { ctx with
              crypto_send_offset := ctx.crypto_send_offset.set level
                (crypto.offset + crypto.data.length) } }, p)

/-- Writes HANDSHAKE_DONE. It stays owed until the packet is sealed. -/
def put_handshake_done (room : Nat) : Draft B → Draft B
  | (c, p) =>
    if c.role = .Server ∧ c.need_handshake_done then (c, (p.push room .HandshakeDone).getD p)
    else (c, p)

/-- Writes the PATH_RESPONSE to a challenge. -/
def put_path_response (room : Nat) : Draft B → Draft B
  | (c, p) =>
    match c.pending_path_response with
    | none => (c, p)
    | some challenge_data =>
      match p.push room (.PathResponse challenge_data) with
      | some p => ({ c with pending_path_response := none }, p)
      | none => (c, p)

/-- Writes a MAX_DATA that is due, and commits its limit. -/
def put_max_data (room : Nat) : Draft B → Draft B
  | (c, p) =>
    match c.flow_control.should_send_max_data with
    | none => (c, p)
    | some new_max =>
      match p.push room (.MaxData new_max) with
      | some p => ({ c with flow_control := c.flow_control.max_data_sent }, p)
      | none => (c, p)

/-- Writes the MAX_STREAM_DATA frames that are due, up to the first that does not fit. A stream
is due at most once. -/
def put_max_stream_data (room : Nat) : Nat → Draft B → Draft B
  | 0, d => d
  | fuel + 1, (c, p) =>
    match c.streams.should_send_max_stream_data with
    | none => (c, p)
    | some (stream_id, max_data) =>
      match p.push room (.MaxStreamData { stream_id, max_data }) with
      | none => (c, p)
      | some p =>
        put_max_stream_data room fuel
          ({ c with streams := c.streams.mark_max_stream_data_sent stream_id }, p)

/-- The STREAM frame of a queue entry. -/
def stream_frame (e : StreamSendEntry) : Frame :=
  .Stream { stream_id := e.stream_id, offset := e.offset, data := e.data, fin := e.fin }

/-- Writes queue entries as STREAM frames, up to the first that does not fit. Returns the
entries left. -/
def build_stream_frames (room : Nat) :
    List StreamSendEntry → Payload → List StreamSendEntry × Payload
  | [], p => ([], p)
  | entry :: rest, p =>
    if room - p.bytes.length < 16 then (entry :: rest, p)
    else
      match p.push room (stream_frame entry) with
      | some p => build_stream_frames room rest p
      | none => (entry :: rest, p)

/-- Writes STREAM frames as far as the congestion window allows. -/
def put_streams (room : Nat) : Draft B → Draft B
  | (c, p) =>
    let budget := min c.congestion.available_window (room - p.bytes.length)
    let (send_queue, p) := build_stream_frames (p.bytes.length + budget) c.sio.send_queue p
    ({ c with sio := { c.sio with send_queue } }, p)

/-! ## Building packets -/

/-- Books a packet that was sealed. -/
def packet_sent (level : Level) (size : Nat) (ack_eliciting in_flight : Bool) (now : Instant)
    (c : Connection B) : Connection B :=
  let pn := c.next_pn.get level
  { c with
    next_pn := c.next_pn.set level (pn + 1)
    sent_tracker := c.sent_tracker.on_packet_sent B.SENT_PER_SPACE
      { pn, level, time_sent := now, size := size % 2 ^ 16, ack_eliciting, in_flight }
    loss_detector :=
      if ack_eliciting then c.loss_detector.on_ack_eliciting_sent level now else c.loss_detector
    congestion := if in_flight then c.congestion.on_packet_sent size else c.congestion }

/-- The padding of an Initial packet whose frames take `frame_len` bytes, and the length of its
header. Padding may grow the Length field, so it is computed twice. -/
def initial_padding (base_header pn_len frame_len : Nat) (pad_to_min : Bool) : Nat × Nat :=
  let base_payload_length := pn_len + frame_len + tag_len
  let length_vi_len := varint_len base_payload_length
  let total_no_pad := base_header + length_vi_len + base_payload_length
  let padding_needed :=
    if pad_to_min ∧ total_no_pad < MIN_INITIAL_PACKET_SIZE then MIN_INITIAL_PACKET_SIZE - total_no_pad
    else 0
  let new_vi_len := varint_len (base_payload_length + padding_needed)
  if new_vi_len ≠ length_vi_len then
    let total := base_header + new_vi_len + base_payload_length + padding_needed
    let more :=
      if pad_to_min ∧ total < MIN_INITIAL_PACKET_SIZE then MIN_INITIAL_PACKET_SIZE - total else 0
    (padding_needed + more, base_header + new_vi_len)
  else (padding_needed, base_header + length_vi_len)

/-- The length of an Initial header before its Length field. -/
def initial_base_header (c : Connection B) : Nat :=
  1 + 4 + 1 + c.remote_cid.length + 1 + c.local_scid.length + varint_len 0

/-- The packet number the next packet of a level has. -/
def pn_len (c : Connection B) (level : Level) : Nat :=
  pn_length (c.next_pn.get level) (c.largest_pn level)

/-- Seals an Initial packet, and says how much padding it has. -/
def seal_initial (cap : Nat) (pad_to_min : Bool) : Draft B → Option (Packet × Nat)
  | (c, p) =>
    let pn_len := c.pn_len .Initial
    let (padding_needed, header_len) :=
      initial_padding c.initial_base_header pn_len p.bytes.length pad_to_min
    let payload := p.bytes ++ List.replicate padding_needed 0
    let payload_length := pn_len + payload.length + tag_len
    -- A buffer too small for the padded packet yields none.
    if header_len + payload_length > cap then none
    else
      match c.keys.initial_send with
      | none => none
      | some send =>
        let header := encode_initial_header c.remote_cid c.local_scid [] pn_len payload_length cap
        match seal_packet send 0x0f cap header payload (c.next_pn.get .Initial)
            (c.largest_pn .Initial) with
        | .error _ => none
        | .ok data => some ({ level := .Initial, frames := p.frames, data }, padding_needed)

/-- Builds an Initial packet if there is something to send. CRYPTO data is attached only when
the buffer holds a packet of the minimum size. -/
def build_initial_packet (cap : Nat) (now : Instant) (c : Connection B) :
    Option Packet × Connection B :=
  let max_header := 1 + 4 + 1 + c.remote_cid.length + 1 + c.local_scid.length + 1 + 8
  let reserve := max_header + c.pn_len .Initial
  if cap < reserve + 32 then (none, c)
  else
    let room := cap - reserve
    let d := put_ack .Initial room (c, .empty)
    let d := if cap ≥ MIN_INITIAL_PACKET_SIZE then write_tls_crypto_data .Initial room d else d
    if d.2.bytes = [] then (none, d.1)
    else
      let has_crypto := d.2.ack_eliciting
      match seal_initial cap (c.role = .Client || has_crypto) d with
      | none => (none, d.1)
      | some (pkt, padding_needed) =>
        (some pkt, d.1.packet_sent .Initial pkt.data.length has_crypto
          (has_crypto || padding_needed > 0) now)

/-- The header of a Handshake or 1-RTT packet, and the protected bits of its first byte. -/
def header_of (level : Level) (cap payload_len : Nat) (c : Connection B) :
    Except Error Bytes × UInt8 :=
  let pn_len := c.pn_len level
  match level with
  | .Handshake =>
    (encode_handshake_header c.remote_cid c.local_scid pn_len (pn_len + payload_len + tag_len) cap,
      0x0f)
  | .Application =>
    let key_phase_bit := (c.keys.key_phase &&& 1) <<< 2
    (encode_short_header c.remote_cid (0x40 ||| key_phase_bit ||| (UInt8.ofNat pn_len - 1)) cap,
      0x1f)
  | .Initial => (.error .InvalidState, 0)

/-- Seals a Handshake or 1-RTT packet. -/
def seal_level (level : Level) (cap padding_needed : Nat) : Draft B → Option Packet
  | (c, p) =>
    let payload := p.bytes ++ List.replicate padding_needed 0
    match c.keys.send_keys level with
    | none => none
    | some send =>
      let (header, bits) := c.header_of level cap payload.length
      match seal_packet send bits cap header payload (c.next_pn.get level) (c.largest_pn level) with
      | .error _ => none
      | .ok data => some { level, frames := p.frames, data }

/-- Builds a Handshake packet if there is something to send. -/
def build_handshake_packet (cap : Nat) (now : Instant) (c : Connection B) :
    Option Packet × Connection B :=
  let max_header := 1 + 4 + 1 + c.remote_cid.length + 1 + c.local_scid.length + 8
  let reserve := max_header + c.pn_len .Handshake
  if cap < reserve + 32 then (none, c)
  else
    let room := cap - reserve
    let d := write_tls_crypto_data .Handshake room (put_ack .Handshake room (c, .empty))
    if d.2.bytes = [] then (none, d.1)
    else
      match seal_level .Handshake cap 0 d with
      | none => (none, d.1)
      | some pkt =>
        (some pkt, d.1.packet_sent .Handshake pkt.data.length d.2.ack_eliciting d.2.ack_eliciting now)

/-- The padding that gives header protection its sample. -/
def sample_padding (pn_len frame_len : Nat) : Nat := 20 - pn_len - frame_len - tag_len

/-- Drains the six sources of a 1-RTT packet into `room` bytes. -/
def drain_short (room : Nat) (c : Connection B) : Draft B :=
  let d := put_handshake_done room (c, .empty)
  let d := put_path_response room d
  let d := put_ack .Application room d
  let d := put_max_data room d
  let d := put_max_stream_data room c.streams.streams.length d
  put_streams room d

/-- What sealing a 1-RTT packet settles: HANDSHAKE_DONE is sent, the key is used once more. -/
def short_sent (frames : List Frame) (c : Connection B) : Connection B :=
  { c with
    need_handshake_done := c.need_handshake_done && !frames.contains .HandshakeDone
    keys := { c.keys with key_update := { c.keys.key_update with
      packets_encrypted := c.keys.key_update.packets_encrypted + 1 } } }

/-- Builds a short (1-RTT) packet if there is something to send. -/
def build_short_packet (cap : Nat) (now : Instant) (c : Connection B) :
    Option Packet × Connection B :=
  let payload_start := 1 + c.remote_cid.length + c.pn_len .Application
  if cap < payload_start + 32 then (none, c)
  else
    let d := c.drain_short (cap - payload_start)
    if d.2.bytes = [] then (none, d.1)
    else
      match seal_level .Application cap (sample_padding (c.pn_len .Application) d.2.bytes.length) d with
      | none => (none, d.1)
      | some pkt =>
        (some pkt, short_sent pkt.frames (d.1.packet_sent .Application pkt.data.length
          d.2.ack_eliciting d.2.ack_eliciting now))

/-! ## Datagrams -/

/-- The highest level there are send keys for. -/
def close_level (c : Connection B) : Option Level :=
  if c.keys.has_send_keys .Application then some .Application
  else if c.keys.has_send_keys .Handshake then some .Handshake
  else if c.keys.has_send_keys .Initial then some .Initial
  else none

/-- The packet that carries a CONNECTION_CLOSE. It is not ack-eliciting. -/
def build_close_packet (level : Level) (frame : Frame) (buf_len : Nat) (now : Instant)
    (c : Connection B) : Option Packet × Connection B :=
  match Payload.push 128 frame .empty with
  | none => (none, c)
  | some p =>
    let sealed : Option Packet := match level with
      | .Initial => (seal_initial buf_len (c.role = .Client) (c, p)).map Prod.fst
      | level => seal_level level buf_len (sample_padding (c.pn_len level) p.bytes.length) (c, p)
    match sealed with
    | none => (none, c)
    | some pkt =>
      let c := c.packet_sent level pkt.data.length false false now
      (some pkt, if level = .Application then c.short_sent pkt.frames else c)

/-- Sends CONNECTION_CLOSE at the highest level there are keys for, and is closed. -/
def transmit_close (error_code : Nat) (reason : Bytes) (buf_len : Nat) (now : Instant)
    (c : Connection B) : Option Transmit × Connection B :=
  match c.close_level with
  | none => (none, c)
  | some level =>
    let frame : Frame := .ConnectionClose
      { is_application := false, error_code, frame_type := 0, reason }
    match c.build_close_packet level frame buf_len now with
    | (pkt, c) => (pkt.map fun pkt => { packets := [pkt], data := pkt.data },
        { c with state := .Closed })

/-- The length of a packet that may not be there. -/
def packet_length (pkt : Option Packet) : Nat := (pkt.map (·.data.length)).getD 0

/-- Builds a packet if there are send keys of its level. -/
def build_with_keys (level : Level)
    (build : Connection B → Option Packet × Connection B) (c : Connection B) :
    Option Packet × Connection B :=
  if c.keys.has_send_keys level then build c else (none, c)

/-- Builds the packets of the Initial and of the Handshake level. -/
def build_long_packets (buf_len : Nat) (now : Instant) (c : Connection B) :
    Option Packet × Option Packet × Connection B :=
  let (initial, c) := c.build_with_keys .Initial (build_initial_packet buf_len now)
  let (handshake, c) := c.build_with_keys .Handshake
    (build_handshake_packet (buf_len - packet_length initial) now)
  (initial, handshake, c)

/-- Builds the packets of all levels, coalesced. The handshake slot is released in between if
the Finished has just been written. -/
def build_packets (buf_len : Nat) (now : Instant) (c : Connection B) :
    List Packet × Connection B :=
  let (initial, handshake, c) := c.build_long_packets buf_len now
  let c := c.maybe_release_handshake_slot
  let (short, c) := c.build_with_keys .Application
    (build_short_packet (buf_len - packet_length initial - packet_length handshake) now)
  (initial.toList ++ handshake.toList ++ short.toList, c)

/-- Hands out the datagram if the amplification limit allows it. -/
def emit (packets : List Packet) (c : Connection B) : Option Transmit × Connection B :=
  let data := packets.flatMap (·.data)
  if data = [] then (none, c)
  else if c.address_validated then (some { packets, data }, c)
  else if c.amplification_allows data.length then
    (some { packets, data },
      { c with anti_amplification_bytes_sent :=
          saturating_add c.anti_amplification_bytes_sent data.length })
  else (none, c)

/-- After a PTO the CRYPTO streams are sent again from the start. -/
def rewind_crypto (c : Connection B) : Connection B :=
  if c.crypto_rewind_pending then
    { c with
      crypto_rewind_pending := false
      handshake_slot := c.handshake_slot.map fun ctx =>
        { ctx with crypto_send_offset := .replicate 0 } }
  else c

/-- The part of `poll_transmit` behind its checks. -/
def transmit (buf_len : Nat) (now : Instant) (c : Connection B) :
    Option Transmit × Connection B :=
  match c.close_frame with
  | some (error_code, reason) => c.transmit_close error_code reason buf_len now
  | none =>
    let (packets, c) := c.build_packets buf_len now
    c.emit packets

/-- Updates the keys before their limit. -/
def auto_key_update : Method (Connection B) Error Unit := do
  let c ← Method.get
  if c.keys.needs_key_update then
    Method.on Connection.keys (fun keys c => { c with keys }) ConnectionKeys.perform_key_update
  else pure ()

/-- Builds the next outgoing UDP datagram in a buffer of `buf_len` bytes. -/
def poll_transmit (buf_len : Nat) (now : Instant) (c : Connection B) :
    Option Transmit × Connection B :=
  if c.state = .Closed then (none, c)
  else if c.amplification_allows 1 = false then (none, c)
  else
    match auto_key_update c with
    | (.error _, c) => (none, { c with state := .Closed })
    | (.ok _, c) => c.rewind_crypto.transmit buf_len now

end Connection

end milli_http.connection
