-- Receiving (h2/connection.rs): the bytes of the peer are cut into frames. DATA is streamed into
-- the buffers of its stream as it arrives, every other frame is processed whole.
import MilliHttp.H2.Calls

open bytes method

namespace milli_http.h2

open hpack

variable {L : Limits}

namespace H2Connection

/-! ## DATA -/

/-- Takes bytes off the receive buffer. -/
def drain_recv (n : Nat) (c : H2Connection L) : H2Connection L := { c with io := c.io.drain_recv n }

/-- Delivers the payload that is there into the buffer of its stream, as far as it has room. Of
the bytes to deliver, the bytes there and the room, one runs out, so the loop of the source goes
round once. -/
def deliver_data (stream : H2Stream) (pd : PartialData) (c : H2Connection L) :
    PartialData × H2Connection L :=
  let free := L.DATABUF - stream.data_buf.length
  if free = 0 then (pd, c)
  else
    let n := min (min pd.data_remaining c.io.recv_buf.length) free
    let c := c.modify_stream pd.stream_id (·.deliver (c.io.recv_buf.take n))
    ({ pd with data_remaining := pd.data_remaining - n },
      push_event (.Data pd.stream_id) (c.drain_recv n))

/-- Drops the payload that is there and credits the connection for it. -/
def discard_data (pd : PartialData) (c : H2Connection L) : PartialData × H2Connection L :=
  let n := min pd.data_remaining c.io.recv_buf.length
  ({ pd with data_remaining := pd.data_remaining - n },
    (c.drain_recv n).send_window_update 0 n)

/-- The payload of a DATA frame in progress. The payload of a stream that is gone is dropped. -/
def pump_payload (pd : PartialData) (c : H2Connection L) : PartialData × H2Connection L :=
  if pd.data_remaining = 0 ∨ c.io.recv_buf = [] then (pd, c)
  else if pd.deliver then
    match c.get_stream pd.stream_id with
    | some stream => deliver_data stream pd c
    | none => discard_data { pd with deliver := false } c
  else discard_data pd c

/-- The padding behind the payload. -/
def pump_padding (pd : PartialData) (c : H2Connection L) : PartialData × H2Connection L :=
  if pd.data_remaining = 0 then
    let n := min pd.pad_remaining c.io.recv_buf.length
    ({ pd with pad_remaining := pd.pad_remaining - n }, c.drain_recv n)
  else (pd, c)

/-- A DATA frame is complete. -/
def finish_data (pd : PartialData) (c : H2Connection L) : H2Connection L :=
  if pd.deliver then
    let c := c.modify_stream pd.stream_id (·.data_done pd.end_stream)
    if pd.end_stream then push_event (.Finished pd.stream_id) c else c
  else c

/-- Streams as much of a DATA frame in progress as there is, then its padding. -/
def pump_partial_data (c : H2Connection L) : H2Connection L :=
  match c.partial_data with
  | none => c
  | some pd =>
    let (pd, c) := pump_payload pd { c with partial_data := none }
    let (pd, c) := pump_padding pd c
    if pd.data_remaining = 0 ∧ pd.pad_remaining = 0 then finish_data pd c
    else { c with partial_data := some pd }

/-- Whether there is a stream that is not closed. -/
def live_stream (c : H2Connection L) (stream_id : Nat) : Option H2Stream :=
  c.streams.find? fun s => s.id == stream_id && s.state != .Closed

/-- The lengths of the data and of the padding of a DATA frame. -/
def data_lengths (hdr : H2FrameHeader) (pad_length : UInt8) : Except Error (Nat × Nat) :=
  if hdr.has FLAG_PADDED then
    if hdr.length = 0 then .error (.BufferTooSmall 1)
    else if pad_length.toNat ≥ hdr.length then .error .InvalidState
    else .ok (hdr.length - 1 - pad_length.toNat, pad_length.toNat)
  else .ok (hdr.length, 0)

/-- What the loop of `process_recv` does next. -/
inductive Progress where
  | Continue
  | Break
  deriving DecidableEq, Repr

/-- Begins a DATA frame. Only its header, and the pad length, need to be there. -/
def begin_data (hdr : H2FrameHeader) : Method (H2Connection L) Error Progress := do
  Method.require (hdr.stream_id ≠ 0) (.Http2 .ProtocolError)
  let c ← Method.get
  let header_len := if hdr.has FLAG_PADDED then 10 else 9
  if c.io.recv_buf.length < header_len then pure .Break
  else do
    let (data_total, pad_total) ← Method.lift (data_lengths hdr (c.io.recv_buf.getD 9 0))
    -- Before our SETTINGS are acknowledged the peer may use the default window.
    Method.require (¬ (c.settings_ack_received ∧
      (c.live_stream hdr.stream_id).any fun s => (data_total : Int) > s.recv_window))
      (.Http2 .FlowControlError)
    Method.on H2Connection.conn_recv_fc (fun conn_recv_fc c => { c with conn_recv_fc })
      (FlowController.consume data_total)
    Method.modify (drain_recv header_len)
    Method.modify fun c => { c with partial_data := some {
      stream_id := hdr.stream_id
      end_stream := hdr.has FLAG_END_STREAM
      data_remaining := data_total
      pad_remaining := pad_total
      deliver := (c.live_stream hdr.stream_id).isSome } }
    pure .Continue

/-! ## HEADERS -/

/-- The fragment of a HEADERS frame, without padding and priority. -/
def headers_fragment (hdr : H2FrameHeader) (payload : Bytes) : Except Error Bytes := do
  let data ← strip_padding payload (hdr.has FLAG_PADDED)
  if hdr.has FLAG_PRIORITY then
    if data.length < 5 then .error (.BufferTooSmall 5) else .ok (data.drop 5)
  else .ok data

/-- Whether an identifier is of the streams we open ourselves. -/
def own_id (c : H2Connection L) (stream_id : Nat) : Bool :=
  match c.role with
  | .Client => stream_id % 2 == 1
  | .Server => stream_id % 2 == 0

/-- Whether a stream is closed: its place is still there, or it was one of ours and is gone. -/
def is_closed_stream (c : H2Connection L) (stream_id : Nat) : Bool :=
  c.streams.any (fun s => s.id == stream_id && s.state == .Closed) ||
    (!c.streams.any (·.id == stream_id) && decide (stream_id < c.next_stream_id) &&
      c.own_id stream_id)

/-- Whether the peer may open a stream of that identifier. -/
def may_open (c : H2Connection L) (stream_id : Nat) : Bool :=
  match c.role with
  | .Server => stream_id % 2 == 1
  | .Client => false

/-- Runs the decoder over a block nobody reads. -/
def decode_dropped (block : Bytes) : Method (H2Connection L) Error Unit := fun c =>
  match c.decoder.decode block with
  | (r, _, decoder) => (r, { c with decoder })

/-- A header block begins on a stream. -/
def store_headers (hdr : H2FrameHeader) (fragment : Bytes) : Method (H2Connection L) Error Unit := do
  Method.modify (modify_stream hdr.stream_id (·.begin_block))
  Method.require (fragment.length ≤ L.HDRBUF) (.Http2 .EnhanceYourCalm)
  Method.modify (modify_stream hdr.stream_id
    (·.store_block fragment (hdr.has FLAG_END_HEADERS) (hdr.has FLAG_END_STREAM)))

/-- The peer used a stream. -/
def see_peer_stream (stream_id : Nat) (c : H2Connection L) : H2Connection L :=
  { c with last_peer_stream_id := max c.last_peer_stream_id stream_id }

/-- The events of a HEADERS frame. A block without END_HEADERS goes on in CONTINUATION frames. -/
def announce_headers (hdr : H2FrameHeader) (c : H2Connection L) : H2Connection L :=
  let c :=
    if hdr.has FLAG_END_HEADERS then push_event (.Headers hdr.stream_id) c
    else { c with continuation_stream_id := some hdr.stream_id }
  if hdr.has FLAG_END_STREAM then push_event (.Finished hdr.stream_id) c else c

/-- A HEADERS frame. -/
def handle_headers (hdr : H2FrameHeader) (payload : Bytes) : Method (H2Connection L) Error Unit := do
  Method.require (hdr.stream_id ≠ 0) (.Http2 .ProtocolError)
  let fragment ← Method.lift (headers_fragment hdr payload)
  let c ← Method.get
  if c.is_closed_stream hdr.stream_id then do
    Method.require (hdr.has FLAG_END_HEADERS = true) (.Http2 .CompressionError)
    decode_dropped fragment
  else do
    Method.require (c.streams.any (·.id == hdr.stream_id) = true ∨ c.may_open hdr.stream_id = true)
      (.Http2 .ProtocolError)
    Method.modify (see_peer_stream hdr.stream_id)
    let c ← Method.get
    Method.modify fun c => (c.ensure_stream hdr.stream_id).2
    Method.require ((c.ensure_stream hdr.stream_id).1 = true) (.Http2 .ProtocolError)
    store_headers hdr fragment
    Method.modify (announce_headers hdr)

/-- The end of a header block is noted even when its stream is gone. -/
def note_block_end (hdr : H2FrameHeader) (c : H2Connection L) : H2Connection L :=
  { c with
    continuation_stream_id :=
      if hdr.has FLAG_END_HEADERS then none else c.continuation_stream_id }

/-- The event of a header block that ends in a CONTINUATION frame. -/
def announce_block (hdr : H2FrameHeader) (c : H2Connection L) : H2Connection L :=
  if hdr.has FLAG_END_HEADERS then push_event (.Headers hdr.stream_id) c else c

/-- A CONTINUATION frame. -/
def handle_continuation (hdr : H2FrameHeader) (payload : Bytes) :
    Method (H2Connection L) Error Unit := do
  Method.require (hdr.stream_id ≠ 0) (.Http2 .ProtocolError)
  Method.modify (note_block_end hdr)
  let c ← Method.get
  match c.get_stream hdr.stream_id with
  | none => pure ()
  | some stream => do
    Method.require (stream.headers_data.length + payload.length ≤ L.HDRBUF)
      (.Http2 .EnhanceYourCalm)
    Method.modify (modify_stream hdr.stream_id
      (·.append_block payload (hdr.has FLAG_END_HEADERS)))
    Method.modify (announce_block hdr)

/-! ## The other frames -/

/-- The settings are exchanged. -/
def activate (c : H2Connection L) : H2Connection L :=
  push_event .Connected { c with state := .Active, headers_phase_complete := true }

/-- Moves the send windows by a change of the initial window, up to the first that would
overflow. -/
def adjust_windows (delta : Int) : List H2Stream → Except Error Unit × List H2Stream
  | [] => (.ok (), [])
  | s :: rest =>
    if InI32 (s.send_window + delta) then
      let (r, rest) := adjust_windows delta rest
      (r, s.shift_window delta :: rest)
    else (.error (.Http2 .FlowControlError), s :: rest)

/-- Moves the send windows of all streams. -/
def adjust_streams (delta : Int) : Method (H2Connection L) Error Unit := fun c =>
  if delta = 0 then (.ok (), c)
  else ((adjust_windows delta c.streams).1,
    { c with streams := (adjust_windows delta c.streams).2 })

/-- The SETTINGS of the peer. -/
def apply_settings (payload : Bytes) : Method (H2Connection L) Error Unit := do
  let c ← Method.get
  let old_initial := as_i32 c.peer_settings.initial_window_size
  Method.on H2Connection.peer_settings (fun peer_settings c => { c with peer_settings })
    (H2Settings.apply_payload payload)
  Method.modify fun c => { c with peer_settings_received := true }
  queue_frame 16 (.Settings true [])
  Method.modify fun c =>
    if c.state = .WaitingPreface ∨ c.state = .WaitingSettings then c.activate else c
  let c ← Method.get
  adjust_streams (as_i32 c.peer_settings.initial_window_size - old_initial)

/-- A SETTINGS frame. -/
def handle_settings (hdr : H2FrameHeader) (payload : Bytes) :
    Method (H2Connection L) Error Unit := do
  Method.require (hdr.stream_id = 0) (.Http2 .ProtocolError)
  if hdr.has FLAG_ACK then do
    Method.require (hdr.length = 0) (.Http2 .FrameSizeError)
    Method.modify fun c =>
      let c := { c with settings_ack_received := true }
      if c.peer_settings_received ∧ c.state = .WaitingSettings then c.activate else c
  else apply_settings payload

/-- The increment of a WINDOW_UPDATE frame. The top bit is reserved. -/
def window_increment (payload : Bytes) : Nat := beNat (payload.take 4) % 2 ^ 31

/-- A WINDOW_UPDATE frame. -/
def handle_window_update (hdr : H2FrameHeader) (payload : Bytes) :
    Method (H2Connection L) Error Unit := do
  Method.require (hdr.length = 4) .InvalidState
  let increment := window_increment payload
  Method.require (increment ≠ 0) (.Http2 .ProtocolError)
  if hdr.stream_id = 0 then
    Method.on H2Connection.conn_send_fc (fun conn_send_fc c => { c with conn_send_fc })
      (FlowController.replenish increment)
  else do
    let c ← Method.get
    match c.get_stream hdr.stream_id with
    | none => pure ()
    | some stream => do
      Method.require (stream.send_window + increment ≤ 0x7fffffff) (.Http2 .FlowControlError)
      Method.modify (modify_stream hdr.stream_id (·.shift_window increment))

/-- A PING frame. -/
def handle_ping (hdr : H2FrameHeader) (payload : Bytes) : Method (H2Connection L) Error Unit := do
  Method.require (hdr.stream_id = 0) (.Http2 .ProtocolError)
  Method.require (hdr.length = 8) (.Http2 .FrameSizeError)
  if hdr.has FLAG_ACK then pure () else queue_frame 32 (.Ping (payload.take 8) true)

/-- A GOAWAY frame. -/
def handle_goaway (hdr : H2FrameHeader) (payload : Bytes) : Method (H2Connection L) Error Unit := do
  Method.require (hdr.stream_id = 0) .InvalidState
  Method.require (hdr.length ≥ 8) (.BufferTooSmall 8)
  Method.modify fun c =>
    push_event (.GoAway (beNat (payload.take 4) % 2 ^ 31) (beNat ((payload.drop 4).take 4)))
      { c with state := .Closing }

/-- A RST_STREAM frame: the unread body is dropped, and the connection credited for it. -/
def handle_rst_stream (hdr : H2FrameHeader) (payload : Bytes) :
    Method (H2Connection L) Error Unit := do
  Method.require (hdr.stream_id ≠ 0) .InvalidState
  Method.require (hdr.length = 4) .InvalidState
  let c ← Method.get
  let buffered := ((c.get_stream hdr.stream_id).map (·.data_buf.length)).getD 0
  Method.modify (abandon_partial_data hdr.stream_id)
  Method.modify (modify_stream hdr.stream_id (·.reset_by_peer))
  Method.modify (send_window_update 0 buffered)
  Method.modify (push_event (.StreamReset hdr.stream_id (beNat (payload.take 4))))

/-- A whole frame other than DATA. PRIORITY, PUSH_PROMISE and unknown frames are skipped. -/
def handle_frame (hdr : H2FrameHeader) (payload : Bytes) : Method (H2Connection L) Error Unit :=
  match hdr.frame_type with
  | .Headers => handle_headers hdr payload
  | .Settings => handle_settings hdr payload
  | .WindowUpdate => handle_window_update hdr payload
  | .Ping => handle_ping hdr payload
  | .GoAway => handle_goaway hdr payload
  | .RstStream => handle_rst_stream hdr payload
  | .Continuation => handle_continuation hdr payload
  | .Data | .Priority | .PushPromise | .Unknown _ => pure ()

/-! ## The receive loop -/

/-- The frame at the front of the receive buffer, if it is all there. -/
def process_whole (hdr : H2FrameHeader) : Method (H2Connection L) Error Progress := do
  Method.require (9 + hdr.length ≤ L.BUF) (.Http2 .FrameSizeError)
  let c ← Method.get
  if c.io.recv_buf.length < 9 + hdr.length then pure .Break
  else do
    handle_frame hdr ((c.io.recv_buf.drop 9).take hdr.length)
    Method.modify (drain_recv (9 + hdr.length))
    pure .Continue

/-- The checks on a frame's header, and then the frame. -/
def process_header (hdr : H2FrameHeader) : Method (H2Connection L) Error Progress := do
  let c ← Method.get
  Method.require (hdr.length ≤ c.local_settings.max_frame_size) (.Http2 .FrameSizeError)
  Method.require (∀ expected ∈ c.continuation_stream_id,
    hdr.frame_type = .Continuation ∧ hdr.stream_id = expected) (.Http2 .ProtocolError)
  if hdr.frame_type = .Data then begin_data hdr else process_whole hdr

/-- One round of the receive loop. -/
def process_frame : Method (H2Connection L) Error Progress := do
  let c ← Method.get
  if c.partial_data.isSome then do
    Method.modify pump_partial_data
    let c ← Method.get
    pure (if c.partial_data.isSome then .Break else .Continue)
  else if c.io.recv_buf.length < 9 then pure .Break
  else process_header (decode_frame_header c.io.recv_buf)

/-- The receive loop. -/
def process_frames : Nat → Method (H2Connection L) Error Unit
  | 0 => pure ()
  | fuel + 1 => do
    let progress ← process_frame
    match progress with
    | .Continue => process_frames fuel
    | .Break => pure ()

/-- Checks the client's preface, as far as it is there. -/
def validate_client_preface : Method (H2Connection L) Error Unit := do
  let c ← Method.get
  let remaining := CONNECTION_PREFACE.drop c.preface_bytes_seen
  let check_len := min remaining.length c.io.recv_buf.length
  Method.require (c.io.recv_buf.take check_len = remaining.take check_len) .InvalidState
  Method.modify fun c => { c.drain_recv check_len with
    preface_bytes_seen := c.preface_bytes_seen + check_len
    preface_validated :=
      c.preface_validated || decide (c.preface_bytes_seen + check_len ≥ CONNECTION_PREFACE.length) }

/-- How often the receive loop goes round at most: a frame takes nine bytes, and DATA one round
more. -/
def rounds (c : H2Connection L) : Nat := c.io.recv_buf.length + 2

/-- Processes what is in the receive buffer. -/
def process_recv : Method (H2Connection L) Error Unit := do
  let c ← Method.get
  if c.role = .Server ∧ c.preface_validated = false then validate_client_preface else pure ()
  let c ← Method.get
  if c.role = .Server ∧ c.preface_validated = false then pure ()
  else do
    process_frames c.rounds
    Method.modify reap

/-- Feeds bytes received from the peer. -/
def feed_data (data : Bytes) : Method (H2Connection L) Error Unit := do
  Method.modify generate_output
  let c ← Method.get
  Method.require (c.io.recv_buf.length + data.length ≤ L.BUF)
    (.BufferTooSmall (c.io.recv_buf.length + data.length))
  Method.modify fun c => { c with io := { c.io with recv_buf := c.io.recv_buf ++ data } }
  process_recv

/-- Feeds bytes, with the time they arrived. -/
def feed_data_timed (data : Bytes) (now : Nat) : Method (H2Connection L) Error Unit := do
  Method.modify fun c => { c with last_activity := if data = [] then c.last_activity else now }
  feed_data data

end H2Connection

end milli_http.h2
