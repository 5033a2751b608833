-- An HTTP/3 connection (h3/connection.rs, h3/client.rs, h3/server.rs) of a build with the alloc
-- feature: control streams, settings, request streams, and the calls of a client or a server.
-- Frames are decoded from what one read of a stream returned; nothing of it is kept.
import MilliHttp.Lib.Keyed
import MilliHttp.Connection.Steps
import MilliHttp.Http1.Connection
import MilliHttp.H3.Frame

open bytes method

namespace milli_http.h3

open crypto tls transport connection varint

/-! ## Data -/

def H3_STREAM_TYPE_CONTROL : Nat := 0x00
def H3_STREAM_TYPE_QPACK_ENCODER : Nat := 0x02
def H3_STREAM_TYPE_QPACK_DECODER : Nat := 0x03

/-- A build, with the sizes of the buffers of a request stream. -/
structure H3Build extends Build where
  H3_HDR_BUF : Nat
  H3_DATA_BUF : Nat

/-- Events of the HTTP/3 layer. -/
inductive H3Event where
  | Connected
  | Headers (stream_id : Nat)
  | Data (stream_id : Nat)
  | GoAway (stream_id : Nat)
  | Finished (stream_id : Nat)
  | StreamReset (stream_id error_code : Nat)
  | ConnectionClose (error_code : Nat)
  deriving DecidableEq, Repr

/-- What a connection knows of a request stream. -/
structure RequestStreamState where
  stream_id : Nat
  /-- The payload of its HEADERS frame, and whether there was one. -/
  headers_data : Bytes
  headers_received : Bool
  /-- The payloads of its DATA frames. -/
  data_buf : Bytes
  data_available : Bool
  fin_received : Bool
  deriving DecidableEq, Repr

/-- What has happened on a connection. The source keeps no such record. -/
structure History where
  /-- What the reads of unidirectional streams returned, if anything. -/
  uni_reads : List (Nat × Bytes) := []
  /-- What the reads of request streams returned, and whether the stream ended there. -/
  request_reads : List (Nat × Bytes × Bool) := []
  /-- The streams taken as the control stream of the peer. -/
  accepted : List Nat := []
  /-- The frames taken from control streams. -/
  control_frames : List H3Frame := []
  /-- The events raised. -/
  raised : List H3Event := []
  deriving DecidableEq, Repr

structure H3Connection (B : H3Build) where
  quic : Connection B.toBuild
  local_control_stream : Option Nat
  peer_control_stream : Option Nat
  local_encoder_stream : Option Nat
  local_decoder_stream : Option Nat
  peer_encoder_stream : Option Nat
  peer_decoder_stream : Option Nat
  local_settings : H3Settings
  peer_settings : Option H3Settings
  settings_sent : Bool
  h3_events : List H3Event
  request_streams : List RequestStreamState
  /-- Nothing is ever put here. -/
  pending_uni_streams : List Nat
  history : History

variable {B : H3Build}

def RequestStreamState.new (stream_id : Nat) : RequestStreamState where
  stream_id := stream_id
  headers_data := []
  headers_received := false
  data_buf := []
  data_available := false
  fin_received := false

namespace H3Connection

def new (quic : Connection B.toBuild) : H3Connection B where
  quic := quic
  local_control_stream := none
  peer_control_stream := none
  local_encoder_stream := none
  local_decoder_stream := none
  peer_encoder_stream := none
  peer_decoder_stream := none
  local_settings := {}
  peer_settings := none
  settings_sent := false
  h3_events := []
  request_streams := []
  pending_uni_streams := []
  history := {}

/-- Runs a method of the QUIC connection. -/
def on_quic {α : Type} (m : Method (Connection B.toBuild) Error α) : Method (H3Connection B) Error α :=
  Method.on quic (fun quic h => { h with quic }) m

/-- Raises an event. Of 64 waiting ones the oldest is dropped. -/
def push_h3_event (event : H3Event) (h : H3Connection B) : H3Connection B :=
  let waiting := if h.h3_events.length ≥ 64 then h.h3_events.tail else h.h3_events
  { h with
    h3_events := waiting ++ [event]
    history := { h.history with raised := h.history.raised ++ [event] } }

/-! ## Its own streams -/

/-- Sends the type of a unidirectional stream. -/
def send_stream_type (stream_id stream_type : Nat) : Method (H3Connection B) Error Unit := do
  let bytes ← Method.lift (encode_varint stream_type 8)
  let _ ← on_quic (Connection.stream_send stream_id bytes false)

/-- Sends SETTINGS on the control stream. -/
def send_settings (stream_id : Nat) : Method (H3Connection B) Error Unit := do
  let h ← Method.get
  let bytes ← Method.lift (encode_settings_frame h.local_settings 128)
  let _ ← on_quic (Connection.stream_send stream_id bytes false)

/-- Opens the control stream, sends SETTINGS on it, and opens the two QPACK streams. -/
def setup_h3_streams : Method (H3Connection B) Error Unit := do
  let ctrl_id ← on_quic Connection.open_uni_stream
  Method.modify fun h => { h with local_control_stream := some ctrl_id }
  send_stream_type ctrl_id H3_STREAM_TYPE_CONTROL
  send_settings ctrl_id
  Method.modify fun h => { h with settings_sent := true }
  let enc_id ← on_quic Connection.open_uni_stream
  Method.modify fun h => { h with local_encoder_stream := some enc_id }
  send_stream_type enc_id H3_STREAM_TYPE_QPACK_ENCODER
  let dec_id ← on_quic Connection.open_uni_stream
  Method.modify fun h => { h with local_decoder_stream := some dec_id }
  send_stream_type dec_id H3_STREAM_TYPE_QPACK_DECODER

/-! ## Unidirectional streams of the peer -/

/-- Reads a stream into the scratch buffer. Without data there is nothing to read. -/
def read_stream (stream_id scratch_len : Nat) : Method (H3Connection B) Error (Option (Bytes × Bool)) :=
  fun h =>
    match on_quic (Connection.stream_recv stream_id scratch_len) h with
    | (.ok r, h) => (.ok (some r), h)
    | (.error .WouldBlock, h) => (.ok none, h)
    | (.error e, h) => (.error e, h)

/-- Takes one frame of the control stream: SETTINGS and GOAWAY have an effect. -/
def take_control_frame (h : H3Connection B) (frame : H3Frame) : H3Connection B :=
  let h := { h with
    history := { h.history with control_frames := h.history.control_frames ++ [frame] } }
  match frame with
  | .Settings settings => push_h3_event .Connected { h with peer_settings := some settings }
  | .GoAway id => push_h3_event (.GoAway id) h
  | _ => h

/-- The frames of some data of the control stream. What does not decode is dropped. -/
def process_control_data (data : Bytes) (h : H3Connection B) : H3Connection B :=
  (decode_frames data).1.foldl take_control_frame h

/-- Notes what a read of a unidirectional stream returned. -/
def note_uni_read (stream_id : Nat) (data : Bytes) (h : H3Connection B) : H3Connection B :=
  { h with history := { h.history with uni_reads := h.history.uni_reads ++ [(stream_id, data)] } }

/-- Reads more of the control stream. -/
def read_control_stream_frames (stream_id scratch_len : Nat) : Method (H3Connection B) Error Unit := do
  let read ← read_stream stream_id scratch_len
  match read with
  | some (data, _) =>
    if data = [] then pure ()
    else do
      Method.modify (note_uni_read stream_id data)
      Method.modify (process_control_data data)
  | none => pure ()

/-- Takes a stream of the given type. Of the control stream, the data behind the type is
processed; a type that is not known is ignored. -/
def classify (stream_id stream_type : Nat) (remaining : Bytes) (h : H3Connection B) : H3Connection B :=
  let pending_uni_streams := h.pending_uni_streams.filter (· != stream_id)
  if stream_type = H3_STREAM_TYPE_CONTROL then
    process_control_data remaining { h with
      peer_control_stream := some stream_id
      pending_uni_streams
      history := { h.history with accepted := h.history.accepted ++ [stream_id] } }
  else if stream_type = H3_STREAM_TYPE_QPACK_ENCODER then
    { h with peer_encoder_stream := some stream_id, pending_uni_streams }
  else if stream_type = H3_STREAM_TYPE_QPACK_DECODER then
    { h with peer_decoder_stream := some stream_id, pending_uni_streams }
  else h

/-- Handles data on a unidirectional stream. A stream that is not one of the three of the peer
is read, and what was read is taken to start with its type. -/
def handle_uni_stream_data (stream_id scratch_len : Nat) : Method (H3Connection B) Error Unit := do
  let h ← Method.get
  if some stream_id = h.peer_control_stream then read_control_stream_frames stream_id scratch_len
  else if some stream_id = h.peer_encoder_stream ∨ some stream_id = h.peer_decoder_stream then pure ()
  else do
    let read ← read_stream stream_id scratch_len
    match read with
    | some (data, _) =>
      if data = [] then pure ()
      else do
        Method.modify (note_uni_read stream_id data)
        let (stream_type, type_len) ← Method.lift (decode_varint data)
        Method.modify (classify stream_id stream_type (data.drop type_len))
    | none => pure ()

/-! ## Request streams -/

/-- Rewrites what is known of a request stream. -/
def update_stream (stream_id : Nat) (f : RequestStreamState → RequestStreamState)
    (h : H3Connection B) : H3Connection B :=
  { h with request_streams := keyed.modify RequestStreamState.stream_id stream_id f h.request_streams }

/-- Notes the end of a request stream, if it is tracked. -/
def mark_fin (stream_id : Nat) (h : H3Connection B) : H3Connection B :=
  match keyed.find RequestStreamState.stream_id stream_id h.request_streams with
  | some _ =>
    push_h3_event (.Finished stream_id)
      (update_stream stream_id (fun rs => { rs with fin_received := true }) h)
  | none => h

/-- `Buf::extend_from_slice` with its result dropped: all of the data, or none. -/
def extend (cap : Nat) (buf data : Bytes) : Bytes :=
  if buf.length + data.length ≤ cap then buf ++ data else buf

/-- Takes one frame of a request stream: the payload of a HEADERS frame in place of an earlier
one, the payload of a DATA frame behind the earlier ones. -/
def take_request_frame (stream_id : Nat) (h : H3Connection B) (frame : H3Frame) : H3Connection B :=
  match frame with
  | .Headers payload =>
    push_h3_event (.Headers stream_id) (update_stream stream_id (fun rs => { rs with
      headers_data := extend B.H3_HDR_BUF [] payload, headers_received := true }) h)
  | .Data payload =>
    push_h3_event (.Data stream_id) (update_stream stream_id (fun rs => { rs with
      data_buf := extend B.H3_DATA_BUF rs.data_buf payload, data_available := true }) h)
  | _ => h

/-- Notes what a read of a request stream returned. -/
def note_request_read (stream_id : Nat) (data : Bytes) (fin : Bool) (h : H3Connection B) :
    H3Connection B :=
  { h with
    history := { h.history with request_reads := h.history.request_reads ++ [(stream_id, data, fin)] } }

/-- Starts to track a request stream. -/
def track (stream_id : Nat) (h : H3Connection B) : H3Connection B :=
  { h with request_streams := h.request_streams ++ [.new stream_id] }

/-- Handles data on a request stream. It is tracked from now on, if there are not eight
already; the frames are those of what one read returned. -/
def handle_request_stream_data (stream_id scratch_len : Nat) : Method (H3Connection B) Error Unit := do
  let h ← Method.get
  let tracked := h.request_streams.any fun rs => rs.stream_id == stream_id
  if tracked = false ∧ h.request_streams.length ≥ 8 then pure ()
  else do
    Method.modify fun h => if tracked then h else track stream_id h
    let read ← read_stream stream_id scratch_len
    match read with
    | some (data, fin) =>
      Method.modify (note_request_read stream_id data fin)
      Method.modify fun h => (decode_frames data).1.foldl (take_request_frame stream_id) h
      Method.modify fun h => if fin then mark_fin stream_id h else h
    | none => pure ()

/-! ## Events of the QUIC connection -/

/-- Handles data on a stream. -/
def handle_stream_data (stream_id scratch_len : Nat) : Method (H3Connection B) Error Unit :=
  if is_bidirectional stream_id then handle_request_stream_data stream_id scratch_len
  else handle_uni_stream_data stream_id scratch_len

/-- Handles one event of the QUIC connection. -/
def handle_event (scratch_len : Nat) : Event → Method (H3Connection B) Error Unit
  | .Connected => setup_h3_streams
  | .StreamOpened stream_id => handle_stream_data stream_id scratch_len
  | .StreamReadable stream_id => handle_stream_data stream_id scratch_len
  | .StreamFinished stream_id => Method.modify (mark_fin stream_id)
  | .StreamReset stream_id error_code =>
    Method.modify (push_h3_event (.StreamReset stream_id error_code))
  | .ConnectionClose error_code _ => Method.modify (push_h3_event (.ConnectionClose error_code))
  | .StreamWritable _ => pure ()
  | .StopSending _ _ => pure ()

/-- The events one by one, up to the first error. -/
def handle_events (scratch_len : Nat) : List Event → Method (H3Connection B) Error Unit
  | [] => pure ()
  | ev :: rest => do
    handle_event scratch_len ev
    handle_events scratch_len rest

/-- Polls for all the events that wait, at most so many. -/
def poll_events : Nat → Connection B.toBuild → List Event × Connection B.toBuild
  | 0, c => ([], c)
  | fuel + 1, c =>
    match c.poll_event with
    | (none, c) => ([], c)
    | (some ev, c) =>
      let (events, c) := poll_events fuel c
      (ev :: events, c)

/-- Drains the events of the QUIC connection and handles the first sixteen. -/
def process_quic_events (scratch_len : Nat) : Method (H3Connection B) Error Unit := do
  let h ← Method.get
  let (events, quic) := poll_events h.quic.events.length h.quic
  Method.modify fun h => { h with quic }
  handle_events scratch_len (events.take 16)

/-- The next event. What goes wrong on the way is not reported. -/
def poll_event (scratch_len : Nat) (h : H3Connection B) : Option H3Event × H3Connection B :=
  let h := (process_quic_events scratch_len h).2
  (h.h3_events.head?, { h with h3_events := h.h3_events.tail })

/-! ## Reading requests and responses -/

/-- The fields of the HEADERS frame of a stream. -/
def recv_headers (h : H3Connection B) (stream_id : Nat) :
    Outcome Error Unit × List (Bytes × Bytes) :=
  match keyed.find RequestStreamState.stream_id stream_id h.request_streams with
  | none => (.err .InvalidState, [])
  | some rs =>
    if rs.headers_received = false then (.err .WouldBlock, [])
    else
      match qpack.decode_field_section rs.headers_data with
      | (.ok _, fields) => (.ok (), fields)
      | (.err e, fields) => (.err e, fields)
      | (.panic, fields) => (.panic, fields)

/-- Reads body data of a stream into a buffer of `cap` bytes, and whether it ends there. -/
def recv_body (stream_id cap : Nat) : Method (H3Connection B) Error (Bytes × Bool) := do
  let h ← Method.get
  let rs ← Method.okOr (keyed.find RequestStreamState.stream_id stream_id h.request_streams) .InvalidState
  if rs.data_buf = [] then
    if rs.fin_received then pure ([], true) else Method.fail .WouldBlock
  else do
    let rest := rs.data_buf.drop cap
    Method.modify (update_stream stream_id fun rs => { rs with
      data_buf := rest, data_available := rest ≠ [] })
    pure (rs.data_buf.take cap, rest.isEmpty && rs.fin_received)

/-! ## Sending requests and responses -/

/-- Sends a HEADERS frame, if there is room for all of it. -/
def send_headers (stream_id : Nat) (headers : List (Bytes × Bytes)) (end_stream : Bool) :
    Method (H3Connection B) Error Unit := do
  let block ← Method.lift (qpack.encode_field_section headers 2048)
  let frame ← Method.lift (encode_simple_frame H3_FRAME_HEADERS block 2048)
  let h ← Method.get
  Method.require (¬ h.quic.stream_send_capacity stream_id < frame.length) (.BufferTooSmall frame.length)
  let _ ← on_quic (Connection.stream_send stream_id frame end_stream)

/-- Sends a DATA frame, as large as there is room for. Returns how much of the data it took. -/
def send_data (stream_id : Nat) (data : Bytes) (end_stream : Bool) : Method (H3Connection B) Error Nat := do
  let h ← Method.get
  if data = [] ∧ end_stream then do
    let _ ← on_quic (Connection.stream_send stream_id [] true)
    pure 0
  else
    let capacity := h.quic.stream_send_capacity stream_id
    if capacity ≤ 5 then pure 0
    else do
      let chunk := min data.length (capacity - 5)
      let header ← Method.lift (encode_data_frame_header chunk 5)
      let _ ← on_quic (Connection.stream_send stream_id header false)
      let _ ← on_quic (Connection.stream_send stream_id (data.take chunk)
        (end_stream && chunk == data.length))
      pure chunk

/-- `H3Client::send_request`: the id of the stream the request goes out on. -/
def send_request (method path authority : Bytes) (headers : List (Bytes × Bytes)) (end_stream : Bool) :
    Method (H3Connection B) Error Nat := do
  Method.require (¬ 4 + headers.length > 20) .TooManyHeaders
  let stream_id ← on_quic Connection.open_stream
  send_headers stream_id ([(ascii ":method", method), (ascii ":scheme", ascii "https"),
    (ascii ":authority", authority), (ascii ":path", path)] ++ headers) end_stream
  Method.modify (track stream_id)
  pure stream_id

/-- `H3Server::send_response`. -/
def send_response (stream_id status : Nat) (headers : List (Bytes × Bytes)) (end_stream : Bool) :
    Method (H3Connection B) Error Unit := do
  Method.require (¬ 1 + headers.length > 20) .TooManyHeaders
  send_headers stream_id ((ascii ":status", http1.Section.to_bytes status) :: headers) end_stream

end H3Connection

/-! ## Calls -/

/-- A call on a client or a server. -/
inductive H3Call where
  | recv (datagram : Bytes) (scratch_len : Nat) (now : Instant)
  | poll_transmit (buf_len : Nat) (now : Instant)
  | handle_timeout (now : Instant)
  | close (error_code : Nat) (reason : Bytes)
  | poll_event (scratch_len : Nat)
  | recv_headers (stream_id : Nat)
  | recv_body (stream_id cap : Nat)
  | send_request (method path authority : Bytes) (headers : List (Bytes × Bytes)) (end_stream : Bool)
  | send_response (stream_id status : Nat) (headers : List (Bytes × Bytes)) (end_stream : Bool)
  | send_body (stream_id : Nat) (data : Bytes) (end_stream : Bool)
  deriving DecidableEq, Repr

namespace H3Call

/-- The connection after a call, unless it panics. -/
def run (call : H3Call) (h : H3Connection B) : Option (H3Connection B) :=
  match call with
  | .recv datagram scratch_len now =>
    (h.quic.recv datagram scratch_len now).map fun r => { h with quic := r.2 }
  | .poll_transmit buf_len now => some { h with quic := (h.quic.poll_transmit buf_len now).2 }
  | .handle_timeout now => some { h with quic := h.quic.handle_timeout now }
  | .close error_code reason => some { h with quic := h.quic.close error_code reason }
  | .poll_event scratch_len => some (h.poll_event scratch_len).2
  | .recv_headers stream_id =>
    if (h.recv_headers stream_id).1 = .panic then none else some h
  | .recv_body stream_id cap => some (H3Connection.recv_body stream_id cap h).2
  | .send_request method path authority headers end_stream =>
    some (H3Connection.send_request method path authority headers end_stream h).2
  | .send_response stream_id status headers end_stream =>
    some (H3Connection.send_response stream_id status headers end_stream h).2
  | .send_body stream_id data end_stream =>
    some (H3Connection.send_data stream_id data end_stream h).2

end H3Call

/-- The connection after a sequence of calls, unless one panics. -/
def H3Connection.calls : H3Connection B → List H3Call → Option (H3Connection B)
  | h, [] => some h
  | h, call :: rest => (call.run h).bind (H3Connection.calls · rest)

end milli_http.h3
