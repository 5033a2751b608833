-- The calls of an application on an HTTP/2 connection, and the frames a connection writes of
-- its own (h2/connection.rs).
import MilliHttp.H2.State

open bytes method

namespace milli_http.h2

open hpack

variable {L : Limits}

def CONNECTION_PREFACE : Bytes := ascii "PRI * HTTP/2.0\r\n\r\nSM\r\n\r\n"

namespace H2Connection

/-! ## Frames of its own -/

/-- Whether a frame was queued, and the buffers after it. -/
def try_queue (BUF : Nat) (frame : H2Frame) (io : H2Io) : Bool × H2Io :=
  match H2Io.queue_frame BUF 16 frame io with
  | (.ok _, io) => (true, io)
  | (.error _, io) => (false, io)

/-- Sends the WINDOW_UPDATE a stream still owes, if it fits. -/
def flush_credit (BUF : Nat) (s : H2Stream) (io : H2Io) : H2Stream × H2Io :=
  if s.pending_recv_credit > 0 then
    match try_queue BUF (.WindowUpdate s.id s.pending_recv_credit) io with
    | (true, io) =>
      ({ s with
         recv_window := min (s.recv_window + s.pending_recv_credit) 0x7fffffff
         pending_recv_credit := 0 }, io)
    | (false, io) => (s, io)
  else (s, io)

/-- Sends the RST_STREAM a stream still owes, if it fits. -/
def flush_rst (BUF : Nat) (s : H2Stream) (io : H2Io) : H2Stream × H2Io :=
  match s.pending_rst with
  | none => (s, io)
  | some error_code =>
    match try_queue BUF (.RstStream s.id error_code) io with
    | (true, io) => ({ s with pending_rst := none }, io)
    | (false, io) => (s, io)

/-- The streams one by one. -/
def flush_streams (BUF : Nat) : List H2Stream → H2Io → List H2Stream × H2Io
  | [], io => ([], io)
  | s :: rest, io =>
    let (s, io) := flush_credit BUF s io
    let (s, io) := flush_rst BUF s io
    let (rest, io) := flush_streams BUF rest io
    (s :: rest, io)

/-- Sends the WINDOW_UPDATE the connection still owes, if it fits. -/
def flush_conn_credit (c : H2Connection L) : H2Connection L :=
  if c.pending_conn_credit > 0 then
    match try_queue L.BUF (.WindowUpdate 0 c.pending_conn_credit) c.io with
    | (true, io) =>
      { c with
        io
        conn_recv_fc := (FlowController.replenish c.pending_conn_credit c.conn_recv_fc).2
        pending_conn_credit := 0 }
    | (false, io) => { c with io }
  else c

/-- Emits deferred WINDOW_UPDATE and RST_STREAM frames that fit into the send buffer. -/
def flush_window_updates (c : H2Connection L) : H2Connection L :=
  let c := c.flush_conn_credit
  let (streams, io) := flush_streams L.BUF c.streams c.io
  { c with streams, io }

/-- Records receive-window credit of a stream, or of the connection, and tries to send it. -/
def send_window_update (stream_id increment : Nat) (c : H2Connection L) : H2Connection L :=
  if increment = 0 then c
  else
    let c :=
      if stream_id = 0 then
        { c with pending_conn_credit := saturating_add c.pending_conn_credit increment }
      else
        c.modify_stream stream_id (·.owe_credit increment)
    c.flush_window_updates

/-- Our SETTINGS. -/
def send_initial_settings : Method (H2Connection L) Error Unit := do
  let c ← Method.get
  queue_frame 128 (.Settings false c.local_settings.encode_params)
  Method.modify fun c => { c with settings_sent := true }

/-- The bytes of the preface, which are no frame. -/
def queue_preface (c : H2Connection L) : H2Connection L :=
  if c.io.send_buf.length + CONNECTION_PREFACE.length > L.BUF then c
  else { c with io := { c.io with send_buf := c.io.send_buf ++ CONNECTION_PREFACE } }

/-- Generates what the connection has to send of its own. -/
def generate_output (c : H2Connection L) : H2Connection L :=
  let c :=
    if c.preface_sent then c
    else
      let c := if c.role = .Client then c.queue_preface else c
      { (send_initial_settings c).2 with preface_sent := true }
  c.flush_window_updates

/-! ## Sending -/

/-- Pulls outgoing bytes into a buffer of `len` bytes. -/
def poll_output (len : Nat) (c : H2Connection L) : Option Bytes × H2Connection L :=
  let c := c.generate_output
  if c.send_offset ≥ c.io.send_buf.length then (none, c)
  else
    let n := min (c.io.send_buf.length - c.send_offset) len
    let out := (c.io.send_buf.drop c.send_offset).take n
    if c.send_offset + n ≥ c.io.send_buf.length then
      (some out, { c with send_offset := 0, io := { c.io with send_buf := [] } })
    else (some out, { c with send_offset := c.send_offset + n })

def poll_event (c : H2Connection L) : Option H2Event × H2Connection L :=
  (c.events.head?, { c with events := c.events.tail })

/-- Stack scratch for a header block. -/
def HEADERS_SCRATCH : Nat := 1024

/-- Appends bytes that are not a frame yet. -/
def append (bytes : Bytes) (c : H2Connection L) : H2Connection L :=
  { c with io := { c.io with send_buf := c.io.send_buf ++ bytes } }

/-- The header block, encoded in the scratch or in what is left of the send buffer. A block that
outgrows both leaves there what was written of it, behind nine zeros and filled up with zeros. -/
def encode_block (headers : List Header) : Method (H2Connection L) Error Bytes := fun c =>
  let hdr_start := c.io.send_buf.length
  match encode headers HEADERS_SCRATCH with
  | .ok block =>
    if hdr_start + 9 + block.length > L.BUF then
      (.error (.BufferTooSmall (hdr_start + 9 + block.length)), c)
    else (.ok block, c)
  | .error (.BufferTooSmall _) =>
    match encode headers (L.BUF - (hdr_start + 9)) with
    | .ok block => (.ok block, c)
    | .error e =>
      let written := fields_written headers (L.BUF - (hdr_start + 9))
      let fill := L.BUF - (hdr_start + 9) - written.length
      (.error e, c.append (List.replicate 9 0 ++ written ++ List.replicate fill 0))
  | .error e => (.error e, c)

/-- Puts a frame into the send buffer whose nine header bytes were reserved; a header that cannot
be encoded leaves them zero. -/
def append_frame (frame : H2Frame) : Method (H2Connection L) Error Unit := fun c =>
  let (hdr, payload) := frame.parts
  match encode_frame_header hdr with
  | .error e => (.error e, c.append (List.replicate 9 0 ++ payload))
  | .ok header =>
    (.ok (), { c with io := { c.io with
      send_buf := c.io.send_buf ++ header ++ payload, queued := c.io.queued ++ [frame] } })

/-- Sends headers on a new or existing stream. -/
def send_headers (stream_id : Nat) (headers : List Header) (end_stream : Bool) :
    Method (H2Connection L) Error Unit := do
  let c ← Method.get
  Method.modify fun c => (c.ensure_stream stream_id).2
  Method.require ((c.ensure_stream stream_id).1 = true) .InvalidState
  let c ← Method.get
  Method.require (c.io.send_buf.length + 9 ≤ L.BUF) (.BufferTooSmall (c.io.send_buf.length + 9))
  let block ← encode_block headers
  append_frame (.Headers stream_id block end_stream)
  Method.modify (modify_stream stream_id (·.headers_sent end_stream))
  Method.modify fun c => { c with sent_since_tick := true }

/-- Opens a new stream and sends headers on it. Returns its identifier. -/
def open_stream (headers : List Header) (end_stream : Bool) : Method (H2Connection L) Error Nat := do
  let c ← Method.get
  Method.require (c.next_stream_id ≤ 0x7fffffff) .StreamLimitExhausted
  Method.modify fun c => { c with next_stream_id := c.next_stream_id + 2 }
  send_headers c.next_stream_id headers end_stream
  pure c.next_stream_id

/-- How much of `len` bytes may be sent on a stream now. -/
def sendable (c : H2Connection L) (stream_id len : Nat) : Nat :=
  let max_by_conn := c.conn_send_fc.window.toNat
  let max_by_stream := ((c.get_stream stream_id).map (·.send_window.toNat)).getD 0
  min (min (min len max_by_conn) max_by_stream) c.peer_settings.max_frame_size

/-- A DATA frame takes its bytes out of both windows. An unknown stream has none. -/
def charge (stream_id len : Nat) : Method (H2Connection L) Error Unit := do
  if len = 0 then pure ()
  else do
    Method.on H2Connection.conn_send_fc (fun conn_send_fc c => { c with conn_send_fc })
      (FlowController.consume len)
    Method.modify (modify_stream stream_id (·.shift_window (-len)))

/-- Puts a DATA frame into the send buffer. The header comes first: when it cannot be encoded,
the data does not follow. -/
def append_data (stream_id : Nat) (payload : Bytes) (end_stream : Bool) :
    Method (H2Connection L) Error Unit := fun c =>
  match encode_frame_header (H2Frame.Data stream_id payload end_stream).parts.1 with
  | .error e => (.error e, c.append (List.replicate 9 0))
  | .ok _ => append_frame (.Data stream_id payload end_stream) c

/-- Sends data on a stream, as much as the windows and one frame allow. Returns how much. -/
def send_data (stream_id : Nat) (data : Bytes) (end_stream : Bool) :
    Method (H2Connection L) Error Nat := do
  let c ← Method.get
  Method.require (((c.get_stream stream_id).all (·.can_send)) = true) .InvalidState
  let can_send := c.sendable stream_id data.length
  Method.require (¬ (can_send = 0 ∧ data ≠ [])) .WouldBlock
  let to_send := data.take can_send
  let actual_end := end_stream && to_send.length == data.length
  Method.require (c.io.send_buf.length + (9 + to_send.length) ≤ L.BUF)
    (.BufferTooSmall (c.io.send_buf.length + (9 + to_send.length)))
  append_data stream_id to_send actual_end
  charge stream_id to_send.length
  Method.modify fun c => if actual_end then c.modify_stream stream_id (·.send_end_stream) else c
  Method.modify fun c => { c with sent_since_tick := true }
  pure to_send.length

/-- Sends a GOAWAY. -/
def send_goaway (error_code : Nat) : Method (H2Connection L) Error Unit := do
  let c ← Method.get
  queue_frame 32 (.GoAway c.last_peer_stream_id error_code)
  Method.modify fun c => { c with goaway_sent := true, state := .Closing }

/-! ## Reading -/

/-- Reads the headers of a stream: how the call ends, and the fields it emitted until then. -/
def recv_headers (stream_id : Nat) (c : H2Connection L) :
    Except Error Unit × List Header × H2Connection L :=
  match c.get_stream stream_id with
  | none => (.error .InvalidState, [], c)
  | some stream =>
    if stream.headers_received = false then (.error .WouldBlock, [], c)
    else
      match c.decoder.decode stream.headers_data with
      | (.error e, emitted, decoder) => (.error e, emitted, { c with decoder })
      | (.ok _, emitted, decoder) =>
        (.ok (), emitted, modify_stream stream_id H2Stream.block_read { c with decoder })

/-- Reads body data of a stream into a buffer of `len` bytes. Returns it, and whether it is the
end. -/
def recv_body (stream_id len : Nat) : Method (H2Connection L) Error (Bytes × Bool) := do
  let c ← Method.get
  let stream ← Method.okOr (c.get_stream stream_id) .InvalidState
  if stream.data_buf = [] then do
    Method.require (stream.fin_received = true) .WouldBlock
    Method.modify (modify_stream stream_id (·.body_read []))
    pure ([], true)
  else do
    let copy_len := min stream.data_buf.length len
    let rest := stream.data_buf.drop copy_len
    Method.modify (modify_stream stream_id (·.body_read rest))
    Method.modify (send_window_update 0 copy_len)
    Method.modify (send_window_update stream_id copy_len)
    pure (stream.data_buf.take copy_len, rest = [] && stream.fin_received)

/-- A DATA frame in progress on the stream is drained from now on. -/
def abandon_partial_data (stream_id : Nat) (c : H2Connection L) : H2Connection L :=
  { c with partial_data := c.partial_data.map fun pd =>
      if pd.stream_id = stream_id then { pd with deliver := false } else pd }

/-- Stops receiving the body of a stream. -/
def discard_body (stream_id error_code : Nat) : Method (H2Connection L) Error Unit := do
  let c ← Method.get
  let stream ← Method.okOr (c.get_stream stream_id) .InvalidState
  Method.modify (abandon_partial_data stream_id)
  Method.modify (modify_stream stream_id (·.abandon error_code))
  Method.modify (send_window_update 0 stream.data_buf.length)
  if stream.fin_received then pure () else Method.modify flush_window_updates

/-! ## Timeouts -/

/-- `saturating_add` of `u64`. -/
def deadline (start us : Nat) : Nat := min (start + us) (2 ^ 64 - 1)

/-- A timeout fires: GOAWAY, and the connection is closed. -/
def time_out (c : H2Connection L) : H2Connection L :=
  push_event .Timeout { (send_goaway 0 c).2 with state := .Closed }

/-- Checks the timeouts. What was sent since the last check counts as activity now. -/
def handle_timeout (now : Nat) (c : H2Connection L) : H2Connection L :=
  if c.state = .Closed then c
  else
    let c := { c with
      last_activity := if c.sent_since_tick then now else c.last_activity
      sent_since_tick := false }
    if c.headers_phase_complete = false ∧
        c.timeout_config.header_timeout_us.any (now ≥ deadline c.connection_start ·) then c.time_out
    else if c.timeout_config.idle_timeout_us.any (now ≥ deadline c.last_activity ·) then c.time_out
    else c

def set_timeouts (timeout_config : TimeoutConfig) (now : Nat) (c : H2Connection L) :
    H2Connection L :=
  { c with timeout_config, last_activity := now, connection_start := now }

def note_recv_activity (now : Nat) (c : H2Connection L) : H2Connection L :=
  { c with last_activity := now }

end H2Connection

end milli_http.h2
