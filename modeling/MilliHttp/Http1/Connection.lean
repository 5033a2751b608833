-- The HTTP/1.1 connection (http1/connection.rs, http1/io.rs): the parser of incoming messages
-- with its five states, the buffers between it and the application, and the calls of the
-- application. The buffers the caller lends to every call are part of the state; allocation
-- does not fail, and beside the event queue the model counts the events it had no room for.
import MilliHttp.Http1.Parse
import MilliHttp.Lib.Loop

open bytes method

namespace milli_http.http1

open parse

/-- The const generics of a connection and of its buffers. -/
structure Limits where
  HDRBUF : Nat
  DATABUF : Nat
  BUF : Nat
  deriving DecidableEq, Repr

inductive Http1Event where
  | Connected
  | Headers (stream_id : Nat)
  | Data (stream_id : Nat)
  | Finished (stream_id : Nat)
  | Timeout
  deriving DecidableEq, Repr

inductive Role where
  | Client
  | Server
  deriving DecidableEq, Repr

inductive ParseState where
  | Idle
  | BodyContentLength (remaining : Nat)
  | BodyChunked
  | BodyUntilClose
  | Done
  deriving DecidableEq, Repr

inductive ChunkState where
  | Size
  | Data (remaining : Nat)
  | DataTrailer
  | Trailers
  deriving DecidableEq, Repr

structure TimeoutConfig where
  idle_timeout_us : Option Nat
  header_timeout_us : Option Nat
  deriving DecidableEq, Repr

/-- How many events the queue holds. -/
def EVENTS : Nat := 32

structure Http1Connection (L : Limits) where
  role : Role
  state : ParseState
  send_offset : Nat
  header_buf : Bytes
  headers_available : Bool
  data_buf : Bytes
  events : List Http1Event
  lost : Nat
  current_stream_id : Nat
  chunk_state : ChunkState
  keep_alive : Bool
  body_finished : Bool
  body_parked : Bool
  connected_emitted : Bool
  timeout_config : TimeoutConfig
  last_activity : Nat
  sent_since_tick : Bool
  connection_start : Nat
  headers_phase_complete : Bool
  closed : Bool
  recv_buf : Bytes
  send_buf : Bytes
  deriving DecidableEq, Repr

variable {L : Limits}

namespace Http1Connection

def new (role : Role) : Http1Connection L where
  role := role
  state := .Idle
  send_offset := 0
  header_buf := []
  headers_available := false
  data_buf := []
  events := []
  lost := 0
  current_stream_id := 0
  chunk_state := .Size
  keep_alive := true
  body_finished := false
  body_parked := false
  connected_emitted := false
  timeout_config := { idle_timeout_us := none, header_timeout_us := none }
  last_activity := 0
  sent_since_tick := false
  connection_start := 0
  headers_phase_complete := false
  closed := false
  recv_buf := []
  send_buf := []

def new_client : Http1Connection L := new .Client

def new_server : Http1Connection L := new .Server

/-- `let _ = self.events.push_back(e)`: a full queue loses the event. -/
def push_event (e : Http1Event) (c : Http1Connection L) : Http1Connection L :=
  { c with
    events := if c.events.length < EVENTS then c.events ++ [e] else c.events
    lost := if c.events.length < EVENTS then c.lost else c.lost + 1 }

/-- Takes `n` bytes off the front of the receive buffer. -/
def drain_recv (n : Nat) (c : Http1Connection L) : Http1Connection L :=
  { c with recv_buf := c.recv_buf.drop n }

/-! ## Header sections -/

end Http1Connection

/-- How the end of a message body is found. -/
inductive Framing where
  | NoBody
  | Length (len : Nat)
  | Chunked
  | UntilClose
  deriving DecidableEq, Repr

/-- What is known of a message while its header section is read. -/
structure Section where
  header_buf : Bytes := []
  content_length : Option Nat := none
  chunked : Bool := false
  connection_close : Bool := false
  deriving DecidableEq, Repr

namespace Section

/-- Stores a pair as `name\0value\0`. -/
def store_header_kv (HDRBUF : Nat) (name value : Bytes) : Method Section Error Unit := do
  let needed := name.length + 1 + value.length + 1
  let s ← .get
  .require (s.header_buf.length + needed ≤ HDRBUF) (.BufferTooSmall needed)
  .modify fun s => { s with header_buf := s.header_buf ++ name ++ [0] ++ value ++ [0] }

/-- Stores a request line. -/
def store_header (HDRBUF : Nat) (method path : Bytes) : Method Section Error Unit := do
  store_header_kv HDRBUF (ascii ":method") method
  store_header_kv HDRBUF (ascii ":path") path

/-- What a field line says about the framing of the body. -/
def note (name value : Bytes) (s : Section) : Section :=
  if eq_ignore_case name (ascii "content-length") then
    { s with content_length := parse_usize_ascii value }
  else if eq_ignore_case name (ascii "transfer-encoding") then
    if contains_ignore_case value (ascii "chunked") then { s with chunked := true } else s
  else if eq_ignore_case name (ascii "connection") && contains_ignore_case value (ascii "close") then
    { s with connection_close := true }
  else s

/-- The loop over the field lines, up to the empty line. -/
def read_fields (HDRBUF : Nat) : Nat → Bytes → Method Section Error Unit
  | 0, _ => pure ()
  | fuel + 1, buf => do
    let (name, value, consumed) ← .lift (parse_header_line buf)
    if name = [] then pure ()
    else do
      .require (0 ∉ name ∧ 0 ∉ value) .InvalidState
      .modify (note name value)
      store_header_kv HDRBUF name value
      read_fields HDRBUF fuel (buf.drop consumed)

/-- Three ASCII digits. -/
def to_bytes (status : Nat) : Bytes :=
  [status / 100, status / 10 % 10, status % 10].map fun d => 48 + UInt8.ofNat d

/-- The start line. Returns how many bytes it takes. -/
def read_start_line (HDRBUF : Nat) (role : Role) (buf : Bytes) : Method Section Error Nat :=
  match role with
  | .Server => do
    let (method, path, consumed) ← .lift (parse_request_line buf)
    store_header HDRBUF method path
    pure consumed
  | .Client => do
    let (status, _, consumed) ← .lift (parse_status_line buf)
    store_header_kv HDRBUF (ascii ":status") (to_bytes status)
    pure consumed

/-- A whole header section: its start line, its field lines, and no message that is both chunked
and of a given length. -/
def read (HDRBUF : Nat) (role : Role) (buf : Bytes) : Method Section Error Unit := do
  let consumed ← read_start_line HDRBUF role buf
  read_fields HDRBUF buf.length (buf.drop consumed)
  let s ← .get
  .require (¬ (s.chunked ∧ s.content_length.isSome)) .InvalidState

/-- The framing a section that was read gives the body. -/
def framing (role : Role) (s : Section) : Framing :=
  if s.chunked then .Chunked
  else
    match s.content_length with
    | some len => .Length len
    | none =>
      match role with
      | .Server => .NoBody
      | .Client => .UntilClose

end Section

namespace Http1Connection

/-- The body a header section announces is next. -/
def begin_body (framing : Framing) (c : Http1Connection L) : Http1Connection L :=
  match framing with
  | .Chunked => { c with state := .BodyChunked, chunk_state := .Size }
  | .Length 0 => { c with state := .Done, body_finished := true }
  | .Length len => { c with state := .BodyContentLength len }
  | .NoBody => { c with state := .Done, body_finished := true }
  | .UntilClose => { c with state := .BodyUntilClose }

/-- A request gets the next stream id. -/
def number_message (c : Http1Connection L) : Http1Connection L :=
  match c.role with
  | .Server => { c with current_stream_id := c.current_stream_id + 1 }
  | .Client => c

/-- Tells the application of a message, and of its end if it has no body. -/
def announce (c : Http1Connection L) : Http1Connection L :=
  let c := push_event (.Headers c.current_stream_id) c
  if c.body_finished then push_event (.Finished c.current_stream_id) c else c

/-- A header section of `stop` bytes has been read. -/
def open_message (s : Section) (stop : Nat) (c : Http1Connection L) : Http1Connection L :=
  announce <| number_message <| begin_body (s.framing c.role)
    { drain_recv stop c with
      header_buf := s.header_buf
      headers_available := true
      keep_alive := !s.connection_close
      headers_phase_complete := true }

/-- Reads a start line and its header section once they are there as a whole. -/
def try_parse_start_line : Method (Http1Connection L) Error Bool := fun c =>
  match find_end_of_headers c.recv_buf with
  | none => (.ok false, c)
  | some stop =>
    match Section.read L.HDRBUF c.role (c.recv_buf.take stop) {} with
    | (.error e, s) => (.error e, { c with header_buf := s.header_buf, headers_available := false })
    | (.ok _, s) => (.ok true, open_message s stop c)

/-! ## Bodies -/

/-- Moves `n` received bytes into the body buffer. -/
def store_body (n : Nat) (c : Http1Connection L) : Http1Connection L :=
  let c := drain_recv n { c with data_buf := c.data_buf ++ c.recv_buf.take n }
  push_event (.Data c.current_stream_id) c

/-- How many of the received bytes belong to a body of which `remaining` bytes are missing. -/
def to_consume (c : Http1Connection L) (remaining : Nat) : Nat := min c.recv_buf.length remaining

/-- How many of them the body buffer has room for. -/
def can_store (c : Http1Connection L) (remaining : Nat) : Nat :=
  min (L.DATABUF - c.data_buf.length) (c.to_consume remaining)

/-- Body bytes are moved over as far as there is room; `rest` and `finish` say how the parser goes
on, with more to come or with the last byte stored. -/
def process_body (remaining : Nat) (rest : Nat → Http1Connection L → Http1Connection L)
    (finish : Http1Connection L → Http1Connection L) : Method (Http1Connection L) Error Bool :=
  fun c =>
    if c.recv_buf = [] then (.ok false, c)
    else if 0 < c.can_store remaining then
      let n := c.can_store remaining
      let c := { store_body n c with body_parked := n < c.to_consume remaining }
      (.ok true, if remaining - n = 0 then finish c else rest (remaining - n) c)
    else (.ok false, { c with body_parked := true })

/-- The last byte of the body is stored. -/
def finish_message (c : Http1Connection L) : Http1Connection L :=
  push_event (.Finished c.current_stream_id) { c with body_finished := true, state := .Done }

def process_content_length_body (remaining : Nat) : Method (Http1Connection L) Error Bool :=
  process_body remaining (fun n c => { c with state := .BodyContentLength n }) finish_message

def process_chunked_body : Method (Http1Connection L) Error Bool := fun c =>
  match c.chunk_state with
  | .Size =>
    match parse_chunk_size c.recv_buf with
    | .ok (size, consumed) =>
      (.ok true,
        if size = 0 then { drain_recv consumed c with chunk_state := .Trailers }
        else { drain_recv consumed c with chunk_state := .Data size })
    | .error .WouldBlock => (.ok false, c)
    | .error e => (.error e, c)
  | .Data remaining =>
    process_body remaining (fun n c => { c with chunk_state := .Data n })
      (fun c => { c with chunk_state := .DataTrailer }) c
  | .DataTrailer =>
    if c.recv_buf.length < 2 then (.ok false, c)
    else if CRLF <+: c.recv_buf then (.ok true, { drain_recv 2 c with chunk_state := .Size })
    else (.error .InvalidState, c)
  | .Trailers =>
    if c.recv_buf.length < 2 then (.ok false, c)
    else if CRLF <+: c.recv_buf then (.ok true, finish_message (drain_recv 2 c))
    else
      match parse_header_line c.recv_buf with
      | .ok (_, _, consumed) => (.ok true, drain_recv consumed c)
      | .error e => (.error e, c)

def process_until_close_body : Method (Http1Connection L) Error Unit := .modify fun c =>
  if c.recv_buf = [] then c
  else
    let n := min c.recv_buf.length (L.DATABUF - c.data_buf.length)
    let c := if 0 < n then store_body n c else c
    { c with body_parked := !c.recv_buf.isEmpty }

/-! ## The receive loop -/

/-- The application has read the headers and the body of the last message. -/
def Consumed (c : Http1Connection L) : Prop := c.headers_available = false ∧ c.data_buf = []

instance (c : Http1Connection L) : Decidable c.Consumed := inferInstanceAs (Decidable (_ ∧ _))

/-- The parser gets ready for the next message. -/
def next_message (c : Http1Connection L) : Http1Connection L :=
  { c with
    body_finished := false
    chunk_state := .Size
    headers_phase_complete := false
    connection_start := c.last_activity
    state := .Idle }

/-- One turn of the receive loop. -/
def turn : Method (Http1Connection L) Error Bool := fun c =>
  match c.state with
  | .Idle => try_parse_start_line c
  | .BodyContentLength remaining => process_content_length_body remaining c
  | .BodyChunked => process_chunked_body c
  | .BodyUntilClose => (.ok false, (process_until_close_body c).2)
  | .Done => if c.Consumed then (.ok true, next_message c) else (.ok false, c)

/-- How often the loop goes round at most: every turn takes bytes, but for the one that leaves a
message behind. -/
def budget (c : Http1Connection L) : Nat :=
  2 * c.recv_buf.length + if c.state = .Done then 1 else 0

def process_recv : Method (Http1Connection L) Error Unit := .loop budget turn

/-- Received bytes join the buffer. -/
def take_in (data : Bytes) (c : Http1Connection L) : Http1Connection L :=
  { c with recv_buf := c.recv_buf ++ data }

/-- Takes received bytes in and reads on. -/
def feed_data (data : Bytes) : Method (Http1Connection L) Error Unit := do
  let c ← .get
  .require (c.recv_buf.length + data.length ≤ L.BUF)
    (.BufferTooSmall (c.recv_buf.length + data.length))
  .modify (take_in data)
  process_recv

/-- Takes received bytes in at a time. Only bytes count as activity. -/
def feed_data_timed (data : Bytes) (now : Nat) : Method (Http1Connection L) Error Unit := do
  .modify fun c => if data = [] then c else { c with last_activity := now }
  feed_data data

/-! ## Events and reads -/

def poll_event : Method (Http1Connection L) Error (Option Http1Event) := fun c =>
  if c.connected_emitted = false then (.ok (some .Connected), { c with connected_emitted := true })
  else (.ok c.events.head?, { c with events := c.events.tail })

def check_stream_id (stream_id : Nat) : Method (Http1Connection L) Error Unit := do
  let c ← .get
  .require (stream_id = c.current_stream_id) .InvalidState

/-- What stands before the first zero byte, and what after it. -/
def until_zero (buf : Bytes) : Bytes × Bytes :=
  (buf.takeWhile (· ≠ 0), (buf.dropWhile (· ≠ 0)).drop 1)

/-- The pairs stored as `name\0value\0`, in order. -/
def stored_headers : Nat → Bytes → List (Bytes × Bytes)
  | 0, _ => []
  | fuel + 1, buf =>
    if buf = [] ∨ 0 ∉ buf then []
    else
      let (name, rest) := until_zero buf
      let (value, rest) := until_zero rest
      (name, value) :: stored_headers fuel rest

/-- Hands the stored headers to the application. -/
def recv_headers (stream_id : Nat) : Method (Http1Connection L) Error (List (Bytes × Bytes)) := do
  check_stream_id stream_id
  let c ← .get
  .require (c.headers_available = true) .WouldBlock
  .modify fun c => { c with header_buf := [], headers_available := false }
  pure (stored_headers c.header_buf.length c.header_buf)

/-- Hands body bytes to the application, into a buffer of `room` bytes. Returns the bytes, and
whether they are the last ones. -/
def recv_body (stream_id room : Nat) : Method (Http1Connection L) Error (Bytes × Bool) := do
  check_stream_id stream_id
  let c ← .get
  if c.data_buf = [] then
    if c.body_finished then pure ([], true) else .fail .WouldBlock
  else do
    .modify fun c => { c with data_buf := c.data_buf.drop room }
    let c' ← .get
    pure (c.data_buf.take room, c'.data_buf.isEmpty && c'.body_finished)

/-! ## Sends -/

def queue_send (data : Bytes) : Method (Http1Connection L) Error Unit := do
  let c ← .get
  .require (c.send_buf.length + data.length ≤ L.BUF) (.BufferTooSmall (c.send_buf.length + data.length))
  .modify fun c => { c with send_buf := c.send_buf ++ data }

/-- Queues one part after the other. -/
def queue_all : List Bytes → Method (Http1Connection L) Error Unit
  | [] => pure ()
  | part :: parts => do
    queue_send part
    queue_all parts

/-- The last value a list of pairs has under a name, or the default. -/
def last_value (name default : Bytes) (headers : List (Bytes × Bytes)) : Bytes :=
  headers.foldl (fun v (n, value) => if n = name then value else v) default

/-- The field lines, without the pseudo-headers, and the empty line. -/
def field_lines (headers : List (Bytes × Bytes)) : List Bytes :=
  ((headers.filter fun (name, _) => ¬ [COLON] <+: name).flatMap fun (name, value) =>
    [name, ascii ": ", value, CRLF]) ++ [CRLF]

def encode_request (headers : List (Bytes × Bytes)) : Method (Http1Connection L) Error Unit :=
  let method := last_value (ascii ":method") (ascii "GET") headers
  let path := last_value (ascii ":path") (ascii "/") headers
  let host := last_value (ascii ":authority") [] headers
  queue_all ([method, ascii " ", path, ascii " HTTP/1.1" ++ CRLF] ++
    (if host = [] then [] else [ascii "Host: ", host, CRLF]) ++ field_lines headers)

/-- The reason phrases of the statuses that have one. -/
def reasons : List (Bytes × Bytes) :=
  [(ascii "100", ascii "Continue"), (ascii "101", ascii "Switching Protocols"),
   (ascii "200", ascii "OK"), (ascii "201", ascii "Created"), (ascii "204", ascii "No Content"),
   (ascii "301", ascii "Moved Permanently"), (ascii "302", ascii "Found"),
   (ascii "304", ascii "Not Modified"), (ascii "307", ascii "Temporary Redirect"),
   (ascii "308", ascii "Permanent Redirect"), (ascii "400", ascii "Bad Request"),
   (ascii "401", ascii "Unauthorized"), (ascii "403", ascii "Forbidden"),
   (ascii "404", ascii "Not Found"), (ascii "405", ascii "Method Not Allowed"),
   (ascii "408", ascii "Request Timeout"), (ascii "413", ascii "Payload Too Large"),
   (ascii "429", ascii "Too Many Requests"), (ascii "500", ascii "Internal Server Error"),
   (ascii "502", ascii "Bad Gateway"), (ascii "503", ascii "Service Unavailable")]

def status_reason (status : Bytes) : Bytes := (reasons.lookup status).getD []

def encode_response (headers : List (Bytes × Bytes)) : Method (Http1Connection L) Error Unit :=
  let status := last_value (ascii ":status") (ascii "200") headers
  queue_all ([ascii "HTTP/1.1 ", status, ascii " ", status_reason status, CRLF] ++
    field_lines headers)

/-- Sends a request line or a status line with its header fields. -/
def send_headers (stream_id : Nat) (headers : List (Bytes × Bytes)) :
    Method (Http1Connection L) Error Unit := do
  check_stream_id stream_id
  let c ← .get
  match c.role with
  | .Client => encode_request headers
  | .Server => encode_response headers
  .modify fun c => { c with sent_since_tick := true }

def send_data (stream_id : Nat) (data : Bytes) : Method (Http1Connection L) Error Nat := do
  check_stream_id stream_id
  queue_send data
  .modify fun c => if data = [] then c else { c with sent_since_tick := true }
  pure data.length

def open_stream (headers : List (Bytes × Bytes)) : Method (Http1Connection L) Error Nat := do
  .modify fun c => { c with current_stream_id := c.current_stream_id + 1 }
  let c ← .get
  send_headers c.current_stream_id headers
  pure c.current_stream_id

/-- The next bytes to put on the wire, at most `room` of them. -/
def poll_output (room : Nat) : Method (Http1Connection L) Error (Option Bytes) := fun c =>
  if c.send_buf.length ≤ c.send_offset then (.ok none, c)
  else
    let n := min (c.send_buf.length - c.send_offset) room
    (.ok (some ((c.send_buf.drop c.send_offset).take n)),
      if c.send_buf.length ≤ c.send_offset + n then { c with send_buf := [], send_offset := 0 }
      else { c with send_offset := c.send_offset + n })

/-! ## Timeouts -/

def set_timeouts (config : TimeoutConfig) (now : Nat) (c : Http1Connection L) : Http1Connection L :=
  { c with timeout_config := config, last_activity := now, connection_start := now }

def note_recv_activity (now : Nat) (c : Http1Connection L) : Http1Connection L :=
  { c with last_activity := now }

/-- `saturating_add` of `u64`. -/
def saturating_add (a b : Nat) : Nat := min (a + b) (2 ^ 64 - 1)

/-- The earlier of the deadlines that are set. -/
def next_timeout (c : Http1Connection L) : Option Nat :=
  if c.closed then none
  else
    let header := if c.headers_phase_complete then none
      else c.timeout_config.header_timeout_us.map (saturating_add c.connection_start)
    let idle := c.timeout_config.idle_timeout_us.map (saturating_add c.last_activity)
    header.merge min idle

/-- The time has come that a timeout started at `start` allows. -/
def Expired (start now : Nat) (timeout : Option Nat) : Prop :=
  ∃ us ∈ timeout, saturating_add start us ≤ now

instance (start now : Nat) (timeout : Option Nat) : Decidable (Expired start now timeout) :=
  inferInstanceAs (Decidable (∃ us ∈ timeout, _))

def handle_timeout (now : Nat) (c : Http1Connection L) : Http1Connection L :=
  if c.closed then c
  else
    let c :=
      if c.sent_since_tick then { c with sent_since_tick := false, last_activity := now } else c
    if ¬ c.headers_phase_complete ∧
        Expired c.connection_start now c.timeout_config.header_timeout_us then
      push_event .Timeout { c with closed := true }
    else if Expired c.last_activity now c.timeout_config.idle_timeout_us then
      push_event .Timeout { c with closed := true }
    else c

end Http1Connection

end milli_http.http1
