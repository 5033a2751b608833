-- The state of an HTTP/2 connection (h2/connection.rs, h2/stream.rs, h2/flow_control.rs,
-- h2/io.rs), of a build with the alloc feature. The buffers the caller lends to every call are
-- part of it; beside the bytes of the send buffer the model keeps the frames ever queued.
import MilliHttp.H2.Frame
import MilliHttp.Hpack.Codec
import MilliHttp.Lib.Keyed

open bytes method

namespace milli_http.h2

open hpack

/-- The const generics of a connection and of its buffers. -/
structure Limits where
  MAX_STREAMS : Nat
  HDRBUF : Nat
  DATABUF : Nat
  BUF : Nat
  deriving DecidableEq, Repr

/-- `as i32` of an unsigned number. -/
def as_i32 (n : Nat) : Int :=
  if n % 2 ^ 32 < 2 ^ 31 then (n % 2 ^ 32 : Nat) else (n % 2 ^ 32 : Nat) - 2 ^ 32

/-- The numbers an `i32` holds. -/
def InI32 (n : Int) : Prop := -2 ^ 31 ≤ n ∧ n < 2 ^ 31

instance (n : Int) : Decidable (InI32 n) := inferInstanceAs (Decidable (_ ∧ _))

/-- `saturating_add` of `u32`. -/
def saturating_add (a b : Nat) : Nat := min (a + b) (2 ^ 32 - 1)

/-! ## Flow control -/

def DEFAULT_INITIAL_WINDOW_SIZE : Nat := 65535

def DEFAULT_CONNECTION_WINDOW_SIZE : Nat := 65535

/-- A flow control window. -/
structure FlowController where
  window : Int
  deriving DecidableEq, Repr

namespace FlowController

def new (initial_window : Nat) : FlowController := { window := initial_window }

/-- Takes `n` bytes out of the window. -/
def consume (n : Nat) : Method FlowController Error Unit := fun fc =>
  if n > 2 ^ 31 - 1 then (.error .InvalidState, fc)
  else if fc.window < n then (.error (.Http2 .FlowControlError), fc)
  else (.ok (), { window := fc.window - n })

/-- Gives `n` bytes back to the window. -/
def replenish (n : Nat) : Method FlowController Error Unit := fun fc =>
  if fc.window + n > 0x7fffffff then (.error .InvalidState, fc)
  else (.ok (), { window := fc.window + n })

end FlowController

/-! ## Streams -/

inductive H2StreamState where
  | Idle
  | Open
  | ReservedLocal
  | ReservedRemote
  | HalfClosedLocal
  | HalfClosedRemote
  | Closed
  deriving DecidableEq, Repr

structure H2Stream where
  id : Nat
  state : H2StreamState
  send_window : Int
  recv_window : Int
  headers_data : Bytes
  headers_received : Bool
  data_buf : Bytes
  data_available : Bool
  fin_received : Bool
  fin_sent : Bool
  pending_recv_credit : Nat
  pending_rst : Option Nat
  deriving DecidableEq, Repr

namespace H2Stream

def new (id : Nat) (initial_send_window initial_recv_window : Int) : H2Stream where
  id := id
  state := .Idle
  send_window := initial_send_window
  recv_window := initial_recv_window
  headers_data := []
  headers_received := false
  data_buf := []
  data_available := false
  fin_received := false
  fin_sent := false
  pending_recv_credit := 0
  pending_rst := none

/-- HEADERS were sent or received. -/
def open_ (s : H2Stream) : H2Stream := if s.state = .Idle then { s with state := .Open } else s

/-- END_STREAM from the peer. -/
def recv_end_stream (s : H2Stream) : H2Stream :=
  { s with
    fin_received := true
    state := match s.state with
      | .Open => .HalfClosedRemote
      | .HalfClosedLocal => .Closed
      | state => state }

/-- END_STREAM from us. -/
def send_end_stream (s : H2Stream) : H2Stream :=
  { s with
    fin_sent := true
    state := match s.state with
      | .Open => .HalfClosedLocal
      | .HalfClosedRemote => .Closed
      | state => state }

def can_send (s : H2Stream) : Bool := s.state = .Open || s.state = .HalfClosedRemote

def reset (s : H2Stream) : H2Stream := { s with state := .Closed }

/-- Bytes of a DATA frame arrive. -/
def deliver (bytes : Bytes) (s : H2Stream) : H2Stream :=
  { s with
    data_buf := s.data_buf ++ bytes
    data_available := true
    recv_window := s.recv_window - bytes.length }

/-- A DATA frame is complete. The stream is readable even if the frame was empty. -/
def data_done (end_stream : Bool) (s : H2Stream) : H2Stream :=
  let s := { s with data_available := true }
  if end_stream then s.recv_end_stream else s

/-- A header block begins: what was there is dropped. -/
def begin_block (s : H2Stream) : H2Stream := { s.open_ with headers_data := [] }

/-- The fragment of a HEADERS frame. -/
def store_block (fragment : Bytes) (end_headers end_stream : Bool) (s : H2Stream) : H2Stream :=
  let s := { s with headers_data := fragment, headers_received := s.headers_received || end_headers }
  if end_stream then s.recv_end_stream else s

/-- The fragment of a CONTINUATION frame. -/
def append_block (fragment : Bytes) (end_headers : Bool) (s : H2Stream) : H2Stream :=
  { s with
    headers_data := s.headers_data ++ fragment
    headers_received := s.headers_received || end_headers }

/-- The block was read. -/
def block_read (s : H2Stream) : H2Stream := { s with headers_data := [], headers_received := false }

/-- Some of the body was read, and `rest` is left. -/
def body_read (rest : Bytes) (s : H2Stream) : H2Stream :=
  { s with data_buf := rest, data_available := decide (rest ≠ []) }

/-- RST_STREAM of the peer: the unread body goes. -/
def reset_by_peer (s : H2Stream) : H2Stream :=
  { s with data_buf := [], data_available := false, state := .Closed }

/-- Everything unread goes, and unless the peer is done it is told so. -/
def abandon (error_code : Nat) (s : H2Stream) : H2Stream :=
  { s with
    data_buf := []
    data_available := false
    headers_data := []
    headers_received := false
    pending_rst := if s.fin_received then s.pending_rst else some error_code
    state := .Closed }

/-- HEADERS of ours go out. -/
def headers_sent (end_stream : Bool) (s : H2Stream) : H2Stream :=
  if end_stream then s.open_.send_end_stream else s.open_

/-- The peer is owed credit. -/
def owe_credit (n : Nat) (s : H2Stream) : H2Stream :=
  { s with pending_recv_credit := saturating_add s.pending_recv_credit n }

/-- The send window moves. -/
def shift_window (delta : Int) (s : H2Stream) : H2Stream :=
  { s with send_window := s.send_window + delta }

/-- A closed stream is kept while it has something for the application or for the peer. -/
def retained (s : H2Stream) : Bool :=
  s.state != .Closed || s.data_available || s.headers_received || s.pending_rst.isSome

end H2Stream

/-! ## Settings -/

structure H2Settings where
  header_table_size : Nat
  enable_push : Bool
  max_concurrent_streams : Nat
  initial_window_size : Nat
  max_frame_size : Nat
  max_header_list_size : Nat
  deriving DecidableEq, Repr

namespace H2Settings

def default_settings : H2Settings where
  header_table_size := 0
  enable_push := false
  max_concurrent_streams := 128
  initial_window_size := DEFAULT_INITIAL_WINDOW_SIZE
  max_frame_size := 16384
  max_header_list_size := 8192

/-- The payload of our SETTINGS frame. -/
def encode_params (s : H2Settings) : Bytes :=
  encode_setting 0x1 s.header_table_size ++ (if s.enable_push then [] else encode_setting 0x2 0) ++
    encode_setting 0x3 s.max_concurrent_streams ++ encode_setting 0x4 s.initial_window_size ++
    encode_setting 0x5 s.max_frame_size ++ encode_setting 0x6 s.max_header_list_size

/-- Applies one parameter. -/
def apply (id value : Nat) : Method H2Settings Error Unit := fun s =>
  match id with
  | 0x1 => (.ok (), { s with header_table_size := value })
  | 0x2 =>
    if value > 1 then (.error (.Http2 .ProtocolError), s)
    else (.ok (), { s with enable_push := value != 0 })
  | 0x3 => (.ok (), { s with max_concurrent_streams := value })
  | 0x4 =>
    if value > 0x7fffffff then (.error (.Http2 .FlowControlError), s)
    else (.ok (), { s with initial_window_size := value })
  | 0x5 =>
    if value < 16384 ∨ value > 16777215 then (.error (.Http2 .ProtocolError), s)
    else (.ok (), { s with max_frame_size := value })
  | 0x6 => (.ok (), { s with max_header_list_size := value })
  | _ => (.ok (), s)

/-- Applies the parameters one by one, up to the first that is refused. -/
def apply_all : List (Nat × Nat) → Method H2Settings Error Unit
  | [] => pure ()
  | (id, value) :: rest => do
    apply id value
    apply_all rest

/-- Applies the payload of a SETTINGS frame. -/
def apply_payload (payload : Bytes) : Method H2Settings Error Unit := do
  Method.require (payload.length % 6 = 0) .InvalidState
  apply_all (settings_params payload.length payload)

end H2Settings

/-! ## The connection -/

inductive Role where
  | Client
  | Server
  deriving DecidableEq, Repr

inductive H2Event where
  | Connected
  | Headers (stream_id : Nat)
  | Data (stream_id : Nat)
  | StreamReset (stream_id error_code : Nat)
  | GoAway (last_stream_id error_code : Nat)
  | Finished (stream_id : Nat)
  | Timeout
  deriving DecidableEq, Repr

inductive H2ConnState where
  | WaitingPreface
  | WaitingSettings
  | Active
  | Closing
  | Closed
  deriving DecidableEq, Repr

/-- A DATA frame whose payload has not fully arrived. -/
structure PartialData where
  stream_id : Nat
  end_stream : Bool
  data_remaining : Nat
  pad_remaining : Nat
  deliver : Bool
  deriving DecidableEq, Repr

structure TimeoutConfig where
  idle_timeout_us : Option Nat
  header_timeout_us : Option Nat
  deriving DecidableEq, Repr

/-- The two buffers, and every frame ever queued in the send buffer. -/
structure H2Io where
  recv_buf : Bytes
  send_buf : Bytes
  queued : List H2Frame
  deriving DecidableEq, Repr

namespace H2Io

def drain_recv (io : H2Io) (n : Nat) : H2Io := { io with recv_buf := io.recv_buf.drop n }

/-- Queues a frame, encoded by way of a buffer of `cap` bytes. -/
def queue_frame (BUF cap : Nat) (frame : H2Frame) : Method H2Io Error Unit := fun io =>
  match encode_frame frame cap with
  | .error e => (.error e, io)
  | .ok data =>
    if io.send_buf.length + data.length > BUF then
      (.error (.BufferTooSmall (io.send_buf.length + data.length)), io)
    else (.ok (), { io with send_buf := io.send_buf ++ data, queued := io.queued ++ [frame] })

end H2Io

/-- An HTTP/2 connection. -/
structure H2Connection (L : Limits) where
  role : Role
  state : H2ConnState
  local_settings : H2Settings
  peer_settings : H2Settings
  streams : List H2Stream
  decoder : HpackDecoder
  send_offset : Nat
  conn_send_fc : FlowController
  conn_recv_fc : FlowController
  pending_conn_credit : Nat
  events : List H2Event
  next_stream_id : Nat
  last_peer_stream_id : Nat
  continuation_stream_id : Option Nat
  settings_sent : Bool
  settings_ack_received : Bool
  peer_settings_received : Bool
  preface_sent : Bool
  preface_validated : Bool
  preface_bytes_seen : Nat
  goaway_sent : Bool
  timeout_config : TimeoutConfig
  last_activity : Nat
  sent_since_tick : Bool
  connection_start : Nat
  headers_phase_complete : Bool
  partial_data : Option PartialData
  io : H2Io
  deriving DecidableEq, Repr

variable {L : Limits}

namespace H2Connection

/-- A new connection. It advertises the receive window and the streams it can hold. -/
def new (L : Limits) (role : Role) : H2Connection L where
  role := role
  state := .WaitingPreface
  local_settings := { H2Settings.default_settings with
    initial_window_size := L.DATABUF % 2 ^ 32
    max_concurrent_streams := L.MAX_STREAMS % 2 ^ 32 }
  peer_settings := .default_settings
  streams := []
  decoder := .new
  send_offset := 0
  conn_send_fc := .new DEFAULT_CONNECTION_WINDOW_SIZE
  conn_recv_fc := .new DEFAULT_CONNECTION_WINDOW_SIZE
  pending_conn_credit := 0
  events := []
  next_stream_id := match role with
    | .Client => 1
    | .Server => 2
  last_peer_stream_id := 0
  continuation_stream_id := none
  settings_sent := false
  settings_ack_received := false
  peer_settings_received := false
  preface_sent := false
  preface_validated := false
  preface_bytes_seen := 0
  goaway_sent := false
  timeout_config := { idle_timeout_us := none, header_timeout_us := none }
  last_activity := 0
  sent_since_tick := false
  connection_start := 0
  headers_phase_complete := false
  partial_data := none
  io := { recv_buf := [], send_buf := [], queued := [] }

/-- The most events a queue holds. -/
def MAX_EVENTS : Nat := 64

/-- Pushes an event; a full queue drops its oldest. -/
def push_event (event : H2Event) (c : H2Connection L) : H2Connection L :=
  let events := if c.events.length ≥ MAX_EVENTS then c.events.tail else c.events
  { c with events := events ++ [event] }

/-- The first stream of an identifier. -/
def get_stream (c : H2Connection L) (stream_id : Nat) : Option H2Stream :=
  keyed.find H2Stream.id stream_id c.streams

/-- `get_stream_mut`: rewrites a stream, if there is one of that identifier. -/
def modify_stream (stream_id : Nat) (f : H2Stream → H2Stream) (c : H2Connection L) :
    H2Connection L :=
  { c with streams := keyed.modify H2Stream.id stream_id f c.streams }

/-- Runs a method of the buffers. -/
def on_io {α : Type} (m : Method H2Io Error α) : Method (H2Connection L) Error α :=
  Method.on H2Connection.io (fun io c => { c with io }) m

/-- Queues a frame. -/
def queue_frame (cap : Nat) (frame : H2Frame) : Method (H2Connection L) Error Unit :=
  on_io (H2Io.queue_frame L.BUF cap frame)

/-- Drops the closed streams nobody needs. -/
def reap (c : H2Connection L) : H2Connection L :=
  { c with streams := c.streams.filter (·.retained) }

/-- Makes sure there is a stream of that identifier, if there is a place for it. -/
def ensure_stream (stream_id : Nat) (c : H2Connection L) : Bool × H2Connection L :=
  if c.streams.any (·.id == stream_id) then (true, c)
  else
    let c := if c.streams.length ≥ L.MAX_STREAMS then c.reap else c
    if c.streams.length ≥ L.MAX_STREAMS then (false, c)
    else
      (true, { c with streams := c.streams ++ [H2Stream.new stream_id
        (as_i32 c.peer_settings.initial_window_size)
        (as_i32 c.local_settings.initial_window_size)] })

end H2Connection

end milli_http.h2
