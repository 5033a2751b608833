-- The connections of the server manager (server/mod.rs, http/server_conn.rs, tcp_tls/mod.rs,
-- buf.rs): what their buffers are kept in, and what a TCP connection turns into.
import MilliHttp.Stranding
import MilliHttp.Connection.HandshakePool

open bytes method

namespace milli_http.manager

open crypto tls tcp_tls https1 h2_tls transport connection stranding

/-! ## Static buffers -/

/-- A `'static` slice: where it starts, and how long it is. -/
structure StaticSlice where
  addr : Nat
  len : Nat
  deriving DecidableEq, Repr

/-- What backs a buffer. -/
inductive Storage where
  | Heap
  | Static (mem : StaticSlice)
  deriving DecidableEq, Repr

/-- A buffer on a slice, which must be long enough: a panic otherwise. -/
def Storage.from_static (N : Nat) (mem : StaticSlice) : Option Storage :=
  if mem.len ≥ N then some (.Static mem) else none

/-- Recovers the slice, if there is one, and leaves an empty buffer on the heap. -/
def Storage.take_static : Storage → Option StaticSlice × Storage
  | .Static mem => (some mem, .Heap)
  | .Heap => (none, .Heap)

/-- The slices that back one TLS connection. -/
structure TlsBufKit where
  net_recv : StaticSlice
  net_send : StaticSlice
  app_send : StaticSlice
  deriving DecidableEq, Repr

/-- What backs the three buffers of a TLS connection. -/
structure IoStorage where
  net_recv : Storage
  net_send : Storage
  app_send : Storage
  deriving DecidableEq, Repr

namespace IoStorage

def heap : IoStorage := { net_recv := .Heap, net_send := .Heap, app_send := .Heap }

/-- The three buffers on a kit, or a panic. -/
def from_kit (BUF : Nat) (kit : TlsBufKit) : Option IoStorage := do
  let net_recv ← Storage.from_static BUF kit.net_recv
  let net_send ← Storage.from_static BUF kit.net_send
  let app_send ← Storage.from_static BUF kit.app_send
  pure { net_recv, net_send, app_send }

/-- Recovers the slices; a kit is all three of them. -/
def reclaim_buffers (s : IoStorage) : Option TlsBufKit × IoStorage :=
  let (net_recv, net_recv_left) := s.net_recv.take_static
  let (net_send, net_send_left) := s.net_send.take_static
  let (app_send, app_send_left) := s.app_send.take_static
  let left := { net_recv := net_recv_left, net_send := net_send_left, app_send := app_send_left }
  match net_recv, net_send, app_send with
  | some net_recv, some net_send, some app_send => (some { net_recv, net_send, app_send }, left)
  | _, _, _ => (none, left)

/-- The buffers of a connection are made together: on a kit, or all on the heap. -/
theorem reclaim_from_kit {BUF : Nat} {kit : TlsBufKit} {s : IoStorage}
    (h : from_kit BUF kit = some s) : s.reclaim_buffers.1 = some kit := by
  simp only [from_kit, Storage.from_static, Option.bind_eq_bind, Option.bind_eq_some_iff,
    Option.ite_none_right_eq_some, Option.some.injEq, Option.pure_def] at h
  obtain ⟨_, ⟨-, rfl⟩, _, ⟨-, rfl⟩, _, ⟨-, rfl⟩, rfl⟩ := h
  rfl

end IoStorage

/-! ## TLS before a protocol is chosen -/

variable {X : Primitives} {BUF : Nat}

/-- A TLS connection with its buffers, before there is a protocol above it. -/
structure TlsParts (X : Primitives) (BUF : Nat) where
  tls : TlsConnection X BUF
  storage : IoStorage

namespace TlsParts

def new_server (config : ServerTlsConfig) (secret random : Bytes) : TlsParts X BUF where
  tls := .new_server config secret random
  storage := .heap

/-- Backed by a kit, or a panic. -/
def new_server_in (config : ServerTlsConfig) (secret random : Bytes) (kit : TlsBufKit) :
    Option (TlsParts X BUF) := do
  let storage ← IoStorage.from_kit BUF kit
  pure { tls := .new_server config secret random, storage }

/-- On a kit that was free, else on the heap. -/
def new_server_on (config : ServerTlsConfig) (secret random : Bytes) :
    Option TlsBufKit → Option (TlsParts X BUF)
  | some kit => new_server_in config secret random kit
  | none => some (.new_server config secret random)

def reclaim_buffers (parts : TlsParts X BUF) : Option TlsBufKit × TlsParts X BUF :=
  let (kit, storage) := parts.storage.reclaim_buffers
  (kit, { parts with storage })

theorem reclaim_new_server_on {config : ServerTlsConfig} {secret random : Bytes}
    {kit : Option TlsBufKit} {parts : TlsParts X BUF}
    (h : new_server_on config secret random kit = some parts) : parts.reclaim_buffers.1 = kit := by
  cases kit with
  | none =>
    cases h
    rfl
  | some kit =>
    simp only [new_server_on, new_server_in, Option.bind_eq_bind, Option.bind_eq_some_iff,
      Option.pure_def, Option.some.injEq] at h
    obtain ⟨storage, hstorage, rfl⟩ := h
    exact IoStorage.reclaim_from_kit hstorage

/-- Feeds encrypted TCP data to the handshake. -/
def feed_data (data : Bytes) (parts : TlsParts X BUF) : Except Error Unit × TlsParts X BUF :=
  let (r, tls) := parts.tls.feed_data data
  (r, { parts with tls })

def poll_output (room : Nat) (parts : TlsParts X BUF) : Option Bytes × TlsParts X BUF :=
  let (out, tls) := parts.tls.poll_output room
  (out, { parts with tls })

def is_active (parts : TlsParts X BUF) : Bool := parts.tls.is_active

def alpn (parts : TlsParts X BUF) : Option Bytes := parts.tls.engine.negotiated_alpn

end TlsParts

/-! ## HTTP over TCP -/

inductive HttpEvent where
  | Connected
  | Headers (stream_id : Nat)
  | Data (stream_id : Nat)
  | Finished (stream_id : Nat)
  | StreamReset (stream_id error_code : Nat)
  | GoAway (error_code : Nat)
  | Timeout
  deriving DecidableEq, Repr

def map_http1_event : http1.Http1Event → HttpEvent
  | .Connected => .Connected
  | .Headers s => .Headers s
  | .Data s => .Data s
  | .Finished s => .Finished s
  | .Timeout => .Timeout

def map_h2_event : h2.H2Event → HttpEvent
  | .Connected => .Connected
  | .Headers s => .Headers s
  | .Data s => .Data s
  | .Finished s => .Finished s
  | .StreamReset stream_id error_code => .StreamReset stream_id error_code
  | .GoAway _ error_code => .GoAway error_code
  | .Timeout => .Timeout

/-- The buffer sizes of an HTTP/1.1 connection of the manager. -/
abbrev http1_limits (BUF : Nat) : http1.Limits := { HDRBUF := 2048, DATABUF := 4096, BUF }

/-- The limits of an HTTP/2 connection of the manager. -/
abbrev h2_limits (BUF : Nat) : h2.Limits :=
  { MAX_STREAMS := 8, HDRBUF := 2048, DATABUF := 4096, BUF }

/-- An HTTP connection with what backs its buffers. A cleartext one has no kit to give back. -/
structure HttpConn (X : Primitives) (BUF : Nat) where
  conn : HttpServerConn X (http1_limits BUF) (h2_limits BUF)
  storage : IoStorage

/-- A result of an HTTP/1.1 call that emits header fields. -/
def emitted : Except Error (List (Bytes × Bytes)) → Except Error Unit × List (Bytes × Bytes)
  | .ok headers => (.ok (), headers)
  | .error e => (.error e, [])

namespace HttpConn

/-- A call of the connection, whose buffers stay where they are. -/
def call {α : Type} (a : stranding.Call) (c : HttpConn X BUF)
    (result : HttpServerConn X (http1_limits BUF) (h2_limits BUF) → α) : α × HttpConn X BUF :=
  (result c.conn, { c with conn := a.apply c.conn })

/-- The next event. Reading one from HTTP/1.1 does not fail. -/
def poll_event (c : HttpConn X BUF) : Option HttpEvent × HttpConn X BUF :=
  c.call .poll_event fun
    | .http1 s => s.poll_event.1.toOption.join.map map_http1_event
    | .https1 s => s.poll_event.1.toOption.join.map map_http1_event
    | .h2 s => s.poll_event.1.map map_h2_event

def recv_headers (stream_id : Nat) (c : HttpConn X BUF) :
    (Except Error Unit × List (Bytes × Bytes)) × HttpConn X BUF :=
  c.call (.recv_headers stream_id) fun
    | .http1 s => emitted (s.recv_headers stream_id).1
    | .https1 s => emitted (s.recv_headers stream_id).1
    | .h2 s => ((s.recv_headers stream_id).1, (s.recv_headers stream_id).2.1)

def recv_body (stream_id room : Nat) (c : HttpConn X BUF) :
    Except Error (Bytes × Bool) × HttpConn X BUF :=
  c.call (.recv_body stream_id room) fun
    | .http1 s => (s.recv_body stream_id room).1
    | .https1 s => (s.recv_body stream_id room).1
    | .h2 s => (s.recv_body stream_id room).1

def send_response (stream_id status : Nat) (headers : List (Bytes × Bytes)) (end_stream : Bool)
    (c : HttpConn X BUF) : Except Error Unit × HttpConn X BUF :=
  c.call (.send_response stream_id status headers end_stream) fun
    | .http1 s => (http1.send_response stream_id status headers s).1
    | .https1 s => (s.send_response stream_id status headers).1
    | .h2 s => (s.send_response stream_id status headers end_stream).1

def send_body (stream_id : Nat) (data : Bytes) (end_stream : Bool) (c : HttpConn X BUF) :
    Except Error Nat × HttpConn X BUF :=
  c.call (.send_body stream_id data end_stream) fun
    | .http1 s => (s.send_data stream_id data).1
    | .https1 s => (s.send_body stream_id data).1
    | .h2 s => (s.send_body stream_id data end_stream).1

/-- HTTP/1.1 cannot stop a body. -/
def discard_body (stream_id error_code : Nat) (c : HttpConn X BUF) :
    Except Error Unit × HttpConn X BUF :=
  c.call (.discard_body stream_id error_code) fun
    | .http1 _ => .error .InvalidState
    | .https1 _ => .error .InvalidState
    | .h2 s => (s.discard_body stream_id error_code).1

def tcp_feed_data (data : Bytes) (now : Nat) (c : HttpConn X BUF) :
    Except Error Unit × HttpConn X BUF :=
  c.call (.tcp_feed_data data now) fun conn => (conn.tcp_feed_data data now).1

def tcp_poll_output (room : Nat) (c : HttpConn X BUF) : Option Bytes × HttpConn X BUF :=
  c.call (.tcp_poll_output room) fun
    | .http1 s => (s.poll_output room).1.toOption.join
    | .https1 s => (s.poll_output room).1
    | .h2 s => (s.poll_output room).1

def set_timeouts (config : http1.TimeoutConfig) (now : Nat) (c : HttpConn X BUF) : HttpConn X BUF :=
  (c.call (.set_timeouts config now) fun _ => ()).2

def handle_timeout (now : Nat) (c : HttpConn X BUF) : HttpConn X BUF :=
  (c.call (.handle_timeout now) fun _ => ()).2

def is_closed (c : HttpConn X BUF) : Bool :=
  match c.conn with
  | .http1 s => s.closed
  | .https1 s => s.tls.is_closed || s.http.closed
  | .h2 s => s.tls.is_closed || decide (s.h2.state = .Closed ∨ s.h2.state = .Closing)

def reclaim_buffers (c : HttpConn X BUF) : Option TlsBufKit × HttpConn X BUF :=
  let (kit, storage) := c.storage.reclaim_buffers
  (kit, { c with storage })

end HttpConn

/-! ## TCP connections -/

inductive ConnProtocol where
  | Handshaking
  | Http1
  | H2
  | H3
  deriving DecidableEq, Repr

inductive TcpState (X : Primitives) (BUF : Nat) where
  | Handshaking (parts : TlsParts X BUF)
  | Established (http : HttpConn X BUF)
  /-- Closed, and not removed yet. -/
  | Closed

namespace TcpState

/-- The kit a connection is on. -/
def kit : TcpState X BUF → Option TlsBufKit
  | .Handshaking parts => parts.reclaim_buffers.1
  | .Established http => http.reclaim_buffers.1
  | .Closed => none

/-- Takes a connection to `Closed`, and recovers its kit. -/
def reclaim_and_close (state : TcpState X BUF) : Option TlsBufKit × TcpState X BUF :=
  (state.kit, .Closed)

def is_closed : TcpState X BUF → Bool
  | .Closed => true
  | _ => false

end TcpState

structure TcpConn (X : Primitives) (BUF : Nat) where
  id : Nat
  state : TcpState X BUF
  protocol : ConnProtocol
  accepted_at : Nat

/-- The HTTP connection of a handshake that is over, by what was negotiated, or the kit. -/
def http_conn_for_alpn (parts : TlsParts X BUF) :
    Except (Option TlsBufKit) (ConnProtocol × HttpConn X BUF) :=
  let alpn := parts.alpn
  if alpn = some (ascii "h2") then
    .ok (.H2, { conn := .h2 (.from_parts parts.tls), storage := parts.storage })
  else if alpn = some (ascii "http/1.1") ∨ alpn = none then
    .ok (.Http1, { conn := .https1 (.from_parts parts.tls), storage := parts.storage })
  else .error parts.reclaim_buffers.1

/-! ## QUIC connections -/

/-- An HTTP/3 server `Q` on a QUIC connection whose handshake context is in a pool `P`. Nothing is
assumed of what its calls do. One that may panic returns nothing then. -/
class H3Server (Q : Type) (P : outParam Type) where
  /-- `Connection::server`, with an HTTP/3 server on it. -/
  server : ServerTlsConfig → TransportParams → Draws → P → Except Error Q × P
  local_cids : Q → List ConnectionId
  recv : Bytes → Nat → Instant → Q → P → Option (Except Error Unit × Q × P)
  poll_transmit : Nat → Instant → Q → P → Option Bytes × Q × P
  release_handshake_slot : Q → P → Q × P
  poll_event : Nat → Q → Option HttpEvent × Q
  recv_headers : Nat → Q → (Except Error Unit × List (Bytes × Bytes)) × Q
  recv_body : Nat → Nat → Q → Except Error (Bytes × Bool) × Q
  send_response : Nat → Nat → List (Bytes × Bytes) → Bool → Q → Except Error Unit × Q
  send_body : Nat → Bytes → Bool → Q → Except Error Nat × Q
  handle_timeout : Instant → Q → Q
  close : Nat → Bytes → Q → Q
  is_established : Q → Bool
  is_closed : Q → Bool

structure QuicConn (Q A : Type) where
  id : Nat
  server : Q
  peer_addr : A
  local_cids : List ConnectionId
  /-- What the client addressed its first Initial to. -/
  original_dcid : ConnectionId
  created_at : Instant

variable {Q A : Type}

/-- A connection is found by its own ids, and by the one the client chose for it. -/
def QuicConn.matched (dcid : Bytes) (qconn : QuicConn Q A) : Bool :=
  qconn.local_cids.any (· == dcid) || qconn.original_dcid == dcid

end milli_http.manager
