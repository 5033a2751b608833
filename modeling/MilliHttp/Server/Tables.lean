-- The server manager (server/mod.rs): TCP and QUIC connections in two tables, one bounded queue of
-- events for all of them, and idle buffer kits that are lent to TLS connections.
import MilliHttp.Server.Connections
import MilliHttp.Server.Manager
import MilliHttp.Lib.Keyed
import MilliHttp.Lib.Run

open bytes method

namespace milli_http.manager

open crypto tls tcp_tls https1 h2_tls transport connection stranding

/-! ## The manager -/

inductive ServerEvent where
  | Http (conn : Nat) (event : HttpEvent)
  /-- A connection was accepted, and its handshake is over. -/
  | Connected (id : Nat)
  | Closed (id : Nat)
  deriving DecidableEq, Repr

inductive CloseReason where
  | HandshakeError (e : Error)
  | UnsupportedAlpn
  | HttpClosed
  | HandshakeTimeout
  | PeerEof
  | FeedError (e : Error)
  | ReadError
  | WriteError
  | AppClose
  deriving DecidableEq, Repr

/-- Close reasons kept for `Closed` events that were not handled yet. -/
def CLOSE_REASONS_KEPT : Nat := 8

structure ServerConfig where
  max_tcp_conns : Nat
  max_quic_conns : Nat
  max_events : Nat
  handshake_timeout_us : Nat
  http_timeouts : http1.TimeoutConfig
  deriving DecidableEq, Repr

structure ServerManager (X : Primitives) (BUF : Nat) (Q A : Type) where
  tls_config : ServerTlsConfig
  config : ServerConfig
  tcp_conns : List (TcpConn X BUF)
  quic_conns : List (QuicConn Q A)
  events : List ServerEvent
  next_id : Nat
  /-- Idle kits, to lend to new TLS connections. -/
  free_kits : List TlsBufKit
  close_reasons : List (Nat × CloseReason)

variable {X : Primitives} {BUF : Nat} {Q A P : Type} [H3Server Q P]

namespace ServerManager

def new (tls_config : ServerTlsConfig) (config : ServerConfig) : ServerManager X BUF Q A where
  tls_config := tls_config
  config := config
  tcp_conns := []
  quic_conns := []
  events := []
  next_id := 0
  free_kits := []
  close_reasons := []

/-! ## Kits, ids, events -/

def add_tls_buffer_kit (kit : TlsBufKit) (m : ServerManager X BUF Q A) : ServerManager X BUF Q A :=
  { m with free_kits := m.free_kits ++ [kit] }

def take_tls_buffer_kit (m : ServerManager X BUF Q A) :
    Option TlsBufKit × ServerManager X BUF Q A :=
  (m.free_kits.getLast?, { m with free_kits := m.free_kits.dropLast })

/-- A recovered kit, if there is one, is idle again. -/
def return_kit (kit : Option TlsBufKit) (m : ServerManager X BUF Q A) : ServerManager X BUF Q A :=
  { m with free_kits := m.free_kits ++ kit.toList }

/-- The next id. The counter wraps around. -/
def alloc_id (m : ServerManager X BUF Q A) : Nat × ServerManager X BUF Q A :=
  (m.next_id, { m with next_id := (m.next_id + 1) % 2 ^ 32 })

/-- Appends to a queue. A full one loses its oldest entry. -/
def push (max_events : Nat) (events : List ServerEvent) (event : ServerEvent) : List ServerEvent :=
  (if events.length ≥ max_events then events.tail else events) ++ [event]

def push_server_event (event : ServerEvent) (m : ServerManager X BUF Q A) :
    ServerManager X BUF Q A :=
  { m with events := push m.config.max_events m.events event }

/-- The first reason noted for a connection stays. -/
def note_close_reason (id : Nat) (reason : CloseReason) (m : ServerManager X BUF Q A) :
    ServerManager X BUF Q A :=
  if m.close_reasons.any (·.1 == id) then m
  else
    let kept :=
      if m.close_reasons.length ≥ CLOSE_REASONS_KEPT then m.close_reasons.tail else m.close_reasons
    { m with close_reasons := kept ++ [(id, reason)] }

/-- The reason noted for a connection, which is removed. -/
def take_close_reason (id : Nat) (m : ServerManager X BUF Q A) :
    Option CloseReason × ServerManager X BUF Q A :=
  ((keyed.find Prod.fst id m.close_reasons).map Prod.snd,
    { m with close_reasons := m.close_reasons.eraseP (·.1 == id) })

/-- Says that a connection is closed, and why. -/
def report_closed (id : Nat) (reason : CloseReason) (m : ServerManager X BUF Q A) :
    ServerManager X BUF Q A :=
  (m.note_close_reason id reason).push_server_event (.Closed id)

/-! ## TCP -/

def find_tcp (id : Nat) (m : ServerManager X BUF Q A) : Option (TcpConn X BUF) :=
  keyed.find TcpConn.id id m.tcp_conns

/-- Writes what a call leaves of a TCP connection. -/
def set_state (id : Nat) (state : TcpState X BUF) (m : ServerManager X BUF Q A) :
    ServerManager X BUF Q A :=
  { m with tcp_conns := keyed.modify TcpConn.id id (fun conn => { conn with state }) m.tcp_conns }

/-- Takes a connection to `Closed` by way of the reclaim funnel. -/
def close_tcp (id : Nat) (state : TcpState X BUF) (m : ServerManager X BUF Q A) :
    ServerManager X BUF Q A :=
  let (kit, closed) := state.reclaim_and_close
  (m.set_state id closed).return_kit kit

/-- Accepts a TCP connection, on an idle kit if there is one. A kit that is too short is a panic. -/
def accept_tcp (secret random : Bytes) (now : Nat) (m : ServerManager X BUF Q A) :
    Option (Except Error Nat × ServerManager X BUF Q A) :=
  if m.tcp_conns.length ≥ m.config.max_tcp_conns then some (.error .StreamLimitExhausted, m)
  else
    let (id, m) := m.alloc_id
    let (kit, m) := m.take_tls_buffer_kit
    (TlsParts.new_server_on m.tls_config secret random kit).map fun parts =>
      let conn := { id, state := .Handshaking parts, protocol := .Handshaking, accepted_at := now }
      (.ok id, { m with tcp_conns := m.tcp_conns ++ [conn] })

/-- Accepts a TCP connection without TLS. -/
def accept_tcp_cleartext (now : Nat) (m : ServerManager X BUF Q A) :
    Except Error Nat × ServerManager X BUF Q A :=
  if m.tcp_conns.length ≥ m.config.max_tcp_conns then (.error .StreamLimitExhausted, m)
  else
    let (id, m) := m.alloc_id
    let http : HttpConn X BUF := { conn := .http1 .new_server, storage := .heap }
    let http := http.set_timeouts m.config.http_timeouts now
    let conn := { id, state := .Established http, protocol := .Http1, accepted_at := now }
    (.ok id, { m with tcp_conns := m.tcp_conns ++ [conn] }.push_server_event (.Connected id))

/-- A handshake is over: the connection goes on with the protocol that was negotiated. What arrived
with the last message is processed. -/
def upgrade (id : Nat) (parts : TlsParts X BUF) (now : Nat) (m : ServerManager X BUF Q A) :
    Except Error Unit × ServerManager X BUF Q A :=
  match http_conn_for_alpn parts with
  | .error kit =>
    (.error .InvalidState,
      ((m.set_state id .Closed).return_kit kit).report_closed id .UnsupportedAlpn)
  | .ok (protocol, http) =>
    let http := ((http.set_timeouts m.config.http_timeouts now).tcp_feed_data [] now).2
    let established := fun conn => { conn with state := .Established http, protocol }
    let m := { m with tcp_conns := keyed.modify TcpConn.id id established m.tcp_conns }
    (.ok (), m.push_server_event (.Connected id))

/-- Feeds TCP data to a connection. A handshake that fails closes it. -/
def tcp_feed (id : Nat) (data : Bytes) (now : Nat) (m : ServerManager X BUF Q A) :
    Except Error Unit × ServerManager X BUF Q A :=
  match m.find_tcp id with
  | none => (.error .InvalidState, m)
  | some conn =>
    match conn.state with
    | .Handshaking parts =>
      match parts.feed_data data with
      | (.error e, parts) =>
        (.error e, (m.close_tcp id (.Handshaking parts)).report_closed id (.HandshakeError e))
      | (.ok _, parts) =>
        if parts.is_active then m.upgrade id parts now
        else (.ok (), m.set_state id (.Handshaking parts))
    | .Established http =>
      let (r, http) := http.tcp_feed_data data now
      (r, m.set_state id (.Established http))
    | .Closed => (.error .InvalidState, m)

/-- Pulls outgoing TCP data of a connection. -/
def tcp_poll_output (id room : Nat) (m : ServerManager X BUF Q A) :
    Option Bytes × ServerManager X BUF Q A :=
  match m.find_tcp id with
  | none => (none, m)
  | some conn =>
    match conn.state with
    | .Handshaking parts =>
      let (out, parts) := parts.poll_output room
      (out, m.set_state id (.Handshaking parts))
    | .Established http =>
      let (out, http) := http.tcp_poll_output room
      (out, m.set_state id (.Established http))
    | .Closed => (none, m)

/-! ## UDP -/

def find_quic (id : Nat) (m : ServerManager X BUF Q A) : Option (QuicConn Q A) :=
  keyed.find QuicConn.id id m.quic_conns

/-- Writes what a call leaves of a QUIC connection. -/
def set_server (id : Nat) (server : Q) (m : ServerManager X BUF Q A) : ServerManager X BUF Q A :=
  { m with quic_conns := keyed.modify QuicConn.id id (fun qconn => { qconn with server }) m.quic_conns }

/-- A connection is closed, or its handshake has taken too long. -/
def dead (handshake_timeout_us : Nat) (now : Instant) (qconn : QuicConn Q A) : Bool :=
  H3Server.is_closed qconn.server || (!H3Server.is_established qconn.server &&
    decide (now ≥ saturating_add qconn.created_at handshake_timeout_us))

/-- Drives the timers of connections and removes the dead ones, which give back their slots: the
ids of these, the others, and the pool. -/
def reap (handshake_timeout_us : Nat) (now : Instant) :
    List (QuicConn Q A) → P → List Nat × List (QuicConn Q A) × P
  | [], pool => ([], [], pool)
  | qconn :: rest, pool =>
    let qconn := { qconn with server := H3Server.handle_timeout now qconn.server }
    if dead handshake_timeout_us now qconn then
      let pool := (H3Server.release_handshake_slot qconn.server pool).2
      let (reaped, rest, pool) := reap handshake_timeout_us now rest pool
      (qconn.id :: reaped, rest, pool)
    else
      let (reaped, rest, pool) := reap handshake_timeout_us now rest pool
      (reaped, qconn :: rest, pool)

def reap_quic_conns (now : Instant) (m : ServerManager X BUF Q A) (pool : P) :
    ServerManager X BUF Q A × P :=
  let (reaped, quic_conns, pool) := reap m.config.handshake_timeout_us now m.quic_conns pool
  (reaped.foldl (fun m id => m.push_server_event (.Closed id)) { m with quic_conns }, pool)

/-- There is no room for another QUIC connection. -/
def quic_full (m : ServerManager X BUF Q A) : Bool := m.quic_conns.length ≥ m.config.max_quic_conns

/-- Before a connection is refused the dead ones make room. -/
def make_room (now : Instant) (m : ServerManager X BUF Q A) (pool : P) :
    ServerManager X BUF Q A × P :=
  if m.quic_full then m.reap_quic_conns now pool else (m, pool)

/-- The connection a datagram belongs to. -/
def route (data : Bytes) (m : ServerManager X BUF Q A) : Option Nat :=
  (server_manager.decode_dcid data 8).bind fun dcid => m.quic_conns.findIdx? (·.matched dcid)

/-- Feeds a datagram to the connection at a place. -/
def feed_quic (i : Nat) (data : Bytes) (now : Instant) (m : ServerManager X BUF Q A) (pool : P) :
    Option (Except Error Unit × ServerManager X BUF Q A × P) := do
  let qconn ← m.quic_conns[i]?
  let (r, server, pool) ← H3Server.recv data 2048 now qconn.server pool
  pure (r, { m with quic_conns := m.quic_conns.set i { qconn with server } }, pool)

/-- Opens a connection for a datagram. It is not kept if the datagram is an error to it. -/
def open_quic (data : Bytes) (addr : A) (now : Instant) (draws : Draws)
    (m : ServerManager X BUF Q A) (pool : P) :
    Option (Except Error Unit × ServerManager X BUF Q A × P) :=
  let (id, m) := m.alloc_id
  match H3Server.server m.tls_config .default_params draws pool with
  | (.error e, pool) => some (.error e, m, pool)
  | (.ok server, pool) => do
    let local_cids := H3Server.local_cids server
    match ← H3Server.recv data 2048 now server pool with
    | (.error e, server, pool) =>
      pure (.error e, m, (H3Server.release_handshake_slot server pool).2)
    | (.ok _, server, pool) =>
      let original_dcid := ((server_manager.decode_dcid data 8).map ConnectionId.from_slice).getD []
      let qconn :=
        { id, server, peer_addr := addr, local_cids, original_dcid, created_at := now }
      pure (.ok (), { m with quic_conns := m.quic_conns ++ [qconn] }, pool)

/-- Feeds a UDP datagram, or panics. -/
def udp_feed (data : Bytes) (addr : A) (now : Instant) (draws : Draws)
    (m : ServerManager X BUF Q A) (pool : P) :
    Option (Except Error Unit × ServerManager X BUF Q A × P) :=
  match m.route data with
  | some i => m.feed_quic i data now pool
  | none =>
    let (m, pool) := m.make_room now pool
    if m.quic_full then some (.error .StreamLimitExhausted, m, pool)
    else m.open_quic data addr now draws pool

/-- The first connection that has a datagram to send builds it. -/
def first_transmit (buf_len : Nat) (now : Instant) :
    List (QuicConn Q A) → P → Option (A × Bytes) × List (QuicConn Q A) × P
  | [], pool => (none, [], pool)
  | qconn :: rest, pool =>
    match H3Server.poll_transmit buf_len now qconn.server pool with
    | (some data, server, pool) =>
      (some (qconn.peer_addr, data), { qconn with server } :: rest, pool)
    | (none, server, pool) =>
      let (tx, rest, pool) := first_transmit buf_len now rest pool
      (tx, { qconn with server } :: rest, pool)

/-- Pulls the next outgoing UDP datagram. -/
def udp_poll_transmit (buf_len : Nat) (now : Instant) (m : ServerManager X BUF Q A) (pool : P) :
    Option (A × Bytes) × ServerManager X BUF Q A × P :=
  let (tx, quic_conns, pool) := first_transmit buf_len now m.quic_conns pool
  (tx, { m with quic_conns }, pool)

/-! ## Events -/

/-- What a look at the TCP connections finds. -/
inductive Polled where
  | event (conn : Nat) (event : HttpEvent)
  /-- A connection has closed itself, and was on this kit. -/
  | closed (id : Nat) (kit : Option TlsBufKit)
  | nothing
  deriving DecidableEq, Repr

/-- Looks for an event or for a connection that has closed itself. -/
def poll_tcp : List (TcpConn X BUF) → Polled × List (TcpConn X BUF)
  | [] => (.nothing, [])
  | conn :: rest =>
    match conn.state with
    | .Established http =>
      match http.poll_event with
      | (some event, http) =>
        (.event conn.id event, { conn with state := .Established http } :: rest)
      | (none, http) =>
        if http.is_closed then
          let (kit, state) := TcpState.reclaim_and_close (.Established http)
          (.closed conn.id kit, { conn with state } :: rest)
        else
          let (polled, rest) := poll_tcp rest
          (polled, { conn with state := .Established http } :: rest)
    | _ =>
      let (polled, rest) := poll_tcp rest
      (polled, conn :: rest)

def poll_quic (scratch_len : Nat) : List (QuicConn Q A) → Option ServerEvent × List (QuicConn Q A)
  | [] => (none, [])
  | qconn :: rest =>
    match H3Server.poll_event scratch_len qconn.server with
    | (some event, server) => (some (.Http qconn.id event), { qconn with server } :: rest)
    | (none, server) =>
      let (event, rest) := poll_quic scratch_len rest
      (event, { qconn with server } :: rest)

/-- The next event. Closed TCP connections are removed when there is none. -/
def poll_event (scratch_len : Nat) (m : ServerManager X BUF Q A) :
    Option ServerEvent × ServerManager X BUF Q A :=
  match m.events with
  | event :: events => (some event, { m with events })
  | [] =>
    let (polled, tcp_conns) := poll_tcp m.tcp_conns
    let m := { m with tcp_conns }
    match polled with
    | .event conn event => (some (.Http conn event), m)
    | .closed id kit => (some (.Closed id), (m.return_kit kit).note_close_reason id .HttpClosed)
    | .nothing =>
      let (event, quic_conns) := poll_quic scratch_len m.quic_conns
      let m := { m with quic_conns }
      match event with
      | some event => (some event, m)
      | none => (none, { m with tcp_conns := m.tcp_conns.filter (!·.state.is_closed) })

/-! ## The application -/

/-- A call on a stream of a connection: over TCP if that is established, else over QUIC. -/
def on_stream {α : Type} (id : Nat) (tcp : HttpConn X BUF → α × HttpConn X BUF) (quic : Q → α × Q)
    (otherwise : α) (m : ServerManager X BUF Q A) : α × ServerManager X BUF Q A :=
  match m.find_tcp id with
  | some { state := .Established http, .. } =>
    let (r, http) := tcp http
    (r, m.set_state id (.Established http))
  | _ =>
    match m.find_quic id with
    | some qconn =>
      let (r, server) := quic qconn.server
      (r, m.set_server id server)
    | none => (otherwise, m)

/-- Reads request headers: those it emits are there even if it fails. -/
def recv_headers (id stream_id : Nat) : ServerManager X BUF Q A →
    (Except Error Unit × List (Bytes × Bytes)) × ServerManager X BUF Q A :=
  on_stream id (HttpConn.recv_headers stream_id) (H3Server.recv_headers stream_id)
    (.error .InvalidState, [])

def recv_body (id stream_id room : Nat) : ServerManager X BUF Q A →
    Except Error (Bytes × Bool) × ServerManager X BUF Q A :=
  on_stream id (HttpConn.recv_body stream_id room) (H3Server.recv_body stream_id room)
    (.error .InvalidState)

def send_response (id stream_id status : Nat) (headers : List (Bytes × Bytes)) (end_stream : Bool) :
    ServerManager X BUF Q A → Except Error Unit × ServerManager X BUF Q A :=
  on_stream id (HttpConn.send_response stream_id status headers end_stream)
    (H3Server.send_response stream_id status headers end_stream) (.error .InvalidState)

def send_body (id stream_id : Nat) (data : Bytes) (end_stream : Bool) :
    ServerManager X BUF Q A → Except Error Nat × ServerManager X BUF Q A :=
  on_stream id (HttpConn.send_body stream_id data end_stream)
    (H3Server.send_body stream_id data end_stream) (.error .InvalidState)

/-- Stops a request's body. There is no such call for QUIC. -/
def discard_body (id stream_id error_code : Nat) (m : ServerManager X BUF Q A) :
    Except Error Unit × ServerManager X BUF Q A :=
  match m.find_tcp id with
  | some { state := .Established http, .. } =>
    let (r, http) := http.discard_body stream_id error_code
    (r, m.set_state id (.Established http))
  | _ => (.error .InvalidState, m)

/-! ## The end of connections -/

/-- Closes TLS handshakes that have taken too long, and drives the timers of HTTP connections: the
ids and the kits of those that are closed, and what is left of all of them. -/
def expire_tcp (handshake_timeout_us now : Nat) :
    List (TcpConn X BUF) → List Nat × List TlsBufKit × List (TcpConn X BUF)
  | [] => ([], [], [])
  | conn :: rest =>
    let (timed_out, reclaimed_kits, rest) := expire_tcp handshake_timeout_us now rest
    match conn.state with
    | .Handshaking parts =>
      if now ≥ saturating_add conn.accepted_at handshake_timeout_us then
        let (kit, state) := TcpState.reclaim_and_close (.Handshaking parts)
        (conn.id :: timed_out, kit.toList ++ reclaimed_kits, { conn with state } :: rest)
      else (timed_out, reclaimed_kits, conn :: rest)
    | .Established http =>
      (timed_out, reclaimed_kits,
        { conn with state := .Established (http.handle_timeout now) } :: rest)
    | .Closed => (timed_out, reclaimed_kits, conn :: rest)

def handle_tcp_timeouts (now : Nat) (m : ServerManager X BUF Q A) : ServerManager X BUF Q A :=
  let (timed_out, reclaimed_kits, tcp_conns) :=
    expire_tcp m.config.handshake_timeout_us now m.tcp_conns
  let m := { m with tcp_conns, free_kits := m.free_kits ++ reclaimed_kits }
  timed_out.foldl (fun m id => m.report_closed id .HandshakeTimeout) m

def handle_timeouts (now : Nat) (m : ServerManager X BUF Q A) (pool : P) :
    ServerManager X BUF Q A × P :=
  (m.handle_tcp_timeouts now).reap_quic_conns now pool

/-- The number of events that wait in an HTTP connection. -/
def queued_events (c : HttpConn X BUF) : Nat :=
  match c.conn with
  | .http1 s => s.events.length + 1
  | .https1 s => s.http.events.length + 1
  | .h2 s => s.h2.events.length

/-- The events of an HTTP connection until there is none. -/
def drain : Nat → HttpConn X BUF → List HttpEvent × HttpConn X BUF
  | 0, http => ([], http)
  | n + 1, http =>
    match http.poll_event with
    | (none, http) => ([], http)
    | (some event, http) =>
      let (events, http) := drain n http
      (event :: events, http)

/-- The peer has sent its last byte. Its events are queued before the connection is closed. -/
def tcp_eof (id : Nat) (m : ServerManager X BUF Q A) : ServerManager X BUF Q A :=
  match m.find_tcp id with
  | none => m
  | some conn =>
    match conn.state with
    | .Closed => m
    | .Handshaking parts => (m.close_tcp id (.Handshaking parts)).report_closed id .PeerEof
    | .Established http =>
      let (drained, http) := drain (queued_events http) http
      let m := m.close_tcp id (.Established http)
      (drained.foldl (fun m event => m.push_server_event (.Http id event)) m).report_closed id .PeerEof

/-- Closes a connection. -/
def close (id : Nat) (m : ServerManager X BUF Q A) : Except Error Unit × ServerManager X BUF Q A :=
  match m.find_tcp id with
  | some conn =>
    if conn.state.is_closed then (.ok (), m)
    else (.ok (), (m.close_tcp id conn.state).report_closed id .AppClose)
  | none =>
    match m.find_quic id with
    | some qconn => (.ok (), m.set_server id (H3Server.close 0 [] qconn.server))
    | none => (.error .InvalidState, m)

end ServerManager

/-! ## Calls -/

/-- A call, with what it is given. A pool is lent to a call. -/
inductive Op (A P : Type) where
  | add_tls_buffer_kit (kit : TlsBufKit)
  | take_tls_buffer_kit
  | note_close_reason (id : Nat) (reason : CloseReason)
  | take_close_reason (id : Nat)
  | accept_tcp (secret random : Bytes) (now : Nat)
  | accept_tcp_cleartext (now : Nat)
  | tcp_feed (id : Nat) (data : Bytes) (now : Nat)
  | tcp_poll_output (id room : Nat)
  | udp_feed (data : Bytes) (addr : A) (now : Instant) (draws : Draws) (pool : P)
  | udp_poll_transmit (buf_len : Nat) (now : Instant) (pool : P)
  | poll_event (scratch_len : Nat)
  | recv_headers (id stream_id : Nat)
  | recv_body (id stream_id room : Nat)
  | discard_body (id stream_id error_code : Nat)
  | send_response (id stream_id status : Nat) (headers : List (Bytes × Bytes)) (end_stream : Bool)
  | send_body (id stream_id : Nat) (data : Bytes) (end_stream : Bool)
  | handle_timeouts (now : Instant) (pool : P)
  | tcp_eof (id : Nat)
  | close (id : Nat)

/-- What is left of a call, whether it returns an error or not. Nothing is done after a panic. -/
def Op.apply : Op A P → ServerManager X BUF Q A → ServerManager X BUF Q A
  | .add_tls_buffer_kit kit, m => m.add_tls_buffer_kit kit
  | .take_tls_buffer_kit, m => m.take_tls_buffer_kit.2
  | .note_close_reason id reason, m => m.note_close_reason id reason
  | .take_close_reason id, m => (m.take_close_reason id).2
  | .accept_tcp secret random now, m => ((m.accept_tcp secret random now).map Prod.snd).getD m
  | .accept_tcp_cleartext now, m => (m.accept_tcp_cleartext now).2
  | .tcp_feed id data now, m => (m.tcp_feed id data now).2
  | .tcp_poll_output id room, m => (m.tcp_poll_output id room).2
  | .udp_feed data addr now draws pool, m =>
    ((m.udp_feed data addr now draws pool).map (·.2.1)).getD m
  | .udp_poll_transmit buf_len now pool, m => (m.udp_poll_transmit buf_len now pool).2.1
  | .poll_event scratch_len, m => (m.poll_event scratch_len).2
  | .recv_headers id stream_id, m => (m.recv_headers id stream_id).2
  | .recv_body id stream_id room, m => (m.recv_body id stream_id room).2
  | .discard_body id stream_id error_code, m => (m.discard_body id stream_id error_code).2
  | .send_response id stream_id status headers end_stream, m =>
    (m.send_response id stream_id status headers end_stream).2
  | .send_body id stream_id data end_stream, m => (m.send_body id stream_id data end_stream).2
  | .handle_timeouts now pool, m => (m.handle_timeouts now pool).1
  | .tcp_eof id, m => m.tcp_eof id
  | .close id, m => (m.close id).2

end milli_http.manager
