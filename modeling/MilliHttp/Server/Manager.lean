-- The QUIC side of the server manager (server/mod.rs, packet/decode_dcid.rs): datagrams are routed
-- to a connection by their destination connection id, or open a new one.
import MilliHttp.Connection.HandshakePool

open bytes method

namespace milli_http.server_manager

open crypto tls transport connection

variable {B : Build} {A : Type} {N : Nat}

/-! ## Routing -/

/-- The destination connection id of a datagram. A short header does not say how long it is. -/
def decode_dcid (datagram : Bytes) (short_header_dcid_len : Nat) : Option Bytes :=
  match datagram with
  | [] => none
  | first_byte :: _ =>
    if first_byte &&& 0x80 ≠ 0 then
      match datagram[5]? with
      | none => none
      | some dcid_len =>
        if datagram.length < 6 + dcid_len.toNat then none
        else some ((datagram.drop 6).take dcid_len.toNat)
    else if datagram.length < 1 + short_header_dcid_len then none
    else some ((datagram.drop 1).take short_header_dcid_len)

/-- A QUIC connection of the manager. Of its HTTP/3 server only the QUIC connection below it is
concerned with datagrams. -/
structure QuicConn (B : Build) (A : Type) where
  id : Nat
  server : PooledConnection B
  peer_addr : A
  local_cids : List ConnectionId
  /-- What the client addressed its first Initial to. -/
  original_dcid : ConnectionId
  created_at : Instant

/-- A connection is found by its own ids, and by the one the client chose for it. -/
def QuicConn.matched (dcid : Bytes) (qconn : QuicConn B A) : Bool :=
  qconn.local_cids.any (· == dcid) || qconn.original_dcid == dcid

/-! ## The manager -/

structure ServerManager (B : Build) (A : Type) where
  quic_conns : List (QuicConn B A)
  next_id : Nat
  tls_config : ServerTlsConfig
  max_quic_conns : Nat
  handshake_timeout_us : Nat

namespace ServerManager

/-- The connection a datagram belongs to. -/
def route (data : Bytes) (m : ServerManager B A) : Option Nat :=
  (decode_dcid data 8).bind fun dcid => m.quic_conns.findIdx? (·.matched dcid)

/-- A connection is closed, or its handshake has taken too long. -/
def dead (handshake_timeout_us : Nat) (now : Instant) (qconn : QuicConn B A) : Bool :=
  decide (qconn.server.conn.state = .Closed ∨ (qconn.server.conn.state ≠ .Active ∧
    now ≥ saturating_add qconn.created_at handshake_timeout_us))

/-- Drives the timers of connections and removes the dead ones, which give back their slots. -/
def reap (handshake_timeout_us : Nat) (now : Instant) :
    List (QuicConn B A) → HandshakePool N → List (QuicConn B A) × HandshakePool N
  | [], pool => ([], pool)
  | qconn :: rest, pool =>
    let (server, pool) := qconn.server.op (.handle_timeout now) pool
    if dead handshake_timeout_us now { qconn with server } then
      reap handshake_timeout_us now rest (server.release_handshake_slot pool).2
    else
      let (rest, pool) := reap handshake_timeout_us now rest pool
      ({ qconn with server } :: rest, pool)

def reap_quic_conns (now : Instant) (m : ServerManager B A) (pool : HandshakePool N) :
    ServerManager B A × HandshakePool N :=
  let (quic_conns, pool) := reap m.handshake_timeout_us now m.quic_conns pool
  ({ m with quic_conns }, pool)

def handle_timeouts (now : Instant) (m : ServerManager B A) (pool : HandshakePool N) :
    ServerManager B A × HandshakePool N := m.reap_quic_conns now pool

/-- There is no room for another connection. -/
def full (m : ServerManager B A) : Bool := m.quic_conns.length ≥ m.max_quic_conns

/-- Before a connection is refused the dead ones make room. -/
def make_room (now : Instant) (m : ServerManager B A) (pool : HandshakePool N) :
    ServerManager B A × HandshakePool N :=
  if m.full then m.reap_quic_conns now pool else (m, pool)

/-- Feeds a datagram to a connection. -/
def feed_conn (i : Nat) (data : Bytes) (now : Instant) (m : ServerManager B A)
    (pool : HandshakePool N) :
    Option (Except Error Unit × ServerManager B A × HandshakePool N) := do
  let qconn ← m.quic_conns[i]?
  let (r, server, pool) ← qconn.server.recv data 2048 now pool
  pure (r, { m with quic_conns := m.quic_conns.set i { qconn with server } }, pool)

/-- Opens a connection for a datagram. It is not kept if the datagram is an error to it. -/
def open_conn (data : Bytes) (addr : A) (now : Instant) (draws : Draws) (m : ServerManager B A)
    (pool : HandshakePool N) :
    Option (Except Error Unit × ServerManager B A × HandshakePool N) :=
  let id := m.next_id
  let m := { m with next_id := m.next_id + 1 }
  match PooledConnection.server B m.tls_config .default_params draws pool with
  | (.error e, pool) => some (.error e, m, pool)
  | (.ok server, pool) => do
    let local_cids := server.conn.local_cids
    match ← server.recv data 2048 now pool with
    | (.error e, server, pool) => pure (.error e, m, (server.release_handshake_slot pool).2)
    | (.ok _, server, pool) =>
      let original_dcid := ((decode_dcid data 8).map ConnectionId.from_slice).getD []
      let qconn :=
        { id, server, peer_addr := addr, local_cids, original_dcid, created_at := now }
      pure (.ok (), { m with quic_conns := m.quic_conns ++ [qconn] }, pool)

/-- Feeds a UDP datagram, or panics. -/
def udp_feed (data : Bytes) (addr : A) (now : Instant) (draws : Draws) (m : ServerManager B A)
    (pool : HandshakePool N) :
    Option (Except Error Unit × ServerManager B A × HandshakePool N) :=
  match m.route data with
  | some i => m.feed_conn i data now pool
  | none =>
    let (m, pool) := m.make_room now pool
    if m.full then some (.error .StreamLimitExhausted, m, pool)
    else m.open_conn data addr now draws pool

/-- The first connection that has a datagram to send builds it. -/
def first_transmit (buf_len : Nat) (now : Instant) :
    List (QuicConn B A) → HandshakePool N →
      Option (A × Transmit) × List (QuicConn B A) × HandshakePool N
  | [], pool => (none, [], pool)
  | qconn :: rest, pool =>
    match qconn.server.poll_transmit buf_len now pool with
    | (some tx, server, pool) => (some (qconn.peer_addr, tx), { qconn with server } :: rest, pool)
    | (none, server, pool) =>
      let (tx, rest, pool) := first_transmit buf_len now rest pool
      (tx, { qconn with server } :: rest, pool)

/-- Pulls the next outgoing UDP datagram. -/
def udp_poll_transmit (buf_len : Nat) (now : Instant) (m : ServerManager B A)
    (pool : HandshakePool N) : Option (A × Transmit) × ServerManager B A × HandshakePool N :=
  let (tx, quic_conns, pool) := first_transmit buf_len now m.quic_conns pool
  (tx, { m with quic_conns }, pool)

/-- A call of the HTTP/3 server on its QUIC connection. -/
def on_conn (i : Nat) (o : Op) (m : ServerManager B A) (pool : HandshakePool N) :
    ServerManager B A × HandshakePool N :=
  match m.quic_conns[i]? with
  | none => (m, pool)
  | some qconn =>
    let (server, pool) := qconn.server.op o pool
    ({ m with quic_conns := m.quic_conns.set i { qconn with server } }, pool)

/-- Closes a QUIC connection. -/
def close (id : Nat) (m : ServerManager B A) (pool : HandshakePool N) :
    Except Error Unit × ServerManager B A × HandshakePool N :=
  match m.quic_conns.findIdx? (·.id = id) with
  | none => (.error .InvalidState, m, pool)
  | some i => (.ok (), m.on_conn i (.close 0 []) pool)

end ServerManager

end milli_http.server_manager
