-- The state of a QUIC connection (connection/mod.rs, connection/io.rs,
-- connection/handshake_pool.rs), its two constructors and its small helpers.
import MilliHttp.Connection.Keys
import MilliHttp.Connection.Trackers
import MilliHttp.Packet
import MilliHttp.Transport.FlowControl
import MilliHttp.Transport.Recovery
import MilliHttp.Transport.Stream

open bytes method

namespace milli_http.connection

open crypto tls transport

/-- A build of the crate: the primitives it links and its const generics. `EVENTS` is the
capacity of the event queue, 16 without the alloc feature and 64 with it. -/
structure Build extends Primitives where
  MAX_STREAMS : Nat
  SENT_PER_SPACE : Nat
  MAX_CIDS : Nat
  CRYPTO_BUF : Nat
  STREAM_BUF : Nat
  SEND_QUEUE : Nat
  EVENTS : Nat

inductive ConnectionState where
  | Handshaking
  | Active
  | Draining
  | Closing
  | Closed
  deriving DecidableEq, Repr

/-- Events for the application. -/
inductive Event where
  | Connected
  | StreamOpened (stream_id : Nat)
  | StreamReadable (stream_id : Nat)
  | StreamWritable (stream_id : Nat)
  | StreamReset (stream_id error_code : Nat)
  | StopSending (stream_id error_code : Nat)
  | StreamFinished (stream_id : Nat)
  | ConnectionClose (error_code : Nat) (reason : Bytes)
  deriving DecidableEq, Repr

/-- A connection id, as the bytes it has: at most 20. -/
abbrev ConnectionId := Bytes

namespace ConnectionId

def from_slice (data : Bytes) : ConnectionId := data.take 20

end ConnectionId

/-- Stream data waiting to be sent. -/
structure StreamSendEntry where
  stream_id : Nat
  offset : Nat
  data : Bytes
  fin : Bool
  deriving DecidableEq, Repr

/-- The receive buffer of one stream: `data` is what it holds. -/
structure StreamRecvBuf where
  stream_id : Nat
  data : Bytes
  read_offset : Nat
  fin_received : Bool
  next_offset : Nat
  deriving DecidableEq, Repr

/-- The stream buffers the caller lends to every call. -/
structure QuicStreamIo where
  send_queue : List StreamSendEntry
  recv_bufs : List (Option StreamRecvBuf)
  deriving DecidableEq, Repr

/-- Handshake-only state: the TLS engine, the CRYPTO streams to send and to reassemble. -/
structure HandshakeContext where
  tls : TlsEngine
  pending_crypto : PerLevel Bytes
  crypto_reasm : PerLevel CryptoReassemblyBuf
  crypto_send_offset : PerLevel Nat
  deriving DecidableEq, Repr

/-- A QUIC connection. The handshake slot holds the context the source keeps in its pool
under the slot's index; the stream buffers are the ones the caller lends to every call. -/
structure Connection (B : Build) where
  state : ConnectionState
  role : Role
  keys : ConnectionKeys B.toPrimitives
  streams : StreamMap
  sent_tracker : SentPacketTracker
  loss_detector : LossDetector
  congestion : CongestionController
  flow_control : FlowController
  handshake_slot : Option HandshakeContext
  local_cids : List ConnectionId
  remote_cid : ConnectionId
  next_pn : PerLevel Nat
  largest_recv_pn : PerLevel (Option Nat)
  recv_pn_tracker : PerLevel RecvPnTracker
  ack_eliciting_received : PerLevel Bool
  local_params : TransportParams
  peer_params : Option TransportParams
  events : List Event
  close_frame : Option (Nat × Bytes)
  idle_timeout : Option Nat
  last_activity : Instant
  crypto_rewind_pending : Bool
  need_handshake_done : Bool
  pending_path_response : Option Bytes
  anti_amplification_bytes_received : Nat
  anti_amplification_bytes_sent : Nat
  address_validated : Bool
  sio : QuicStreamIo

variable {B : Build}

/-- `saturating_add` of `usize` and `u64`. -/
def saturating_add (a b : Nat) : Nat := min (a + b) U64_MAX

/-- A context for a fresh engine. -/
def HandshakeContext.new (CRYPTO_BUF : Nat) (tls : TlsEngine) : HandshakeContext where
  tls := tls
  pending_crypto := .replicate []
  crypto_reasm := .replicate (.new CRYPTO_BUF)
  crypto_send_offset := .replicate 0

/-- What the two constructors have in common. -/
def Connection.fresh (B : Build) (role : Role) (keys : ConnectionKeys B.toPrimitives)
    (tls : TlsEngine) (local_cid remote_cid : ConnectionId) (tp : TransportParams) :
    Connection B where
  state := .Handshaking
  role := role
  keys := keys
  streams := .new
  sent_tracker := .new
  loss_detector := .new (tp.max_ack_delay * 1000)
  congestion := .new 1200
  flow_control := .new tp.initial_max_data tp.initial_max_streams_bidi tp.initial_max_streams_uni
  handshake_slot := some (.new B.CRYPTO_BUF tls)
  local_cids := [local_cid].take B.MAX_CIDS
  remote_cid := remote_cid
  next_pn := .replicate 0
  largest_recv_pn := .replicate none
  recv_pn_tracker := .replicate .new
  ack_eliciting_received := .replicate false
  local_params := tp
  peer_params := none
  events := []
  close_frame := none
  idle_timeout := none
  last_activity := 0
  crypto_rewind_pending := false
  need_handshake_done := role == .Server
  pending_path_response := none
  anti_amplification_bytes_received := 0
  anti_amplification_bytes_sent := 0
  address_validated := role == .Client
  sio := { send_queue := [], recv_bufs := [] }

/-- A new client connection. The four byte strings are what the source draws from its random
number generator: the X25519 secret, the ClientHello random and the two connection ids. -/
def Connection.client (B : Build) (server_name : Bytes) (alpn : List Bytes) (tp : TransportParams)
    (secret_bytes random local_cid initial_dcid : Bytes) : Except Error (Connection B) :=
  if server_name.length > 64 then .error .Tls
  else
    let config : TlsConfig :=
      { server_name, alpn_protocols := alpn
        transport_params := { tp with initial_scid := local_cid.take 20 }, pinned_certs := [] }
    let tls := TlsEngine.new_client B.toPrimitives config secret_bytes random
    match ConnectionKeys.derive_initial (X := B.toPrimitives) initial_dcid true .new with
    | (.ok (), keys) => .ok (Connection.fresh B .Client keys tls local_cid initial_dcid tp)
    | (.error e, _) => .error e

/-- A client can always be started, unless the server's name is too long. -/
theorem Connection.client_ok (B : Build) (server_name : Bytes) (h : server_name.length ≤ 64)
    (alpn : List Bytes) (tp : TransportParams) (secret_bytes random local_cid initial_dcid : Bytes) :
    ∃ c, Connection.client B server_name alpn tp secret_bytes random local_cid initial_dcid =
      .ok c := by
  obtain ⟨c, s, hkeys⟩ := ConnectionKeys.initial_keys_ok B.toPrimitives initial_dcid
  unfold Connection.client
  rw [if_neg (by omega)]
  simp only [ConnectionKeys.derive_initial, hkeys, Method.bind_run, Method.lift_run, if_true,
    Method.modify_run]
  exact ⟨_, rfl⟩

/-- A new server connection. It has no keys until the first Initial arrives. -/
def Connection.server (B : Build) (config : ServerTlsConfig) (tp : TransportParams)
    (secret_bytes random local_cid : Bytes) : Connection B :=
  Connection.fresh B .Server .new (TlsEngine.new_server B.toPrimitives config secret_bytes random)
    local_cid [] tp

namespace Connection

/-- The first local connection id, empty if there is none. -/
def local_scid (c : Connection B) : Bytes := c.local_cids.headD []

/-- Pushes an event; a full queue drops it. -/
def push_event (c : Connection B) (event : Event) : Connection B :=
  if c.events.length < B.EVENTS then { c with events := c.events ++ [event] } else c

/-- Whether the anti-amplification limit allows `bytes` more. -/
def amplification_allows (c : Connection B) (bytes : Nat) : Bool :=
  c.address_validated ||
    c.anti_amplification_bytes_sent + bytes ≤ 3 * c.anti_amplification_bytes_received

/-- Tracks a received packet number for ACK generation. -/
def track_received_pn (c : Connection B) (level : Level) (pn : Nat) : Connection B :=
  { c with recv_pn_tracker :=
      c.recv_pn_tracker.set level ((c.recv_pn_tracker.get level).record pn) }

/-- Forgets a level: its keys are gone, so are its packets and timers. -/
def drop_space (c : Connection B) (level : Level) : Connection B :=
  { c with
    sent_tracker := c.sent_tracker.drop_space level
    loss_detector := c.loss_detector.drop_space level }

end Connection

end milli_http.connection
