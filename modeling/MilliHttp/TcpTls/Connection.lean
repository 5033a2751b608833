-- The TLS connection over TCP (tcp_tls/connection.rs, tcp_tls/io.rs), of a build with the alloc
-- feature. The buffers the caller lends to every call are part of the connection. Beside them the
-- model keeps three histories that nothing reads: the records put into the send buffer, the
-- flights taken from the engine and what was handed to it.
import MilliHttp.Tls.Hashed
import MilliHttp.TcpTls.Record

open bytes method

namespace milli_http.tcp_tls

open crypto tls

/-! ## State -/

inductive TlsEvent where
  | HandshakeComplete
  | AppData
  | PeerClosed
  deriving DecidableEq, Repr

inductive ConnState where
  | Handshake
  | HandshakeEncrypted
  | Active
  | Closing
  | Closed
  deriving DecidableEq, Repr

/-- Where bytes handed to the engine come from. -/
inductive Origin where
  | plaintext
  | handshake_keys
  deriving DecidableEq, Repr

/-- Bytes handed to the engine, and the messages of them that it hashed. -/
structure Read where
  origin : Origin
  payload : Bytes
  hashed : List Hashed
  deriving DecidableEq, Repr

structure TlsConnection (X : Primitives) (BUF : Nat) where
  engine : TlsEngine
  state : ConnState
  send_offset : Nat
  hs_send : Option (DirectionalRecordKeys X)
  hs_recv : Option (DirectionalRecordKeys X)
  app_send : Option (DirectionalRecordKeys X)
  app_recv : Option (DirectionalRecordKeys X)
  send_seq : Nat
  recv_seq : Nat
  hs_send_seq : Nat
  hs_recv_seq : Nat
  peer_record_limit : Nat
  events : List TlsEvent
  engine_output_pending : Bool
  ccs_sent : Bool
  /-- The contents of the receive buffer, its hidden tail included. -/
  recv_buf : Bytes
  /-- How much of it is plaintext. Between calls this is what can be seen of the buffer. -/
  plain : Nat
  send_buf : Bytes
  app_send_buf : Bytes
  /-- The records that were put whole into the send buffer. -/
  records : List (Record X)
  /-- The flights that were taken from the engine. -/
  flights : List (Level × Bytes)
  /-- What was handed to the engine. -/
  reads : List Read

variable {X : Primitives} {BUF : Nat}

namespace TlsConnection

def new (engine : TlsEngine) : TlsConnection X BUF where
  engine := engine
  state := .Handshake
  send_offset := 0
  hs_send := none
  hs_recv := none
  app_send := none
  app_recv := none
  send_seq := 0
  recv_seq := 0
  hs_send_seq := 0
  hs_recv_seq := 0
  peer_record_limit := 16385
  events := []
  engine_output_pending := true
  ccs_sent := false
  recv_buf := []
  plain := 0
  send_buf := []
  app_send_buf := []
  records := []
  flights := []
  reads := []

def new_client (config : TlsConfig) (secret random : Bytes) : TlsConnection X BUF :=
  new (TlsEngine.new_tcp_client X config secret random)

def new_server (config : ServerTlsConfig) (secret random : Bytes) : TlsConnection X BUF :=
  new (TlsEngine.new_tcp_server X config secret random)

/-- The plaintext the application can see. -/
def visible (c : TlsConnection X BUF) : Bytes := c.recv_buf.take c.plain

/-- The tail of the receive buffer that is not decrypted yet. -/
def hidden (c : TlsConnection X BUF) : Bytes := c.recv_buf.drop c.plain

def is_active (c : TlsConnection X BUF) : Bool := c.state = .Active

def is_closed (c : TlsConnection X BUF) : Bool := c.state = .Closed ∨ c.state = .Closing

/-- `let _ = self.events.push_back(event)`, for a queue of 8. -/
def push_event (c : TlsConnection X BUF) (event : TlsEvent) : TlsConnection X BUF :=
  if c.events.length < 8 then { c with events := c.events ++ [event] } else c

/-- The plaintext a record to the peer may hold. -/
def peer_plaintext_cap (c : TlsConnection X BUF) : Nat := min (max (c.peer_record_limit - 1) 1) 16384

/-! ## Output -/

/-- Appends to the send buffer. -/
def queue_send (data : Bytes) : Method (TlsConnection X BUF) Error Unit := do
  let c ← Method.get
  Method.require (c.send_buf.length + data.length ≤ BUF)
    (.BufferTooSmall (c.send_buf.length + data.length))
  Method.modify fun c => { c with send_buf := c.send_buf ++ data }

/-- Adds a record to the history. -/
def note_record (r : Record X) : Method (TlsConnection X BUF) Error Unit :=
  Method.modify fun c => { c with records := c.records ++ [r] }

/-- Queues the header of a record, then its data. -/
def wrap_plaintext_record (ct : ContentType) (data : Bytes) :
    Method (TlsConnection X BUF) Error Unit := do
  queue_send (encode_record_header ct data.length)
  queue_send data
  note_record (.plaintext ct data)

/-- Queues a record in the clear at once, as alerts and ChangeCipherSpec are. -/
def queue_record (ct : ContentType) (data : Bytes) : Method (TlsConnection X BUF) Error Unit := do
  queue_send (encode_record_header ct data.length ++ data)
  note_record (.plaintext ct data)

/-- Seals a record into the send buffer. -/
def encrypt_into (data : Bytes) (inner_ct : ContentType) (keys : DirectionalRecordKeys X)
    (seq : Nat) : Method (TlsConnection X BUF) Error Unit := do
  let c ← Method.get
  let inner_len := data.length + 1
  let outer_payload_len := inner_len + TAG_LEN
  let total_needed := RECORD_HEADER_LEN + outer_payload_len
  Method.require (c.send_buf.length + total_needed ≤ BUF)
    (.BufferTooSmall (c.send_buf.length + total_needed))
  let header := encode_record_header .ApplicationData outer_payload_len
  let sealed_payload :=
    X.C.seal_in_place keys.aead (build_nonce keys.iv seq) header (data ++ [inner_ct.to_byte])
  Method.modify fun c => { c with send_buf := c.send_buf ++ (header ++ sealed_payload) }
  note_record (.sealed keys seq inner_ct data)

/-- Seals a record with the handshake keys or the application keys. The sequence number moves on
once the record is there. -/
def encrypt_and_send (data : Bytes) (inner_ct : ContentType) (use_hs_keys : Bool) :
    Method (TlsConnection X BUF) Error Unit := do
  let c ← Method.get
  if use_hs_keys then do
    let keys ← Method.okOr c.hs_send .Tls
    encrypt_into data inner_ct keys c.hs_send_seq
    Method.modify fun c => { c with hs_send_seq := c.hs_send_seq + 1 }
  else do
    let keys ← Method.okOr c.app_send .Tls
    encrypt_into data inner_ct keys c.send_seq
    Method.modify fun c => { c with send_seq := c.send_seq + 1 }

def send_alert (level desc : UInt8) : Method (TlsConnection X BUF) Error Unit := do
  let c ← Method.get
  if c.state = .Active then encrypt_and_send [level, desc] .Alert false
  else queue_record .Alert [level, desc]

/-! ## Keys -/

/-- Installs the keys of a level. -/
def install_keys (keys : DerivedKeys) : Method (TlsConnection X BUF) Error Unit :=
  match keys.level with
  | .Handshake => do
    let send ← Method.lift (derive_record_keys X keys.send_secret keys.cipher_suite)
    Method.modify fun c => { c with hs_send := some send }
    let recv ← Method.lift (derive_record_keys X keys.recv_secret keys.cipher_suite)
    Method.modify fun c =>
      { c with
        hs_recv := some recv
        hs_send_seq := 0
        hs_recv_seq := 0
        state := .HandshakeEncrypted
        engine_output_pending := true }
  | .Application => do
    let send ← Method.lift (derive_record_keys X keys.send_secret keys.cipher_suite)
    Method.modify fun c => { c with app_send := some send }
    let recv ← Method.lift (derive_record_keys X keys.recv_secret keys.cipher_suite)
    Method.modify fun c => { c with app_recv := some recv, engine_output_pending := true }
  | .Initial => pure ()

/-- What `check_keys` does once the handshake is complete. -/
def activate (c : TlsConnection X BUF) : TlsConnection X BUF :=
  push_event
    { c with
      state := .Active
      send_seq := 0
      recv_seq := 0
      engine := c.engine.shrink_post_handshake
      hs_send := none
      hs_recv := none } .HandshakeComplete

/-- Picks up the peer's record size limit and the keys that are ready. The engine has at most one
set of keys ready, so the loop over them is one turn. -/
def check_keys : Method (TlsConnection X BUF) Error Unit := do
  Method.modify fun c =>
    { c with peer_record_limit := c.engine.peer_record_size_limit.getD c.peer_record_limit }
  let c ← Method.get
  Method.modify fun c => { c with engine := c.engine.derived_keys.2 }
  match c.engine.derived_keys.1 with
  | some keys => install_keys keys
  | none => pure ()
  Method.modify fun c => if c.engine.complete ∧ c.state ≠ .Active then c.activate else c

/-! ## Flushing -/

/-- Sends the pieces of a flight, each in a record of its own. -/
def send_fragments : List Bytes → Method (TlsConnection X BUF) Error Unit
  | [] => pure ()
  | piece :: pieces => do
    Method.ignore (encrypt_and_send piece .Handshake true)
    send_fragments pieces

/-- Sends a flight of a level. What does not fit the send buffer is dropped. -/
def send_flight (level : Level) (flight : Bytes) : Method (TlsConnection X BUF) Error Unit :=
  match level with
  | .Initial => Method.ignore (wrap_plaintext_record .Handshake flight)
  | .Handshake => do
    let c ← Method.get
    if c.ccs_sent then pure ()
    else do
      Method.ignore (queue_record .ChangeCipherSpec [0x01])
      Method.modify fun c => { c with ccs_sent := true }
    let c ← Method.get
    send_fragments (fragments c.peer_plaintext_cap flight.length flight)
  | .Application => pure ()

/-- Takes flights from the engine, each of at most 2048 bytes, until it has none. -/
def flush_flights : Nat → Method (TlsConnection X BUF) Error Unit
  | 0 => pure ()
  | fuel + 1 => do
    let c ← Method.get
    Method.modify fun c => { c with engine := (c.engine.write_handshake X 2048).2 }
    match (c.engine.write_handshake X 2048).1 with
    | .error _ => pure ()
    | .ok (flight, level) =>
      if flight = [] then pure ()
      else do
        Method.modify fun c => { c with flights := c.flights ++ [(level, flight)] }
        send_flight level flight
        flush_flights fuel

/-- An engine has two flights at most, so three turns are enough. -/
def flush_engine_output : Method (TlsConnection X BUF) Error Unit := do
  let c ← Method.get
  if c.engine_output_pending then do
    flush_flights 3
    Method.ignore check_keys
    Method.modify fun c => { c with engine_output_pending := false }
  else pure ()

/-- Seals queued application data, as much at a time as the peer's limit allows, until the send
buffer is full. -/
def flush_app_records (cap : Nat) : Nat → Method (TlsConnection X BUF) Error Unit
  | 0 => pure ()
  | fuel + 1 => do
    let c ← Method.get
    match c.app_send with
    | none => pure ()
    | some keys =>
      if c.app_send_buf = [] then pure ()
      else do
        encrypt_into (c.app_send_buf.take cap) .ApplicationData keys c.send_seq
        Method.modify fun c =>
          { c with send_seq := c.send_seq + 1, app_send_buf := c.app_send_buf.drop cap }
        flush_app_records cap fuel

def flush_app_send : Method (TlsConnection X BUF) Error Unit := do
  let c ← Method.get
  if c.app_send_buf = [] ∨ c.state ≠ .Active then pure ()
  else Method.ignore (flush_app_records c.peer_plaintext_cap c.app_send_buf.length)

/-! ## Input -/

/-- `remove_range(io, start, end)`. -/
def remove_range (first last : Nat) : Method (TlsConnection X BUF) Error Unit :=
  Method.modify fun c => { c with recv_buf := c.recv_buf.take first ++ c.recv_buf.drop last }

def handle_alert_desc (desc : UInt8) : Method (TlsConnection X BUF) Error Unit :=
  if desc = 0 then Method.modify fun c => push_event { c with state := .Closing } .PeerClosed
  else do
    Method.modify fun c => { c with state := .Closed }
    Method.fail .Tls

/-- Hands bytes to the engine. Every error of it is a TLS error. -/
def read_handshake (origin : Origin) (level : Level) (data : Bytes) :
    Method (TlsConnection X BUF) Error Unit := do
  let c ← Method.get
  let read : Read := { origin, payload := data, hashed := c.engine.hashed X level data }
  Method.modify fun c =>
    { c with engine := (c.engine.read_handshake X level data).2, reads := c.reads ++ [read] }
  Method.require ((c.engine.read_handshake X level data).1 = .ok ()) .Tls

/-- Decrypts the payload of a record where it lies. Its tag stays behind the plaintext. -/
def open_payload (keys : DirectionalRecordKeys X) (seq : Nat) (header : Bytes) (ps len : Nat) :
    Method (TlsConnection X BUF) Error Bytes := do
  let c ← Method.get
  let plaintext ← Method.lift (X.C.open_in_place keys.aead (build_nonce keys.iv seq) header
    ((c.recv_buf.drop ps).take len))
  Method.modify fun c => { c with recv_buf := overwrite c.recv_buf ps plaintext }
  pure plaintext

/-- What is to be done with a record behind its own handling. -/
inductive Handled where
  /-- It is removed. -/
  | skip
  /-- It is removed, and the engine may have keys. -/
  | check
  /-- So many bytes of it are plaintext for the application. -/
  | keep (data_len : Nat)
  /-- It is removed, and processing ends with the alert. -/
  | alert (desc : UInt8)
  deriving DecidableEq, Repr

/-- The alert of a payload. -/
def handle_alert (data : Bytes) : Method (TlsConnection X BUF) Error Handled := do
  Method.require (2 ≤ data.length) .Tls
  pure (.alert (data.getD 1 0))

/-- A record before there are handshake keys. -/
def handle_plain_record (ct : ContentType) (payload : Bytes) :
    Method (TlsConnection X BUF) Error Handled :=
  match ct with
  | .Handshake => do
    read_handshake .plaintext .Initial payload
    pure .check
  | .ChangeCipherSpec => pure .skip
  | .Alert => handle_alert payload
  | .ApplicationData => Method.fail .Tls

/-- A record while the handshake is encrypted. -/
def handle_handshake_record (ct : ContentType) (header payload : Bytes) (ps : Nat) :
    Method (TlsConnection X BUF) Error Handled :=
  match ct with
  | .ApplicationData => do
    let c ← Method.get
    let keys ← Method.okOr c.hs_recv .Tls
    let plaintext ← open_payload keys c.hs_recv_seq header ps payload.length
    Method.modify fun c => { c with hs_recv_seq := c.hs_recv_seq + 1 }
    let (data_len, inner_ct) ← Method.lift (find_inner_content_type plaintext)
    match inner_ct with
    | .Handshake => do
      read_handshake .handshake_keys .Handshake (plaintext.take data_len)
      pure .check
    | .Alert => handle_alert (plaintext.take data_len)
    | _ => Method.fail .Tls
  | .ChangeCipherSpec => pure .skip
  | .Handshake => do
    read_handshake .plaintext .Initial payload
    pure .check
  | .Alert => Method.fail .Tls

/-- A record of an active connection. -/
def handle_active_record (ct : ContentType) (header payload : Bytes) (ps : Nat) :
    Method (TlsConnection X BUF) Error Handled :=
  match ct with
  | .ApplicationData => do
    let c ← Method.get
    let keys ← Method.okOr c.app_recv .Tls
    let plaintext ← open_payload keys c.recv_seq header ps payload.length
    Method.modify fun c => { c with recv_seq := c.recv_seq + 1 }
    let (data_len, inner_ct) ← Method.lift (find_inner_content_type plaintext)
    match inner_ct with
    | .ApplicationData => pure (.keep data_len)
    | .Alert => handle_alert (plaintext.take data_len)
    | .Handshake => pure .skip
    | .ChangeCipherSpec => Method.fail .Tls
  | .ChangeCipherSpec => pure .skip
  | _ => Method.fail .Tls

/-- The `match self.state` of `process_recv`. -/
def handle_record (ct : ContentType) (header payload : Bytes) (ps : Nat) :
    Method (TlsConnection X BUF) Error Handled := do
  let c ← Method.get
  match c.state with
  | .Handshake => handle_plain_record ct payload
  | .HandshakeEncrypted => handle_handshake_record ct header payload ps
  | .Active => handle_active_record ct header payload ps
  | .Closing | .Closed => pure .skip

/-- Takes the record that was handled, from `off` on, out of the receive buffer. Plaintext for the
application is moved down over the header. The result says whether to go on. -/
def finish_record (off total : Nat) : Handled → Method (TlsConnection X BUF) Error Bool
  | .skip => do
    remove_range off (off + total)
    pure true
  | .check => do
    remove_range off (off + total)
    check_keys
    pure true
  | .keep data_len => do
    let c ← Method.get
    let plaintext := (c.recv_buf.drop (off + RECORD_HEADER_LEN)).take data_len
    Method.modify fun c => { c with recv_buf := overwrite c.recv_buf off plaintext }
    remove_range (off + data_len) (off + total)
    Method.modify fun c => push_event { c with plain := c.plain + data_len } .AppData
    pure true
  | .alert desc => do
    remove_range off (off + total)
    handle_alert_desc desc
    pure false

/-- One turn of the loop of `process_recv`. -/
def process_record : Method (TlsConnection X BUF) Error Bool := do
  let c ← Method.get
  let off := c.plain
  if c.recv_buf.length - off < RECORD_HEADER_LEN then pure false
  else do
    let header := (c.recv_buf.drop off).take RECORD_HEADER_LEN
    let hdr ← Method.lift (decode_record_header header)
    let total := RECORD_HEADER_LEN + hdr.length
    -- A record larger than the buffer can never be assembled.
    Method.require (¬ total > BUF) (.BufferTooSmall total)
    if c.recv_buf.length - off < total then pure false
    else do
      let ps := off + RECORD_HEADER_LEN
      let handled ←
        handle_record hdr.content_type header ((c.recv_buf.drop ps).take hdr.length) ps
      finish_record off total handled

/-- Processes the records in the receive buffer. Every turn that goes on removes a record. -/
def process_recv : Nat → Method (TlsConnection X BUF) Error Unit
  | 0 => pure ()
  | fuel + 1 => do
    let more ← process_record
    if more then process_recv fuel else pure ()

/-! ## The calls of the application -/

/-- Feeds raw TCP data into the connection. -/
def feed_data (data : Bytes) : Method (TlsConnection X BUF) Error Unit := do
  Method.modify fun c =>
    { c with engine := c.engine.set_local_record_size_limit (local_record_size_limit BUF) }
  let c ← Method.get
  Method.require (c.recv_buf.length + data.length ≤ BUF)
    (.BufferTooSmall (c.recv_buf.length + data.length))
  Method.modify fun c => { c with recv_buf := c.recv_buf ++ data }
  let c ← Method.get
  process_recv (c.recv_buf.length + 1)

/-- Pulls the next chunk of outgoing TCP data, into a buffer of `buf_len` bytes. -/
def poll_output (buf_len : Nat) (c : TlsConnection X BUF) : Option Bytes × TlsConnection X BUF :=
  let c := { c with engine := c.engine.set_local_record_size_limit (local_record_size_limit BUF) }
  let c := (flush_engine_output c).2
  let c := (flush_app_send c).2
  if c.send_offset ≥ c.send_buf.length then (none, c)
  else
    let out := (c.send_buf.drop c.send_offset).take buf_len
    let send_offset := c.send_offset + out.length
    if send_offset ≥ c.send_buf.length then (some out, { c with send_buf := [], send_offset := 0 })
    else (some out, { c with send_offset })

/-- Polls for the next event. -/
def poll_event (c : TlsConnection X BUF) : Option TlsEvent × TlsConnection X BUF :=
  (c.events.head?, { c with events := c.events.tail })

/-- Reads decrypted application data, at most `buf_len` bytes of it. -/
def recv_app_data (buf_len : Nat) : Method (TlsConnection X BUF) Error Bytes := do
  let c ← Method.get
  Method.require (c.plain ≠ 0) .WouldBlock
  let n := min c.plain buf_len
  Method.modify fun c => { c with recv_buf := c.recv_buf.drop n, plain := c.plain - n }
  pure (c.recv_buf.take n)

/-- Queues application data for encryption and sending. -/
def send_app_data (data : Bytes) : Method (TlsConnection X BUF) Error Nat := do
  let c ← Method.get
  Method.require (c.state = .Active) .InvalidState
  Method.require (c.app_send_buf.length + data.length ≤ BUF)
    (.BufferTooSmall (c.app_send_buf.length + data.length))
  Method.modify fun c => { c with app_send_buf := c.app_send_buf ++ data }
  pure data.length

/-- Initiates a graceful close. -/
def close : Method (TlsConnection X BUF) Error Unit := do
  let c ← Method.get
  if c.state = .Closed ∨ c.state = .Closing then pure ()
  else do
    send_alert 1 0
    Method.modify fun c => { c with state := .Closing }

end TlsConnection

end milli_http.tcp_tls
