-- The receive path (connection/recv.rs): the packets of a datagram are opened one after
-- the other and their frames dispatched. Opening a packet is kept apart from dispatching
-- what is in it. An index or a slice outside its buffer is a panic; of the caller's scratch
-- buffer only the length matters.
import MilliHttp.Connection.Dispatch

open bytes method

namespace milli_http.connection

open crypto tls transport packet frame varint

variable {B : Build}

/-! ## Header protection and AEAD -/

/-- A packet whose header protection has been removed. -/
structure Unprotected where
  first_byte : UInt8
  pn : Nat
  /-- The header up to and including the packet number. -/
  aad : Bytes
  ciphertext : Bytes
  deriving DecidableEq, Repr

/-- Removes the header protection of the packet in `buf`. `bits` are the bits of the first
byte that are protected. -/
def unprotect {P : CryptoProvider} (keys : DirectionalKeys P) (bits : UInt8) (buf : Bytes)
    (pn_offset largest_pn : Nat) : Outcome Error Unprotected :=
  let sample_offset := pn_offset + 4
  if sample_offset + 16 > buf.length then .err .Crypto
  else do
    let sample ← slice buf sample_offset (sample_offset + 16)
    let mask := P.mask keys.header_protection sample
    let first_byte ← index buf 0
    let first_byte := first_byte ^^^ (mask.headD 0 &&& bits)
    let pn_len := ((first_byte &&& 0x03) + 1).toNat
    let pn_bytes ← slice buf pn_offset (pn_offset + pn_len)
    let pn_bytes := pn_bytes.zipWith (· ^^^ ·) (mask.drop 1)
    let pn := decode_pn (beNat pn_bytes) pn_len largest_pn
    if pn > MAX_VARINT then .err (.Transport .ProtocolViolation)
    else do
      let between ← slice buf 1 pn_offset
      let ciphertext ← sliceFrom buf (pn_offset + pn_len)
      pure { first_byte, pn, aad := first_byte :: between ++ pn_bytes, ciphertext }

/-- Opens the payload of an unprotected packet. -/
def open_payload {P : CryptoProvider} (keys : DirectionalKeys P) (u : Unprotected) :
    Except Error Bytes :=
  P.open_in_place keys.aead (keys.nonce u.pn) u.aad u.ciphertext

/-- Decrypts a long-header packet: its packet number and its payload. -/
def decrypt_long_packet {P : CryptoProvider} (pkt_data : Bytes)
    (pn_offset payload_length largest_pn : Nat) (recv : DirectionalKeys P) (scratch_len : Nat) :
    Outcome Error (Nat × Bytes) :=
  let total_len := pn_offset + payload_length
  if total_len > scratch_len then .err (.BufferTooSmall total_len)
  else do
    let scratch ← slice pkt_data 0 total_len
    let u ← unprotect recv 0x0f scratch pn_offset largest_pn
    let payload ← .ofExcept (open_payload recv u)
    pure (u.pn, payload)

/-! ## Opening packets -/

/-- A packet that was opened. A duplicate has no payload to look at. -/
structure Opened where
  level : Level
  pn : Nat
  payload : Option Bytes
  deriving DecidableEq, Repr

/-- What a processed packet leaves for the caller. -/
structure PacketResult where
  ack_eliciting : Bool
  level : Level
  pn : Nat
  deriving DecidableEq, Repr

namespace Connection

/-- The largest packet number received at a level, 0 before the first. -/
def largest_pn (c : Connection B) (level : Level) : Nat := (c.largest_recv_pn.get level).getD 0

/-- Sets a long-header packet that was decrypted beside the packet numbers already seen. -/
def opened_long (c : Connection B) (level : Level) (r : Outcome Error (Nat × Bytes)) :
    Outcome Error Opened := do
  let (pn, payload) ← r
  let payload := if (c.recv_pn_tracker.get level).contains pn then none else some payload
  pure { level, pn, payload }

/-- Derives Initial keys if there are none, from the Destination Connection ID of the packet.
A server also records the ids its transport parameters have to carry. -/
def learn_initial_keys (hdr : InitialHeader) : Method (Connection B) Error Unit := do
  let c ← Method.get
  if c.keys.has_recv_keys .Initial then pure ()
  else do
    Method.on Connection.keys (fun keys c => { c with keys })
      (ConnectionKeys.derive_initial hdr.dcid (c.role = .Client))
    Method.modify fun c =>
      if c.role = .Server then
        c.map_tls (·.set_transport_param_cids hdr.dcid c.local_scid)
      else c

/-- Takes the peer's connection id from its Source Connection ID. -/
def learn_remote_cid (hdr : InitialHeader) (c : Connection B) : Connection B :=
  if hdr.scid ≠ [] ∧ (c.remote_cid.length = 0 ∨ c.role = .Client ∧ c.state = .Handshaking) then
    { c with remote_cid := .from_slice hdr.scid }
  else c

/-- What an Initial header does before the packet is decrypted. -/
def learn_initial (hdr : InitialHeader) : Method (Connection B) Error Unit := do
  learn_initial_keys hdr
  Method.modify (learn_remote_cid hdr)

/-- Opens an Initial packet. -/
def open_initial (pkt_data : Bytes) (scratch_len : Nat) (c : Connection B) :
    Outcome Error Opened × Connection B :=
  match parse_initial_header pkt_data with
  | .panic => (.panic, c)
  | .err e => (.err e, c)
  | .ok hdr =>
    match learn_initial hdr c with
    | (.error e, c) => (.err e, c)
    | (.ok _, c) =>
      match c.keys.initial_recv with
      | none => (.err .Crypto, c)
      | some recv =>
        (c.opened_long .Initial (decrypt_long_packet pkt_data hdr.pn_offset hdr.payload_length
          (c.largest_pn .Initial) recv scratch_len), c)

/-- Opens a Handshake packet. -/
def open_handshake (pkt_data : Bytes) (scratch_len : Nat) (c : Connection B) :
    Outcome Error Opened × Connection B :=
  match parse_handshake_header pkt_data with
  | .panic => (.panic, c)
  | .err e => (.err e, c)
  | .ok hdr =>
    match c.keys.handshake_recv with
    | none => (.err .Crypto, c)
    | some recv =>
      (c.opened_long .Handshake (decrypt_long_packet pkt_data hdr.pn_offset hdr.payload_length
        (c.largest_pn .Handshake) recv scratch_len), c)

/-- Removes the header protection of a short-header packet. -/
def unprotect_short (pkt_data : Bytes) (scratch_len : Nat) (c : Connection B) :
    Outcome Error Unprotected := do
  let (_, pn_offset) ← parse_short_header pkt_data c.local_scid.length
  match c.keys.app_recv with
  | none => .err .Crypto
  | some recv =>
    if pkt_data.length > scratch_len then .err (.BufferTooSmall pkt_data.length)
    else unprotect recv 0x1f pkt_data pn_offset (c.largest_pn .Application)

/-- Opens the payload with the current keys, or with the previous ones. -/
def open_current (recv : DirectionalKeys B.C) (u : Unprotected) :
    Method (Connection B) Error Bytes := fun c =>
  match open_payload recv u with
  | .ok payload =>
    (.ok payload, { c with
      keys := { c.keys with
        key_update := { c.keys.key_update with
          packets_decrypted := c.keys.key_update.packets_decrypted + 1
          update_confirmed := true } } })
  | .error _ =>
    match c.keys.key_update.prev_recv_key with
    | some prev => (open_payload prev u, c)
    | none => (.error .Crypto, c)

/-- Opens the payload with the keys of the next generation: the peer has updated its keys, and
so do we. -/
def open_next (u : Unprotected) : Method (Connection B) Error Bytes := do
  let c ← Method.get
  let next ← Method.lift c.keys.derive_next_recv_keys
  let payload ← Method.lift (open_payload next u)
  Method.on Connection.keys (fun keys c => { c with keys })
    (ConnectionKeys.confirm_peer_key_update next)
  pure payload

/-- Opens the payload of a short-header packet, by its key phase bit. -/
def open_phase (u : Unprotected) : Method (Connection B) Error Bytes := do
  let c ← Method.get
  let recv ← Method.okOr c.keys.app_recv .Crypto
  if (u.first_byte >>> 2) &&& 1 = c.keys.key_phase then open_current recv u else open_next u

/-- Opens a short-header packet. A duplicate is not decrypted. -/
def open_short (pkt_data : Bytes) (scratch_len : Nat) (c : Connection B) :
    Outcome Error Opened × Connection B :=
  match c.unprotect_short pkt_data scratch_len with
  | .panic => (.panic, c)
  | .err e => (.err e, c)
  | .ok u =>
    if (c.recv_pn_tracker.get .Application).contains u.pn then
      (.ok { level := .Application, pn := u.pn, payload := none }, c)
    else
      match open_phase u c with
      | (.error e, c) => (.err e, c)
      | (.ok payload, c) => (.ok { level := .Application, pn := u.pn, payload := some payload }, c)

/-! ## Processing packets -/

/-- A Handshake packet from the client proves it has the ServerHello: the server is done
with Initial. -/
def initial_done (c : Connection B) : Connection B :=
  if c.role = .Server ∧ c.keys.has_send_keys .Initial then c.discard_initial else c

/-- Dispatches the frames of an opened packet; `after` is what its kind does then. -/
def process (now : Instant) (after : Connection B → Connection B)
    (r : Outcome Error Opened × Connection B) : Outcome Error PacketResult × Connection B :=
  match r with
  | (.panic, c) => (.panic, c)
  | (.err e, c) => (.err e, c)
  | (.ok o, c) =>
    match o.payload with
    | none => (.ok { ack_eliciting := false, level := o.level, pn := o.pn }, c)
    | some payload =>
      match dispatch_frames o.level now payload.length payload false c with
      | (.error e, c) => (.err e, c)
      | (.ok ack_eliciting, c) => (.ok { ack_eliciting, level := o.level, pn := o.pn }, after c)

/-- Processes an Initial packet. -/
def recv_initial (pkt_data : Bytes) (scratch_len : Nat) (now : Instant) (c : Connection B) :
    Outcome Error PacketResult × Connection B :=
  process now id (c.open_initial pkt_data scratch_len)

/-- Processes a Handshake packet. -/
def recv_handshake (pkt_data : Bytes) (scratch_len : Nat) (now : Instant) (c : Connection B) :
    Outcome Error PacketResult × Connection B :=
  process now initial_done (c.open_handshake pkt_data scratch_len)

/-- Processes a short (1-RTT) packet. -/
def recv_short (pkt_data : Bytes) (scratch_len : Nat) (now : Instant) (c : Connection B) :
    Outcome Error PacketResult × Connection B :=
  process now id (c.open_short pkt_data scratch_len)

/-- The larger of a packet number and the largest one so far. -/
def larger_pn (prev : Option Nat) (pn : Nat) : Option Nat :=
  match prev with
  | none => some pn
  | some prev => if pn > prev then some pn else some prev

/-- Books a processed packet: it will be acknowledged. -/
def record_packet (pr : PacketResult) (c : Connection B) : Connection B :=
  let c := if pr.ack_eliciting then
      { c with ack_eliciting_received := c.ack_eliciting_received.set pr.level true }
    else c
  track_received_pn
    { c with largest_recv_pn :=
        c.largest_recv_pn.set pr.level (larger_pn (c.largest_recv_pn.get pr.level) pr.pn) }
    pr.level pr.pn

/-! ## Processing datagrams -/

/-- The three kinds of packet that are processed. The rest (0-RTT, Retry, Version
Negotiation) is skipped. -/
inductive PacketKind where
  | Initial
  | Handshake
  | Short
  deriving DecidableEq, Repr

/-- The kind of a packet, by its first byte. -/
def packet_kind (pkt_data : Bytes) : Option PacketKind :=
  match pkt_data with
  | [] => none
  | first_byte :: _ =>
    if first_byte &&& 0x80 = 0 then some .Short
    else if pkt_type first_byte = 0b00 then some .Initial
    else if pkt_type first_byte = 0b10 then some .Handshake
    else none

/-- Processes a packet by its kind. -/
def recv_kind (kind : PacketKind) (pkt_data : Bytes) (scratch_len : Nat) (now : Instant)
    (c : Connection B) : Outcome Error PacketResult × Connection B :=
  match kind with
  | .Initial => c.recv_initial pkt_data scratch_len now
  | .Handshake => c.recv_handshake pkt_data scratch_len now
  | .Short => c.recv_short pkt_data scratch_len now

/-- Processes one packet of a datagram: an error discards it, a panic stops everything. -/
def recv_packet (pkt_data : Bytes) (scratch_len : Nat) (now : Instant) (c : Connection B) :
    Option (Connection B) :=
  match packet_kind pkt_data with
  | none => some c
  | some kind =>
    match c.recv_kind kind pkt_data scratch_len now with
    | (.panic, _) => none
    | (.err _, c) => some c
    | (.ok pr, c) => some (c.record_packet pr)

/-- Processes the packets of a datagram; malformed coalescing ends it. -/
def recv_packets (scratch_len : Nat) (now : Instant) :
    List (Outcome Error Bytes) → Connection B → Option (Connection B)
  | [], c => some c
  | .panic :: _, _ => none
  | .err _ :: _, c => some c
  | .ok pkt_data :: rest, c => do
    let c ← c.recv_packet pkt_data scratch_len now
    recv_packets scratch_len now rest c

/-- A datagram arrives: the idle timer restarts, and its bytes count against amplification. -/
def arrive (len : Nat) (now : Instant) (c : Connection B) : Connection B :=
  let c := { c with last_activity := now }
  if c.address_validated then c
  else
    { c with anti_amplification_bytes_received :=
        saturating_add c.anti_amplification_bytes_received len }

/-- Processes an incoming UDP datagram, or panics. -/
def recv (datagram : Bytes) (scratch_len : Nat) (now : Instant) (c : Connection B) :
    Option (Except Error Unit × Connection B) :=
  if c.state = .Closed then some (.error .Closed, c)
  else do
    let c ← recv_packets scratch_len now (coalesced datagram) (c.arrive datagram.length now)
    pure (check_tls_keys c)

end Connection

end milli_http.connection
