-- The TLS 1.3 handshake engine (tls/handshake.rs) with its key schedule
-- (tls/key_schedule_tls.rs). The running transcript hash is kept as the bytes hashed
-- so far. A method that fails leaves behind what it had written up to that point.
import MilliHttp.Tls.Messages

open bytes method

namespace milli_http.tls

open crypto

/-! ## Key schedule -/

structure TlsKeySchedule where
  early_secret : Bytes
  handshake_secret : Bytes
  master_secret : Bytes
  deriving DecidableEq, Repr

/-- `[0u8; n]`. -/
def zeros (n : Nat) : Bytes := List.replicate n 0

namespace TlsKeySchedule

def new (hkdf : Hkdf) : TlsKeySchedule where
  early_secret := hkdf.extract (zeros 32) (zeros 32)
  handshake_secret := zeros 32
  master_secret := zeros 32

/-- The handshake secret of an ECDHE shared secret. -/
def derive_handshake_secret (ks : TlsKeySchedule) (X : Primitives) (shared_secret : Bytes) :
    Except Error TlsKeySchedule := do
  let salt ← hkdf_expand_label X.C.hkdf ks.early_secret (ascii "derived") (X.sha256 []) 32
  pure { ks with handshake_secret := X.C.hkdf.extract salt shared_secret }

/-- The client's and the server's handshake traffic secret. -/
def derive_handshake_traffic_secrets (ks : TlsKeySchedule) (hkdf : Hkdf) (transcript_hash : Bytes) :
    Except Error (Bytes × Bytes) := do
  let client ← hkdf_expand_label hkdf ks.handshake_secret (ascii "c hs traffic") transcript_hash 32
  let server ← hkdf_expand_label hkdf ks.handshake_secret (ascii "s hs traffic") transcript_hash 32
  pure (client, server)

def derive_master_secret (ks : TlsKeySchedule) (X : Primitives) : Except Error TlsKeySchedule := do
  let salt ← hkdf_expand_label X.C.hkdf ks.handshake_secret (ascii "derived") (X.sha256 []) 32
  pure { ks with master_secret := X.C.hkdf.extract salt (zeros 32) }

/-- The client's and the server's application traffic secret. -/
def derive_app_traffic_secrets (ks : TlsKeySchedule) (hkdf : Hkdf) (transcript_hash : Bytes) :
    Except Error (Bytes × Bytes) := do
  let client ← hkdf_expand_label hkdf ks.master_secret (ascii "c ap traffic") transcript_hash 32
  let server ← hkdf_expand_label hkdf ks.master_secret (ascii "s ap traffic") transcript_hash 32
  pure (client, server)

end TlsKeySchedule

/-- The Finished key of a handshake traffic secret. -/
def derive_finished_key (hkdf : Hkdf) (base_key : Bytes) : Except Error Bytes :=
  hkdf_expand_label hkdf base_key (ascii "finished") [] 32

/-- The verify data of a Finished message: the MAC of a transcript hash. -/
def compute_finished_verify_data (hkdf : Hkdf) (finished_key transcript_hash : Bytes) : Bytes :=
  hkdf.extract finished_key transcript_hash

/-- The verify data a Finished message must carry under a handshake traffic secret. -/
def expected_verify_data (hkdf : Hkdf) (base_key transcript_hash : Bytes) : Except Error Bytes := do
  let finished_key ← derive_finished_key hkdf base_key
  pure (compute_finished_verify_data hkdf finished_key transcript_hash)

/-! ## Signatures -/

def ED25519_ALGORITHM : Nat := 0x0807

def ECDSA_SECP256R1_SHA256 : Nat := 0x0403

/-- The content a server's CertificateVerify signs. -/
def build_server_cv_content (transcript_hash : Bytes) : Bytes :=
  List.replicate 64 0x20 ++ ascii "TLS 1.3, server CertificateVerify" ++ [0x00] ++ transcript_hash

/-- Checks the signature of a CertificateVerify with the key of a certificate. -/
def verify_certificate_verify (X : Primitives) (cert_der : Bytes) (cv : CertificateVerify)
    (transcript_hash : Bytes) : Except Error Unit :=
  let content := build_server_cv_content transcript_hash
  if cv.algorithm = ED25519_ALGORITHM then do
    let pubkey ← extract_ed25519_pubkey_from_cert cert_der
    if cv.signature.length = 64 ∧ X.ed25519_verify pubkey content cv.signature then .ok ()
    else .error .Tls
  else if cv.algorithm = ECDSA_SECP256R1_SHA256 then do
    let pubkey ← extract_p256_pubkey_from_cert cert_der
    if X.p256_verify pubkey content cv.signature then .ok () else .error .Tls
  else .error .Tls

/-- Signs the transcript with the key type the certificate has. -/
def sign_certificate_verify (X : Primitives) (cert_der private_key transcript_hash : Bytes) :
    Except Error Bytes := do
  let content := build_server_cv_content transcript_hash
  if cert_has_p256_key cert_der then
    if private_key.length = 32 then do
      let signature ← X.p256_sign private_key content
      encode_certificate_verify ECDSA_SECP256R1_SHA256 signature 256
    else .error .Tls
  else if private_key.length = 32 then
    encode_certificate_verify ED25519_ALGORITHM (X.ed25519_sign private_key content) 256
  else .error .Tls

/-! ## The engine -/

inductive Role where
  | Client
  | Server
  deriving DecidableEq, Repr

inductive HandshakeState where
  | Start
  | WaitServerHello
  | WaitEncryptedExtensions
  | WaitCertificate
  | WaitCertificateVerify
  | WaitFinished
  | SendFinished
  | WaitClientHello
  | SendServerFlightInitial
  | SendServerFlightHandshake
  | WaitClientFinished
  | Complete
  deriving DecidableEq, Repr

/-- Traffic secrets for the packet layer to pick up. -/
structure DerivedKeys where
  level : Level
  cipher_suite : CipherSuite
  send_secret : Bytes
  recv_secret : Bytes
  deriving DecidableEq, Repr

structure TlsConfig where
  server_name : Bytes
  alpn_protocols : List Bytes
  transport_params : TransportParams
  pinned_certs : List Bytes
  deriving DecidableEq, Repr

structure ServerTlsConfig where
  cert_der : Bytes
  private_key_der : Bytes
  alpn_protocols : List Bytes
  transport_params : TransportParams
  deriving DecidableEq, Repr

structure TlsEngine where
  role : Role
  state : HandshakeState
  private_key : Bytes
  public_key : Bytes
  client_random : Bytes
  cipher_suite : Option CipherSuite
  key_schedule : TlsKeySchedule
  client_handshake_secret : Bytes
  server_handshake_secret : Bytes
  client_app_secret : Bytes
  server_app_secret : Bytes
  /-- The handshake messages hashed so far. -/
  transcript : Bytes
  pending_write : Bytes
  pending_level : Level
  pending_write_hs : Bytes
  pending_keys : Option DerivedKeys
  server_name : Bytes
  alpn_protocols : List Bytes
  transport_params : TransportParams
  peer_transport_params : Option TransportParams
  local_record_size_limit : Option Nat
  peer_record_size_limit : Option Nat
  negotiated_alpn : Option Bytes
  pinned_certs : List Bytes
  server_cert_data : Bytes
  server_cert_der : Bytes
  server_private_key_der : Bytes
  complete : Bool
  quic_mode : Bool
  legacy_session_id : Bytes
  deriving DecidableEq, Repr

namespace TlsEngine

/-- What both constructors have in common. -/
def blank (X : Primitives) (secret_bytes random : Bytes) (transport_params : TransportParams) :
    TlsEngine where
  role := .Client
  state := .Start
  private_key := secret_bytes
  public_key := X.x25519_public secret_bytes
  client_random := random
  cipher_suite := none
  key_schedule := .new X.C.hkdf
  client_handshake_secret := zeros 32
  server_handshake_secret := zeros 32
  client_app_secret := zeros 32
  server_app_secret := zeros 32
  transcript := []
  pending_write := []
  pending_level := .Initial
  pending_write_hs := []
  pending_keys := none
  server_name := []
  alpn_protocols := []
  transport_params := transport_params
  peer_transport_params := none
  local_record_size_limit := none
  peer_record_size_limit := none
  negotiated_alpn := none
  pinned_certs := []
  server_cert_data := []
  server_cert_der := []
  server_private_key_der := []
  complete := false
  quic_mode := true
  legacy_session_id := zeros 32

def new_client (X : Primitives) (config : TlsConfig) (secret_bytes random : Bytes) : TlsEngine :=
  { blank X secret_bytes random config.transport_params with
    server_name := config.server_name
    alpn_protocols := config.alpn_protocols
    pinned_certs := config.pinned_certs }

/-- For the server `client_random` stores the ServerHello random. -/
def new_server (X : Primitives) (config : ServerTlsConfig) (secret_bytes random : Bytes) :
    TlsEngine :=
  { blank X secret_bytes random config.transport_params with
    role := .Server
    state := .WaitClientHello
    alpn_protocols := config.alpn_protocols
    server_cert_der := config.cert_der
    server_private_key_der := config.private_key_der }

/-- A client over TCP: no transport parameters, and a session id for middleboxes. -/
def new_tcp_client (X : Primitives) (config : TlsConfig) (secret_bytes random : Bytes) : TlsEngine :=
  { new_client X config secret_bytes random with quic_mode := false, legacy_session_id := random }

/-- A server over TCP. -/
def new_tcp_server (X : Primitives) (config : ServerTlsConfig) (secret_bytes random : Bytes) :
    TlsEngine :=
  { new_server X config secret_bytes random with quic_mode := false }

/-- Sets the record size limit to advertise. -/
def set_local_record_size_limit (e : TlsEngine) (limit : Nat) : TlsEngine :=
  { e with local_record_size_limit := some limit }

/-- Sets the connection ids the server's EncryptedExtensions will carry. -/
def set_transport_param_cids (e : TlsEngine) (original_dcid initial_scid : Bytes) : TlsEngine :=
  { e with transport_params := { e.transport_params with
      original_dcid := original_dcid.take 20
      initial_scid := initial_scid.take 20 } }

/-- The hash of the transcript so far. -/
def current_hash (e : TlsEngine) (X : Primitives) : Bytes := X.sha256 e.transcript

/-- Adds a message to the transcript. -/
def update_transcript (message : Bytes) : Method TlsEngine Error Unit :=
  Method.modify fun e => { e with transcript := e.transcript ++ message }

/-- The transport parameters to send: none outside QUIC. -/
def own_transport_params (e : TlsEngine) : Option TransportParams :=
  if e.quic_mode then some e.transport_params else none

/-- `pending_write.clear(); pending_write.buf_extend_from_slice(msg)?`, for a buffer of
2048 bytes. -/
def set_pending_write (msg : Bytes) : Method TlsEngine Error Unit := do
  Method.modify fun e => { e with pending_write := [] }
  Method.require (msg.length ≤ 2048) (.BufferTooSmall msg.length)
  Method.modify fun e => { e with pending_write := msg }

/-- Builds and buffers the ClientHello. -/
def build_client_hello (X : Primitives) : Method TlsEngine Error Unit := do
  let e ← Method.get
  let ext ← Method.lift (encode_client_hello_extensions e.server_name e.public_key
    e.alpn_protocols e.own_transport_params e.local_record_size_limit 1024)
  Method.require (X.C.cipher_suites ≠ []) .Tls
  let session_id := if e.quic_mode then [] else e.legacy_session_id
  let msg ← Method.lift (encode_client_hello e.client_random session_id X.C.cipher_suites ext 2048)
  update_transcript msg
  set_pending_write msg
  Method.modify fun e => { e with pending_level := .Initial, state := .WaitServerHello }

/-- Derives the handshake secrets of a shared secret. A shared secret of zeros comes from a
low-order point and is refused. -/
def derive_handshake (X : Primitives) (peer_public : Bytes) : Method TlsEngine Error Unit := do
  let e ← Method.get
  let shared_secret := X.diffie_hellman e.private_key peer_public
  Method.require (¬ shared_secret.all (· == 0)) .Tls
  let ks ← Method.lift (e.key_schedule.derive_handshake_secret X shared_secret)
  Method.modify fun e => { e with key_schedule := ks }
  let (client, server) ← Method.lift
    (ks.derive_handshake_traffic_secrets X.C.hkdf (e.current_hash X))
  Method.modify fun e =>
    { e with client_handshake_secret := client, server_handshake_secret := server }

/-- Derives the application secrets over a transcript hash. -/
def derive_application (X : Primitives) (transcript_hash : Bytes) :
    Method TlsEngine Error Unit := do
  let e ← Method.get
  let ks ← Method.lift (e.key_schedule.derive_master_secret X)
  Method.modify fun e => { e with key_schedule := ks }
  let (client, server) ← Method.lift (ks.derive_app_traffic_secrets X.C.hkdf transcript_hash)
  Method.modify fun e => { e with client_app_secret := client, server_app_secret := server }

/-- Hands keys of a level to the packet layer. -/
def emit_keys (level : Level) (secrets : TlsEngine → Bytes × Bytes) :
    Method TlsEngine Error Unit := do
  let e ← Method.get
  let cipher_suite ← Method.okOr e.cipher_suite .Tls
  let (send_secret, recv_secret) := secrets e
  Method.modify fun e =>
    { e with pending_keys := some { level, cipher_suite, send_secret, recv_secret } }

/-! ## Client -/

def process_server_hello (X : Primitives) (msg_body : Bytes) : Method TlsEngine Error Unit := do
  let sh ← Method.lift (parse_server_hello msg_body)
  Method.require (sh.cipher_suite ∈ X.C.cipher_suites) .Tls
  Method.modify fun e => { e with cipher_suite := some sh.cipher_suite }
  let ext ← Method.lift (parse_server_hello_extensions sh.extensions)
  Method.require (ext.selected_version = 0x0304) .Tls
  let server_public ← Method.okOr ext.key_share .Tls
  derive_handshake X server_public
  emit_keys .Handshake fun e => (e.client_handshake_secret, e.server_handshake_secret)
  Method.modify fun e => { e with state := .WaitEncryptedExtensions }

def process_encrypted_extensions (msg_body : Bytes) : Method TlsEngine Error Unit := do
  let ext_data ← Method.lift (parse_encrypted_extensions msg_body)
  let parsed ← Method.lift (parse_encrypted_extensions_data ext_data)
  Method.modify fun e =>
    { e with negotiated_alpn := parsed.alpn, peer_transport_params := parsed.transport_params }
  let e ← Method.get
  Method.require (¬ (parsed.record_size_limit.isSome ∧ e.local_record_size_limit.isNone)) .Tls
  Method.modify fun e =>
    { e with peer_record_size_limit := parsed.record_size_limit, state := .WaitCertificate }

/-- Keeps the first certificate; one that does not fit its buffer is not kept. -/
def process_certificate (msg_body : Bytes) : Method TlsEngine Error Unit := do
  let entries ← Method.lift (parse_certificate msg_body)
  Method.modify fun e => { e with server_cert_data := [] }
  let cert ← match first_certificate_entry entries with
    | none => pure []
    | some entry => Method.lift entry
  Method.modify fun e =>
    { e with
      server_cert_data := if cert.length ≤ 2048 then cert else []
      state := .WaitCertificateVerify }

def process_certificate_verify (X : Primitives) (msg_body transcript_before_cv : Bytes) :
    Method TlsEngine Error Unit := do
  let cv ← Method.lift (parse_certificate_verify msg_body)
  let e ← Method.get
  Method.require (e.pinned_certs = [] ∨ e.server_cert_data ∈ e.pinned_certs) .Tls
  Method.lift (verify_certificate_verify X e.server_cert_data cv transcript_before_cv)
  Method.modify fun e => { e with state := .WaitFinished }

def process_server_finished (X : Primitives) (msg_body transcript_before_finished : Bytes) :
    Method TlsEngine Error Unit := do
  let verify_data ← Method.lift (parse_finished msg_body)
  let e ← Method.get
  let expected ← Method.lift
    (expected_verify_data X.C.hkdf e.server_handshake_secret transcript_before_finished)
  Method.require (expected = verify_data) .Tls
  derive_application X (e.current_hash X)
  emit_keys .Application fun e => (e.client_app_secret, e.server_app_secret)
  let client_verify ← Method.lift
    (expected_verify_data X.C.hkdf e.client_handshake_secret (e.current_hash X))
  let fin ← Method.lift (encode_finished client_verify 36)
  update_transcript fin
  set_pending_write fin
  Method.modify fun e => { e with pending_level := .Handshake, state := .SendFinished }

/-! ## Server -/

/-- The first suite of ours, in our order, that the client offered. -/
def select_suite (X : Primitives) (offered : Bytes) : Option CipherSuite :=
  X.C.cipher_suites.find? fun ours => (u16_pairs offered).contains ours.to_u16

/-- The first protocol of the client's that we support. -/
def select_alpn (e : TlsEngine) (offered : List Bytes) : Option Bytes :=
  offered.find? fun proto => e.alpn_protocols.contains proto

/-- The messages of the handshake flight, EncryptedExtensions to Finished, written one behind
the other into a buffer of 2048 bytes. -/
def build_handshake_flight (X : Primitives) (alpn : Bytes) : Method TlsEngine Error Bytes := do
  let e ← Method.get
  let limit := if e.peer_record_size_limit.isSome then e.local_record_size_limit else none
  let ee_ext ← Method.lift
    (encode_encrypted_extensions_data alpn e.own_transport_params limit 512)
  let ee ← Method.lift (encode_encrypted_extensions ee_ext 2048)
  update_transcript ee
  let hs_off := ee.length
  Method.require (¬ 2048 - hs_off < 256) (.BufferTooSmall (hs_off + 256))
  let cert ← Method.lift (encode_certificate e.server_cert_der (2048 - hs_off))
  update_transcript cert
  let hs_off := hs_off + cert.length
  let e ← Method.get
  let cv ← Method.lift
    (sign_certificate_verify X e.server_cert_der e.server_private_key_der (e.current_hash X))
  Method.require (hs_off + cv.length ≤ 2048) (.BufferTooSmall (hs_off + cv.length))
  update_transcript cv
  let hs_off := hs_off + cv.length
  let e ← Method.get
  let server_verify ← Method.lift
    (expected_verify_data X.C.hkdf e.server_handshake_secret (e.current_hash X))
  let fin ← Method.lift (encode_finished server_verify (2048 - hs_off))
  update_transcript fin
  pure (ee ++ cert ++ cv ++ fin)

/-- Processes a ClientHello and builds the whole server flight. -/
def process_client_hello (X : Primitives) (msg_body : Bytes) : Method TlsEngine Error Unit := do
  let ch ← Method.lift (parse_client_hello msg_body)
  let ext ← Method.lift (parse_client_hello_extensions ch.extensions)
  Method.require (ext.supports_tls13 = true) .Tls
  let client_public ← Method.okOr ext.key_share .Tls
  let selected_suite ← Method.okOr (select_suite X ch.cipher_suites) .Tls
  Method.modify fun e => { e with cipher_suite := some selected_suite }
  let e ← Method.get
  let selected_alpn := e.select_alpn ext.alpn_protocols
  Method.require
    (¬ (selected_alpn.isNone ∧ e.alpn_protocols ≠ [] ∧ ext.alpn_protocols ≠ [])) .Tls
  Method.modify fun e =>
    { e with
      peer_transport_params := ext.transport_params
      peer_record_size_limit := ext.record_size_limit
      negotiated_alpn := selected_alpn }
  let sh_ext ← Method.lift (encode_server_hello_extensions e.public_key 128)
  let sh ← Method.lift (encode_server_hello e.client_random ch.session_id selected_suite sh_ext 512)
  update_transcript sh
  derive_handshake X client_public
  emit_keys .Handshake fun e => (e.server_handshake_secret, e.client_handshake_secret)
  let flight ← build_handshake_flight X (selected_alpn.getD [])
  set_pending_write sh
  Method.modify fun e =>
    { e with
      pending_level := .Initial
      pending_write_hs := flight
      state := .SendServerFlightInitial }

def process_client_finished (X : Primitives) (msg_body transcript_before_finished : Bytes) :
    Method TlsEngine Error Unit := do
  let verify_data ← Method.lift (parse_finished msg_body)
  let e ← Method.get
  let expected ← Method.lift
    (expected_verify_data X.C.hkdf e.client_handshake_secret transcript_before_finished)
  Method.require (expected = verify_data) .Tls
  derive_application X transcript_before_finished
  emit_keys .Application fun e => (e.server_app_secret, e.client_app_secret)
  Method.modify fun e => { e with state := .Complete, complete := true }

/-! ## Reading and writing handshake messages -/

/-- The level a client expects its next message at. -/
def expected_level_client : HandshakeState → Option Level
  | .WaitServerHello => some .Initial
  | .WaitEncryptedExtensions | .WaitCertificate | .WaitCertificateVerify | .WaitFinished =>
    some .Handshake
  | _ => none

/-- The level a server expects its next message at. -/
def expected_level_server : HandshakeState → Option Level
  | .WaitClientHello => some .Initial
  | .WaitClientFinished => some .Handshake
  | _ => none

/-- One message at the client: it is hashed, then processed. -/
def client_message (X : Primitives) (msg_type : HandshakeType) (full_msg msg_body : Bytes) :
    Method TlsEngine Error Unit := do
  let e ← Method.get
  match e.state, msg_type with
  | .WaitServerHello, .ServerHello => do
    update_transcript full_msg
    process_server_hello X msg_body
  | .WaitEncryptedExtensions, .EncryptedExtensions => do
    update_transcript full_msg
    process_encrypted_extensions msg_body
  | .WaitCertificate, .Certificate => do
    update_transcript full_msg
    process_certificate msg_body
  | .WaitCertificateVerify, .CertificateVerify => do
    update_transcript full_msg
    process_certificate_verify X msg_body (e.current_hash X)
  | .WaitFinished, .Finished => do
    update_transcript full_msg
    process_server_finished X msg_body (e.current_hash X)
  | _, _ => Method.fail .Tls

/-- One message at the server. -/
def server_message (X : Primitives) (msg_type : HandshakeType) (full_msg msg_body : Bytes) :
    Method TlsEngine Error Unit := do
  let e ← Method.get
  match e.state, msg_type with
  | .WaitClientHello, .ClientHello => do
    update_transcript full_msg
    process_client_hello X msg_body
  | .WaitClientFinished, .Finished => do
    update_transcript full_msg
    process_client_finished X msg_body (e.current_hash X)
  | _, _ => Method.fail .Tls

/-- The message loop both roles share: header, body, then the role's own handling. -/
def read_messages (message : HandshakeType → Bytes → Bytes → Method TlsEngine Error Unit) :
    Nat → Bytes → Method TlsEngine Error Unit
  | 0, _ => pure ()
  | fuel + 1, data =>
    match data with
    | [] => pure ()
    | ty :: rest => do
      Method.require (4 ≤ data.length) .Tls
      let msg_len := 4 + beNat (rest.take 3)
      Method.require (msg_len ≤ data.length) .Tls
      let msg_type ← Method.okOr (HandshakeType.from_u8 ty) .Tls
      message msg_type (data.take msg_len) ((data.take msg_len).drop 4)
      read_messages message fuel (data.drop msg_len)

/-- Processes incoming handshake bytes of a level. -/
def read_handshake (X : Primitives) (level : Level) (data : Bytes) :
    Method TlsEngine Error Unit := do
  let e ← Method.get
  let expected ← Method.okOr (match e.role with
    | .Client => expected_level_client e.state
    | .Server => expected_level_server e.state) .InvalidState
  Method.require (level = expected) (.Transport .ProtocolViolation)
  read_messages (match e.role with
    | .Client => client_message X
    | .Server => server_message X) data.length data

/-- Takes the client's pending flight. Flushing the Finished completes the handshake. -/
def write_client (X : Primitives) (cap : Nat) : Method TlsEngine Error (Bytes × Level) := do
  let e ← Method.get
  if e.state = .Start then build_client_hello X else pure ()
  let e ← Method.get
  if e.pending_write = [] then pure ([], .Initial)
  else do
    Method.require (e.pending_write.length ≤ cap) (.BufferTooSmall e.pending_write.length)
    Method.modify fun e =>
      if e.state = .SendFinished then
        { e with pending_write := [], state := .Complete, complete := true }
      else { e with pending_write := [] }
    pure (e.pending_write, e.pending_level)

/-- The part of `write_client` that hands the flight out. -/
def take_flight (cap : Nat) : Method TlsEngine Error (Bytes × Level) := do
  let e ← Method.get
  if e.pending_write = [] then pure ([], .Initial)
  else do
    Method.require (e.pending_write.length ≤ cap) (.BufferTooSmall e.pending_write.length)
    Method.modify fun e =>
      if e.state = .SendFinished then
        { e with pending_write := [], state := .Complete, complete := true }
      else { e with pending_write := [] }
    pure (e.pending_write, e.pending_level)

/-- Takes the server's flights, the ServerHello first. -/
def write_server (cap : Nat) : Method TlsEngine Error (Bytes × Level) := do
  let e ← Method.get
  if e.state = .SendServerFlightInitial then
    if e.pending_write = [] then pure ([], .Initial)
    else do
      Method.require (e.pending_write.length ≤ cap) (.BufferTooSmall e.pending_write.length)
      Method.modify fun e => { e with pending_write := [], state := .SendServerFlightHandshake }
      pure (e.pending_write, .Initial)
  else if e.state = .SendServerFlightHandshake then
    if e.pending_write_hs = [] then pure ([], .Handshake)
    else do
      Method.require (e.pending_write_hs.length ≤ cap) (.BufferTooSmall e.pending_write_hs.length)
      Method.modify fun e => { e with pending_write_hs := [], state := .WaitClientFinished }
      pure (e.pending_write_hs, .Handshake)
  else pure ([], .Initial)

/-- Takes outgoing handshake bytes, at most `cap` of them, and their level. -/
def write_handshake (X : Primitives) (cap : Nat) : Method TlsEngine Error (Bytes × Level) := do
  let e ← Method.get
  match e.role with
  | .Client => write_client X cap
  | .Server => write_server cap

/-- Takes the keys that are ready. -/
def derived_keys (e : TlsEngine) : Option DerivedKeys × TlsEngine :=
  (e.pending_keys, { e with pending_keys := none })

/-- Releases the buffers only the handshake needs. -/
def shrink_post_handshake (e : TlsEngine) : TlsEngine :=
  { e with pending_write := [], pending_write_hs := [], server_cert_data := [] }

end TlsEngine

end milli_http.tls
