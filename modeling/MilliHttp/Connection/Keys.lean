-- The keys of a connection by level and direction (connection/keys.rs).
import MilliHttp.Tls.Handshake

open bytes method

namespace milli_http.connection

open crypto tls

/-- Packets a key may protect before it has to be updated. -/
def AEAD_CONFIDENTIALITY_LIMIT : Nat := 2 ^ 23

/-- State of the QUIC key update (RFC 9001 §6). The secrets are empty until application
keys are installed. -/
structure KeyUpdateState (X : Primitives) where
  key_phase : UInt8
  send_secret : Bytes
  recv_secret : Bytes
  send_hp_key : Bytes
  recv_hp_key : Bytes
  key_len : Nat
  prev_recv_key : Option (DirectionalKeys X.C)
  update_confirmed : Bool
  packets_encrypted : Nat
  packets_decrypted : Nat

/-- All keys of a connection. Initial keys are AES-128-GCM keys whatever is negotiated. -/
structure ConnectionKeys (X : Primitives) where
  initial_send : Option (DirectionalKeys X.Aes128GcmProvider)
  initial_recv : Option (DirectionalKeys X.Aes128GcmProvider)
  handshake_send : Option (DirectionalKeys X.C)
  handshake_recv : Option (DirectionalKeys X.C)
  app_send : Option (DirectionalKeys X.C)
  app_recv : Option (DirectionalKeys X.C)
  key_update : KeyUpdateState X

variable {X : Primitives}

def KeyUpdateState.new : KeyUpdateState X where
  key_phase := 0
  send_secret := []
  recv_secret := []
  send_hp_key := []
  recv_hp_key := []
  key_len := 0
  prev_recv_key := none
  update_confirmed := true
  packets_encrypted := 0
  packets_decrypted := 0

namespace ConnectionKeys

/-- No keys installed yet. -/
def new : ConnectionKeys X where
  initial_send := none
  initial_recv := none
  handshake_send := none
  handshake_recv := none
  app_send := none
  app_recv := none
  key_update := .new

/-- The client's and the server's Initial keys of a Destination Connection ID. -/
def initial_keys (X : Primitives) (dcid : Bytes) :
    Except Error (DirectionalKeys X.Aes128GcmProvider × DirectionalKeys X.Aes128GcmProvider) := do
  let (client_secret, server_secret) ← derive_initial_secrets X.Aes128GcmProvider.hkdf dcid
  let client_keys ← derive_directional_keys X.Aes128GcmProvider client_secret
  let server_keys ← derive_directional_keys X.Aes128GcmProvider server_secret
  pure (client_keys, server_keys)

/-- Derives and installs Initial keys. -/
def derive_initial (dcid : Bytes) (is_client : Bool) : Method (ConnectionKeys X) Error Unit := do
  let (client_keys, server_keys) ← Method.lift (initial_keys X dcid)
  if is_client then
    Method.modify fun k => { k with initial_send := some client_keys, initial_recv := some server_keys }
  else
    Method.modify fun k => { k with initial_send := some server_keys, initial_recv := some client_keys }

/-- Installs keys the TLS engine derived. -/
def install_derived (derived : DerivedKeys) : Method (ConnectionKeys X) Error Unit := do
  let send_keys ← Method.lift (derive_directional_keys_for X.C derived.send_secret derived.cipher_suite)
  let recv_keys ← Method.lift (derive_directional_keys_for X.C derived.recv_secret derived.cipher_suite)
  match derived.level with
  | .Handshake =>
    Method.modify fun k => { k with handshake_send := some send_keys, handshake_recv := some recv_keys }
  | .Application => do
    Method.modify fun k =>
      { k with
        app_send := some send_keys
        app_recv := some recv_keys
        key_update := { k.key_update with
          send_secret := derived.send_secret
          recv_secret := derived.recv_secret
          key_len := derived.cipher_suite.key_len
          key_phase := 0
          update_confirmed := true } }
    let hp_key_len := derived.cipher_suite.hp_key_len
    let send_hp ← Method.lift
      (hkdf_expand_label X.C.hkdf derived.send_secret (ascii "quic hp") [] hp_key_len)
    let recv_hp ← Method.lift
      (hkdf_expand_label X.C.hkdf derived.recv_secret (ascii "quic hp") [] hp_key_len)
    Method.modify fun k =>
      { k with key_update := { k.key_update with send_hp_key := send_hp, recv_hp_key := recv_hp } }
  | .Initial => pure ()

/-- Send keys of the Handshake and Application level. -/
def send_keys (k : ConnectionKeys X) : Level → Option (DirectionalKeys X.C)
  | .Initial => none
  | .Handshake => k.handshake_send
  | .Application => k.app_send

/-- Receive keys of the Handshake and Application level. -/
def recv_keys (k : ConnectionKeys X) : Level → Option (DirectionalKeys X.C)
  | .Initial => none
  | .Handshake => k.handshake_recv
  | .Application => k.app_recv

def drop_initial (k : ConnectionKeys X) : ConnectionKeys X :=
  { k with initial_send := none, initial_recv := none }

def drop_handshake (k : ConnectionKeys X) : ConnectionKeys X :=
  { k with handshake_send := none, handshake_recv := none }

def has_send_keys (k : ConnectionKeys X) : Level → Bool
  | .Initial => k.initial_send.isSome
  | level => (k.send_keys level).isSome

def has_recv_keys (k : ConnectionKeys X) : Level → Bool
  | .Initial => k.initial_recv.isSome
  | level => (k.recv_keys level).isSome

/-- The key phase bit of 1-RTT packets. -/
def key_phase (k : ConnectionKeys X) : UInt8 := k.key_update.key_phase

/-- A key update may start only after the previous one is confirmed. -/
def can_initiate_key_update (k : ConnectionKeys X) : Bool :=
  k.app_send.isSome && k.app_recv.isSome && k.key_update.update_confirmed &&
    k.key_update.send_secret.length > 0

def needs_key_update (k : ConnectionKeys X) : Bool :=
  k.can_initiate_key_update &&
    (k.key_update.packets_encrypted ≥ AEAD_CONFIDENTIALITY_LIMIT ||
      k.key_update.packets_decrypted ≥ AEAD_CONFIDENTIALITY_LIMIT)

/-- Keys of the next generation. The header protection key stays the original one. -/
def derive_key_update_keys (k : ConnectionKeys X) (secret hp_key : Bytes) :
    Except Error (DirectionalKeys X.C) := do
  let key ← hkdf_expand_label X.C.hkdf secret (ascii "quic key") [] k.key_update.key_len
  let iv ← hkdf_expand_label X.C.hkdf secret (ascii "quic iv") [] 12
  let aead ← X.C.aead key
  let header_protection ← X.C.header_protection hp_key
  pure { aead, header_protection, iv }

/-- Moves to the next generation: the receive keys in use become the previous ones. -/
def rotate (k : ConnectionKeys X) (send_keys recv_keys : DirectionalKeys X.C)
    (send_secret recv_secret : Bytes) (confirmed : Bool) (decrypted : Nat) : ConnectionKeys X :=
  { k with
    app_send := some send_keys
    app_recv := some recv_keys
    key_update := { k.key_update with
      prev_recv_key := k.app_recv
      send_secret
      recv_secret
      key_phase := k.key_update.key_phase ^^^ 1
      update_confirmed := confirmed
      packets_encrypted := 0
      packets_decrypted := decrypted } }

/-- Starts a key update of our own. -/
def perform_key_update : Method (ConnectionKeys X) Error Unit := do
  let k ← Method.get
  Method.require (k.can_initiate_key_update = true) (.Transport .KeyUpdateError)
  let send_secret ← Method.lift (derive_next_application_secret X.C.hkdf k.key_update.send_secret)
  let recv_secret ← Method.lift (derive_next_application_secret X.C.hkdf k.key_update.recv_secret)
  let send_keys ← Method.lift (k.derive_key_update_keys send_secret k.key_update.send_hp_key)
  let recv_keys ← Method.lift (k.derive_key_update_keys recv_secret k.key_update.recv_hp_key)
  Method.modify fun k => k.rotate send_keys recv_keys send_secret recv_secret false 0

/-- Receive keys of the next generation, for a packet whose key phase differs. -/
def derive_next_recv_keys (k : ConnectionKeys X) : Except Error (DirectionalKeys X.C) :=
  if k.key_update.send_secret.length = 0 then .error .Crypto
  else do
    let recv_secret ← derive_next_application_secret X.C.hkdf k.key_update.recv_secret
    k.derive_key_update_keys recv_secret k.key_update.recv_hp_key

/-- Follows the peer's key update after a packet of it was opened. -/
def confirm_peer_key_update (new_recv_keys : DirectionalKeys X.C) :
    Method (ConnectionKeys X) Error Unit := do
  let k ← Method.get
  let send_secret ← Method.lift (derive_next_application_secret X.C.hkdf k.key_update.send_secret)
  let recv_secret ← Method.lift (derive_next_application_secret X.C.hkdf k.key_update.recv_secret)
  let send_keys ← Method.lift (k.derive_key_update_keys send_secret k.key_update.send_hp_key)
  Method.modify fun k => k.rotate send_keys new_recv_keys send_secret recv_secret true 1

/-! ## What the operations do to each level -/

/-- Initial keys come from public values: deriving them cannot fail. -/
theorem initial_keys_ok (X : Primitives) (dcid : Bytes) :
    ∃ c s, initial_keys X dcid = .ok (c, s) := by
  obtain ⟨cs, ss, hsec, hc, hs⟩ := derive_initial_secrets_ok X.Aes128GcmProvider.hkdf dcid
  obtain ⟨c, hck⟩ := derive_directional_keys_aes_ok X hc
  obtain ⟨s, hsk⟩ := derive_directional_keys_aes_ok X hs
  refine ⟨c, s, ?_⟩
  simp only [initial_keys, hsec, except_ok_bind, hck, hsk]
  rfl

end ConnectionKeys

end milli_http.connection
