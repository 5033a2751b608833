-- A stand-in for the primitives of other crates, small enough to evaluate a run of the
-- model. A tag depends on the key, the nonce, the associated data and the plaintext, so a
-- packet opens only as it was sealed.
import MilliHttp.Connection.Steps

open bytes method

namespace milli_http.standin

open crypto connection packet frame tls

/-- A 32-byte digest: the bytes as a number, reduced modulo a prime. -/
def digest (b : Bytes) : Bytes := toBe 32 (beNat (1 :: b) % (2 ^ 255 - 19))

theorem digest_length (b : Bytes) : (digest b).length = 32 := toBe_length _ _

def hkdf : Hkdf where
  extract salt ikm := digest (salt ++ ikm)
  okm prk info len := toBe len (beNat (digest (prk ++ info)))
  extract_length _ _ := digest_length _
  okm_length _ _ _ := toBe_length _ _

def tag (key nonce aad plaintext : Bytes) : Bytes := (digest (key ++ nonce ++ aad ++ plaintext)).take 16

theorem tag_length (key nonce aad plaintext : Bytes) : (tag key nonce aad plaintext).length = 16 := by
  simp [tag, digest_length]

def open_tagged (key nonce aad ciphertext : Bytes) : Except Error Bytes :=
  let plaintext := ciphertext.take (ciphertext.length - 16)
  if 16 ≤ ciphertext.length ∧ ciphertext.drop (ciphertext.length - 16) = tag key nonce aad plaintext then
    .ok plaintext
  else .error .Crypto

def key_of (len : Nat) (key : Bytes) : Except Error Bytes :=
  if key.length = len then .ok key else .error .Crypto

theorem key_of_ok {len : Nat} (key : Bytes) (h : key.length = len) : ∃ a, key_of len key = .ok a :=
  ⟨key, if_pos h⟩

/-- A provider of AES-128-GCM's key length. -/
def provider : CryptoProvider where
  Aead := Bytes
  HeaderProtection := Bytes
  KEY_LEN := 16
  hkdf := hkdf
  cipher_suites := [.TlsAes128GcmSha256]
  aead := key_of 16
  header_protection := key_of 16
  seal_in_place key nonce aad plaintext := plaintext ++ tag key nonce aad plaintext
  open_in_place := open_tagged
  mask key sample := (digest (key ++ sample)).take 5
  seal_length _ _ _ _ := by simp [tag_length, TAG_LEN]
  open_length key nonce aad ciphertext plaintext h := by
    unfold open_tagged at h
    dsimp only at h
    split at h
    · cases h
      simp [TAG_LEN]
      omega
    · cases h
  mask_length _ _ := by simp [digest_length]

def primitives : Primitives where
  C := provider
  Aes128GcmProvider := provider
  sha256 := digest
  x25519_public := digest
  diffie_hellman secret public_key := toBe 32 ((beNat (digest secret) + beNat public_key) % 2 ^ 255)
  ed25519_sign key message := digest (key ++ message) ++ digest (message ++ key)
  ed25519_verify key message signature :=
    signature == digest (key ++ message) ++ digest (message ++ key)
  p256_sign key message := .ok (digest (key ++ message))
  p256_verify key message signature := signature == digest (key ++ message)
  aes_key_len := rfl
  aes_aead := key_of_ok
  aes_header_protection := key_of_ok

/-- A build with small buffers. -/
def build : Build :=
  { primitives with
    MAX_STREAMS := 4
    SENT_PER_SPACE := 8
    MAX_CIDS := 2
    CRYPTO_BUF := 1024
    STREAM_BUF := 16
    SEND_QUEUE := 4
    EVENTS := 16 }

/-! ## A client and its peer -/

/-- A client of the build that offers `tp`. -/
def client (tp : TransportParams) : Connection build :=
  ((Connection.client build (ascii "a") [] tp (List.replicate 32 7) (List.replicate 32 9)
    [1, 2, 3, 4] [8, 7, 6, 5]).toOption).get (by
      obtain ⟨c, hc⟩ := Connection.client_ok build (ascii "a") (by decide) [] tp
        (List.replicate 32 7) (List.replicate 32 9) [1, 2, 3, 4] [8, 7, 6, 5]
      rw [hc]
      rfl)

theorem client_started (tp : TransportParams) : Connection.Started (client tp) := by
  obtain ⟨c, hc⟩ := Connection.client_ok build (ascii "a") (by decide) [] tp
    (List.replicate 32 7) (List.replicate 32 9) [1, 2, 3, 4] [8, 7, 6, 5]
  have hclient : client tp = c := by
    simp only [client, hc]
    rfl
  exact .client (hclient ▸ hc)

/-- A certificate with an Ed25519 key; in the stand-in it is the private key as well. -/
def cert_der : Bytes := ED25519_OID ++ [0x03, 33, 0x00] ++ List.replicate 32 5 ++ [0]

/-- A server of the build that offers `tp`. -/
def server (tp : TransportParams) : Connection build :=
  Connection.server build
    { cert_der, private_key_der := List.replicate 32 5, alpn_protocols := [], transport_params := tp }
    tp (List.replicate 32 3) (List.replicate 32 4) [5, 5, 5, 5]

/-- Sends the next datagram of one side to the other. -/
def deliver (c d : Connection build) : Connection build × Call × Connection build :=
  let (t, c) := c.poll_transmit 1500 0
  let call := Call.recv ((t.map (·.data)).getD []) 1500 0
  (c, call, (call.run d).getD d)

/-- What a client is called with in some round trips with a server. -/
def round_trips : Nat → Connection build → Connection build → List Call
  | 0, _, _ => []
  | n + 1, c, s =>
    let (c, _, s) := deliver c s
    let (s, answer, c) := deliver s c
    .op (.poll_transmit 1500 0) :: answer :: round_trips n c s

/-- The calls of a handshake at the client. -/
def handshake (client_params server_params : TransportParams) : List Call :=
  round_trips 2 (client client_params) (server server_params)

/-- The bytes of some frames. -/
def encoded (frames : List Frame) : Bytes :=
  frames.flatMap fun f => (encode f 2048).toOption.getD []

/-- An Initial packet as a server seals it, and as can anyone who saw the Destination
Connection ID of the client's first packet. -/
def initial_from_server (dcid : Bytes) (pn : Nat) (frames : List Frame) : Bytes :=
  let payload := encoded frames
  let header := encode_initial_header [1, 2, 3, 4] [] [] 1 (1 + payload.length + 16) 2048
  match ConnectionKeys.initial_keys primitives dcid with
  | .error _ => []
  | .ok (_, server_keys) =>
    ((seal_packet server_keys 0x0f 2048 header payload pn 0).toOption).getD []

end milli_http.standin
