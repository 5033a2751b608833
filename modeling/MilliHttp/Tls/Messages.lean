-- TLS 1.3 handshake messages and extensions (tls/messages.rs, tls/extensions.rs), with
-- the public keys of certificates (crypto/ed25519.rs, crypto/ecdsa_p256.rs).
import MilliHttp.Crypto
import MilliHttp.Tls.TransportParams

open bytes method

namespace milli_http.tls

open crypto frame

/-! ## Reading -/

/-- Reads `len` bytes or fails with a TLS error. -/
def take_bytes (len : Nat) : Reader Bytes := fun data =>
  if data.length < len then (.error .Tls, data) else (.ok (data.take len), data.drop len)

/-- Reads a big-endian number of `len` bytes. -/
def take_uint (len : Nat) : Reader Nat := do
  let b ← take_bytes len
  pure (beNat b)

/-- Reads a byte string behind a length of `len_len` bytes. -/
def take_prefixed (len_len : Nat) : Reader Bytes := do
  let len ← take_uint len_len
  take_bytes len

/-- Runs a reader on a byte string and ignores what it leaves. -/
def parse {α : Type} (r : Reader α) (data : Bytes) : Except Error α := (r data).1

/-! ## Messages -/

inductive HandshakeType where
  | ClientHello
  | ServerHello
  | EncryptedExtensions
  | Certificate
  | CertificateVerify
  | Finished
  deriving DecidableEq, Repr

namespace HandshakeType

def code : HandshakeType → UInt8
  | ClientHello => 1
  | ServerHello => 2
  | EncryptedExtensions => 8
  | Certificate => 11
  | CertificateVerify => 15
  | Finished => 20

def from_u8 (v : UInt8) : Option HandshakeType :=
  if v = 1 then some ClientHello
  else if v = 2 then some ServerHello
  else if v = 8 then some EncryptedExtensions
  else if v = 11 then some Certificate
  else if v = 15 then some CertificateVerify
  else if v = 20 then some Finished
  else none

end HandshakeType

structure ClientHello where
  random : Bytes
  session_id : Bytes
  cipher_suites : Bytes
  extensions : Bytes
  deriving DecidableEq, Repr

structure ServerHello where
  random : Bytes
  session_id : Bytes
  cipher_suite : CipherSuite
  extensions : Bytes
  deriving DecidableEq, Repr

structure CertificateVerify where
  algorithm : Nat
  signature : Bytes
  deriving DecidableEq, Repr

/-- The extensions at the end of a hello. Fewer than two bytes left mean there are none. -/
def take_hello_extensions : Reader Bytes := fun data =>
  if data.length < 2 then (.ok [], data) else take_prefixed 2 data

def parse_server_hello (data : Bytes) : Except Error ServerHello :=
  parse (do
    let _version ← take_uint 2
    let random ← take_bytes 32
    let session_id ← take_prefixed 1
    let cs_val ← take_uint 2
    let cipher_suite ← Method.okOr (CipherSuite.from_u16 cs_val) .Tls
    let _compression ← take_uint 1
    let extensions ← take_hello_extensions
    pure { random, session_id, cipher_suite, extensions }) data

def parse_client_hello (data : Bytes) : Except Error ClientHello :=
  parse (do
    let _version ← take_uint 2
    let random ← take_bytes 32
    let session_id ← take_prefixed 1
    let cipher_suites ← take_prefixed 2
    let _compression ← take_prefixed 1
    let extensions ← take_hello_extensions
    pure { random, session_id, cipher_suites, extensions }) data

def parse_encrypted_extensions (data : Bytes) : Except Error Bytes := parse (take_prefixed 2) data

/-- The certificate entries of a Certificate message. -/
def parse_certificate (data : Bytes) : Except Error Bytes :=
  parse (do
    let _context ← take_prefixed 1
    take_prefixed 3) data

/-- The first certificate of the entries, if there is an entry. -/
def first_certificate_entry (entries : Bytes) : Option (Except Error Bytes) :=
  if entries = [] then none
  else some (parse (do
    let cert_data ← take_prefixed 3
    let _extensions ← take_prefixed 2
    pure cert_data) entries)

def parse_certificate_verify (data : Bytes) : Except Error CertificateVerify :=
  parse (do
    let algorithm ← take_uint 2
    let signature ← take_prefixed 2
    pure { algorithm, signature }) data

/-- The verify data of a Finished message. -/
def parse_finished (data : Bytes) : Except Error Bytes := parse (take_bytes 32) data

/-- The two-byte numbers of a byte string; an odd byte at the end is left out. -/
def u16_pairs : Bytes → List Nat
  | a :: b :: rest => beNat [a, b] :: u16_pairs rest
  | _ => []

/-- A message with its header, in a buffer of `cap` bytes. -/
def encode_message (ty : HandshakeType) (body : Bytes) (cap : Nat) : Except Error Bytes :=
  if cap < 4 + body.length then .error (.BufferTooSmall (4 + body.length))
  else .ok ([ty.code] ++ toBe 3 body.length ++ body)

def encode_client_hello (random session_id : Bytes) (cipher_suites : List CipherSuite)
    (extensions : Bytes) (cap : Nat) : Except Error Bytes :=
  encode_message .ClientHello
    ([0x03, 0x03] ++ random ++ [UInt8.ofNat session_id.length] ++ session_id ++
      toBe 2 (cipher_suites.length * 2) ++ (cipher_suites.flatMap fun cs => toBe 2 cs.to_u16) ++
      [1, 0] ++ toBe 2 extensions.length ++ extensions) cap

def encode_server_hello (random session_id : Bytes) (cipher_suite : CipherSuite)
    (extensions : Bytes) (cap : Nat) : Except Error Bytes :=
  encode_message .ServerHello
    ([0x03, 0x03] ++ random ++ [UInt8.ofNat session_id.length] ++ session_id ++
      toBe 2 cipher_suite.to_u16 ++ [0] ++ toBe 2 extensions.length ++ extensions) cap

def encode_encrypted_extensions (extensions : Bytes) (cap : Nat) : Except Error Bytes :=
  encode_message .EncryptedExtensions (toBe 2 extensions.length ++ extensions) cap

def encode_certificate (cert_der : Bytes) (cap : Nat) : Except Error Bytes :=
  encode_message .Certificate
    ([0] ++ toBe 3 (3 + cert_der.length + 2) ++ toBe 3 cert_der.length ++ cert_der ++ [0, 0]) cap

def encode_certificate_verify (algorithm : Nat) (signature : Bytes) (cap : Nat) :
    Except Error Bytes :=
  encode_message .CertificateVerify (toBe 2 algorithm ++ toBe 2 signature.length ++ signature) cap

def encode_finished (verify_data : Bytes) (cap : Nat) : Except Error Bytes :=
  encode_message .Finished verify_data cap

/-! ## Extensions -/

def EXT_SERVER_NAME : Nat := 0x0000
def EXT_SIGNATURE_ALGORITHMS : Nat := 0x000d
def EXT_ALPN : Nat := 0x0010
def EXT_RECORD_SIZE_LIMIT : Nat := 0x001c
def EXT_SUPPORTED_VERSIONS : Nat := 0x002b
def EXT_KEY_SHARE : Nat := 0x0033
def EXT_QUIC_TRANSPORT_PARAMS : Nat := 0x0039
def GROUP_X25519 : Nat := 0x001d

structure ServerHelloExtensions where
  selected_version : Nat
  key_share : Option Bytes
  deriving DecidableEq, Repr

structure EncryptedExtensionsData where
  alpn : Option Bytes
  transport_params : Option TransportParams
  record_size_limit : Option Nat
  deriving DecidableEq, Repr

structure ClientHelloExtensions where
  key_share : Option Bytes
  supports_tls13 : Bool
  alpn_protocols : List Bytes
  transport_params : Option TransportParams
  record_size_limit : Option Nat
  deriving DecidableEq, Repr

/-- Walks over an extension block, four bytes of type and length at a time. Fewer than four
bytes left end the walk. -/
def fold_extensions {ρ : Type} (step : ρ → Nat → Bytes → Except Error ρ) :
    Nat → ρ → Bytes → Except Error ρ
  | 0, result, _ => .ok result
  | fuel + 1, result, data =>
    if data.length < 4 then .ok result
    else
      let ext_type := beNat (data.take 2)
      let ext_len := beNat ((data.drop 2).take 2)
      let rest := data.drop 4
      if rest.length < ext_len then .error .Tls
      else do
        let result ← step result ext_type (rest.take ext_len)
        fold_extensions step fuel result (rest.drop ext_len)

def parse_record_size_limit (ext_data : Bytes) : Except Error Nat :=
  if ext_data.length ≠ 2 then .error .Tls
  else if beNat ext_data < 64 then .error .Tls
  else .ok (beNat ext_data)

def server_hello_extension (result : ServerHelloExtensions) (ext_type : Nat) (ext_data : Bytes) :
    Except Error ServerHelloExtensions :=
  if ext_type = EXT_SUPPORTED_VERSIONS then do
    let version ← parse (take_uint 2) ext_data
    pure { result with selected_version := version }
  else if ext_type = EXT_KEY_SHARE then do
    let (group, key_len) ← parse (do pure (← take_uint 2, ← take_uint 2)) ext_data
    if group ≠ GROUP_X25519 ∨ key_len ≠ 32 then .error .Tls
    else do
      let key ← parse (take_bytes 32) (ext_data.drop 4)
      pure { result with key_share := some key }
  else .ok result

def parse_server_hello_extensions (data : Bytes) : Except Error ServerHelloExtensions :=
  fold_extensions server_hello_extension data.length { selected_version := 0, key_share := none } data

/-- A protocol name of at most 16 bytes. -/
def alpn_name (name : Bytes) : Except Error Bytes :=
  if name.length > 16 then .error .Tls else .ok name

def encrypted_extension (result : EncryptedExtensionsData) (ext_type : Nat) (ext_data : Bytes) :
    Except Error EncryptedExtensionsData :=
  if ext_type = EXT_ALPN then do
    let list ← parse (take_prefixed 2) ext_data
    let name ← parse (take_prefixed 1) list
    let name ← alpn_name name
    pure { result with alpn := some name }
  else if ext_type = EXT_QUIC_TRANSPORT_PARAMS then do
    let tp ← TransportParams.decode ext_data
    pure { result with transport_params := some tp }
  else if ext_type = EXT_RECORD_SIZE_LIMIT then do
    let limit ← parse_record_size_limit ext_data
    pure { result with record_size_limit := some limit }
  else .ok result

def parse_encrypted_extensions_data (data : Bytes) : Except Error EncryptedExtensionsData :=
  fold_extensions encrypted_extension data.length
    { alpn := none, transport_params := none, record_size_limit := none } data

/-- The last X25519 share of a client's key shares. -/
def client_key_share : Nat → Option Bytes → Bytes → Except Error (Option Bytes)
  | 0, key, _ => .ok key
  | fuel + 1, key, shares =>
    if shares.length < 4 then .ok key
    else
      let group := beNat (shares.take 2)
      let key_len := beNat ((shares.drop 2).take 2)
      let rest := shares.drop 4
      if rest.length < key_len then .error .Tls
      else
        let key := if group = GROUP_X25519 ∧ key_len = 32 then some (rest.take 32) else key
        client_key_share fuel key (rest.drop key_len)

/-- The protocol names a client offers: at most four. -/
def client_alpn : Nat → List Bytes → Bytes → Except Error (List Bytes)
  | 0, names, _ => .ok names
  | fuel + 1, names, list =>
    if list = [] then .ok names
    else do
      let name ← parse (take_prefixed 1) list
      let name ← alpn_name name
      if names.length ≥ 4 then .error .Tls
      else client_alpn fuel (names ++ [name]) (list.drop (1 + name.length))

def client_hello_extension (result : ClientHelloExtensions) (ext_type : Nat) (ext_data : Bytes) :
    Except Error ClientHelloExtensions :=
  if ext_type = EXT_SUPPORTED_VERSIONS then do
    let versions ← parse (take_prefixed 1) ext_data
    pure { result with
      supports_tls13 := result.supports_tls13 || (u16_pairs versions).contains 0x0304 }
  else if ext_type = EXT_KEY_SHARE then do
    let shares ← parse (take_prefixed 2) ext_data
    let key ← client_key_share shares.length result.key_share shares
    pure { result with key_share := key }
  else if ext_type = EXT_ALPN then do
    let list ← parse (take_prefixed 2) ext_data
    let names ← client_alpn list.length result.alpn_protocols list
    pure { result with alpn_protocols := names }
  else if ext_type = EXT_QUIC_TRANSPORT_PARAMS then do
    let tp ← TransportParams.decode ext_data
    pure { result with transport_params := some tp }
  else if ext_type = EXT_RECORD_SIZE_LIMIT then do
    let limit ← parse_record_size_limit ext_data
    pure { result with record_size_limit := some limit }
  else .ok result

def parse_client_hello_extensions (data : Bytes) : Except Error ClientHelloExtensions :=
  fold_extensions client_hello_extension data.length
    { key_share := none, supports_tls13 := false, alpn_protocols := [], transport_params := none,
      record_size_limit := none } data

/-- Appends a two-byte number to a buffer of `cap` bytes. -/
def put_u16 (cap value : Nat) : Writer := write_bytes cap (toBe 2 value)

/-- The bytes a writer leaves in an empty buffer. -/
def written (w : Writer) : Except Error Bytes :=
  match w [] with
  | (.ok _, out) => .ok out
  | (.error e, _) => .error e

/-- The transport parameters as an extension. They are encoded in a buffer of 256 bytes. -/
def put_transport_params (cap : Nat) (transport_params : Option TransportParams) : Writer :=
  match transport_params with
  | none => pure ()
  | some tp => do
    let b ← Method.lift (tp.encode 256)
    put_u16 cap EXT_QUIC_TRANSPORT_PARAMS
    put_u16 cap b.length
    write_bytes cap b

def put_record_size_limit (cap : Nat) (record_size_limit : Option Nat) : Writer :=
  match record_size_limit with
  | none => pure ()
  | some limit => do
    put_u16 cap EXT_RECORD_SIZE_LIMIT
    put_u16 cap 2
    put_u16 cap limit

/-- Appends protocol names, each behind its length. -/
def put_alpn_names (cap : Nat) : List Bytes → Writer
  | [] => pure ()
  | proto :: rest => do
    write_bytes cap ([UInt8.ofNat proto.length] ++ proto)
    put_alpn_names cap rest

/-- The ALPN extension; an empty list of names leaves it out. -/
def put_alpn (cap : Nat) (names : List Bytes) : Writer :=
  if names = [] then pure ()
  else do
    let list_len := (names.map fun proto => 1 + proto.length).sum
    put_u16 cap EXT_ALPN
    put_u16 cap (2 + list_len)
    put_u16 cap list_len
    put_alpn_names cap names

def encode_client_hello_extensions (server_name public_key : Bytes) (alpn : List Bytes)
    (transport_params : Option TransportParams) (record_size_limit : Option Nat) (cap : Nat) :
    Except Error Bytes :=
  written (do
    put_server_name cap
    put_u16 cap EXT_SUPPORTED_VERSIONS
    put_u16 cap 3
    write_bytes cap [2, 0x03, 0x04]
    put_u16 cap EXT_KEY_SHARE
    put_u16 cap (2 + 36)
    put_u16 cap 36
    put_u16 cap GROUP_X25519
    put_u16 cap 32
    write_bytes cap public_key
    put_u16 cap EXT_SIGNATURE_ALGORITHMS
    put_u16 cap (2 + 6)
    put_u16 cap 6
    put_u16 cap 0x0807
    put_u16 cap 0x0403
    put_u16 cap 0x0804
    put_alpn cap alpn
    put_transport_params cap transport_params
    put_record_size_limit cap record_size_limit)
where
  /-- SNI, left out for an empty name. -/
  put_server_name (cap : Nat) : Writer :=
    if server_name = [] then pure ()
    else do
      put_u16 cap EXT_SERVER_NAME
      put_u16 cap (2 + 1 + 2 + server_name.length)
      put_u16 cap (1 + 2 + server_name.length)
      write_bytes cap [0]
      put_u16 cap server_name.length
      write_bytes cap server_name

def encode_server_hello_extensions (public_key : Bytes) (cap : Nat) : Except Error Bytes :=
  written (do
    put_u16 cap EXT_SUPPORTED_VERSIONS
    put_u16 cap 2
    put_u16 cap 0x0304
    put_u16 cap EXT_KEY_SHARE
    put_u16 cap 36
    put_u16 cap GROUP_X25519
    put_u16 cap 32
    write_bytes cap public_key)

def encode_encrypted_extensions_data (selected_alpn : Bytes)
    (transport_params : Option TransportParams) (record_size_limit : Option Nat) (cap : Nat) :
    Except Error Bytes :=
  written (do
    put_alpn cap (if selected_alpn = [] then [] else [selected_alpn])
    put_transport_params cap transport_params
    put_record_size_limit cap record_size_limit)

/-! ## Public keys of certificates -/

/-- Where `needle` first occurs, looking from position `i` on. -/
def find_from (needle : Bytes) : Nat → Bytes → Option Nat
  | _, [] => none
  | i, b :: rest =>
    if (b :: rest).take needle.length = needle then some i else find_from needle (i + 1) rest

def find_subsequence (haystack needle : Bytes) : Option Nat :=
  if needle = [] then none else find_from needle 0 haystack

def ED25519_OID : Bytes := [0x06, 0x03, 0x2b, 0x65, 0x70]

def SECP256R1_OID : Bytes := [0x06, 0x08, 0x2a, 0x86, 0x48, 0xce, 0x3d, 0x03, 0x01, 0x07]

/-- Looks for the BIT STRING of an Ed25519 key from a position on, with at most `count`
positions left to look at. -/
def ed25519_key_from : Nat → Bytes → Except Error Bytes
  | 0, _ => .error .Tls
  | count + 1, cert =>
    if cert.take 2 = [0x03, 33] then
      if (cert.drop 2).take 1 = [0x00] ∧ 35 ≤ cert.length then .ok ((cert.drop 3).take 32)
      else .error .Tls
    else ed25519_key_from count (cert.drop 1)

def extract_ed25519_pubkey_from_cert (cert_der : Bytes) : Except Error Bytes :=
  match find_subsequence cert_der ED25519_OID with
  | none => .error .Tls
  | some oid_pos =>
    let after_oid := oid_pos + ED25519_OID.length
    ed25519_key_from (cert_der.length - 34 - after_oid) (cert_der.drop after_oid)

/-- A DER length field: the length and the bytes it took. -/
def parse_asn1_length : Bytes → Except Error (Nat × Nat)
  | [] => .error .Tls
  | b :: rest =>
    if b < 0x80 then .ok (b.toNat, 1)
    else if b = 0x81 then
      match rest with
      | [] => .error .Tls
      | c :: _ => .ok (c.toNat, 2)
    else if b = 0x82 then
      match rest with
      | c :: d :: _ => .ok (beNat [c, d], 3)
      | _ => .error .Tls
    else .error .Tls

/-- Looks for the BIT STRING of a P-256 key from a position on. -/
def p256_key_from : Nat → Bytes → Except Error Bytes
  | 0, _ => .error .Tls
  | count + 1, cert =>
    if cert.take 1 = [0x03] then do
      let (bit_string_len, hdr_len) ← parse_asn1_length (cert.drop 1)
      let content := cert.drop (1 + hdr_len)
      if bit_string_len = 66 then
        if content.take 1 = [0x00] ∧ 66 ≤ content.length then .ok ((content.drop 1).take 65)
        else .error .Tls
      else p256_key_from count (cert.drop 1)
    else p256_key_from count (cert.drop 1)

def extract_p256_pubkey_from_cert (cert_der : Bytes) : Except Error Bytes :=
  match find_subsequence cert_der SECP256R1_OID with
  | none => .error .Tls
  | some oid_pos =>
    let after_oid := oid_pos + SECP256R1_OID.length
    p256_key_from (cert_der.length - 66 - after_oid) (cert_der.drop after_oid)

def cert_has_p256_key (cert_der : Bytes) : Bool := (find_subsequence cert_der SECP256R1_OID).isSome

end milli_http.tls
