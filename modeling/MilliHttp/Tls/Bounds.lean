-- Indices, slices and sums in the TLS parsers (tls/messages.rs, tls/extensions.rs,
-- tls/transport_params.rs, crypto/ecdsa_p256.rs, crypto/ed25519.rs). The parsers are written out
-- with their offsets, where a read outside the input is a panic, and shown to be the ones that
-- read from the front of what is left.
import MilliHttp.Lib.Cursor
import MilliHttp.Tls.Messages

open bytes method Outcome cursor
open method.Method (bind_run bind_eq_ok)

namespace milli_http.tls.bounds

open crypto frame varint

/-! ## Offsets -/

/-- `a + b` of two `usize`. -/
def add_usize (a b : Nat) : Outcome Error Nat := if a + b < 2 ^ 64 then .ok (a + b) else .panic

/-- The big-endian number in `data[off]` to `data[off + len - 1]`. -/
def uint_at (data : Bytes) (off : Nat) : Nat → Outcome Error Nat
  | 0 => .ok 0
  | len + 1 => do
    let high ← uint_at data off len
    let i ← add_usize off len
    let b ← index data i
    .ok (high * 256 + b.toNat)

/-- `if off + len > data.len() { return Err }`, then `&data[off..off + len]` and the offset behind
it. -/
def checked_slice (data : Bytes) (off len : Nat) : Outcome Error (Bytes × Nat) := do
  let end_ ← add_usize off len
  if end_ > data.length then .err .Tls
  else do
    let s ← slice data off end_
    .ok (s, end_)

/-- The same check in front of a number of `len` bytes, as in `get_u16`. -/
def checked_uint (data : Bytes) (off len : Nat) : Outcome Error (Nat × Nat) := do
  let end_ ← add_usize off len
  if end_ > data.length then .err .Tls
  else do
    let v ← uint_at data off len
    .ok (v, end_)

/-- A byte string behind its length. -/
def prefixed_slice (data : Bytes) (off len_len : Nat) : Outcome Error (Bytes × Nat) := do
  let (len, off) ← checked_uint data off len_len
  checked_slice data off len

/-! ## Messages -/

/-- Version, random and the length of the session id, behind one check, and the session id. -/
def hello_start (data : Bytes) : Outcome Error ((Bytes × Bytes) × Nat) :=
  if data.length < 2 + 32 + 1 then .err .Tls
  else do
    let _version ← uint_at data 0 2
    let random ← slice data 2 34
    let sid_len ← uint_at data 34 1
    let (session_id, off) ← checked_slice data 35 sid_len
    .ok ((random, session_id), off)

/-- The extensions at the end of a hello. -/
def hello_extensions (data : Bytes) (off : Nat) : Outcome Error Bytes := do
  let end_ ← add_usize off 2
  if end_ ≤ data.length then do
    let ext_len ← uint_at data off 2
    let (extensions, _) ← checked_slice data end_ ext_len
    .ok extensions
  else .ok []

def parse_server_hello (data : Bytes) : Outcome Error ServerHello := do
  let ((random, session_id), off) ← hello_start data
  let (cs_val, off) ← checked_uint data off 2
  match CipherSuite.from_u16 cs_val with
  | none => .err .Tls
  | some cipher_suite => do
    let (_compression, off) ← checked_uint data off 1
    let extensions ← hello_extensions data off
    .ok { random, session_id, cipher_suite, extensions }

def parse_client_hello (data : Bytes) : Outcome Error ClientHello := do
  let ((random, session_id), off) ← hello_start data
  let (cipher_suites, off) ← prefixed_slice data off 2
  let (_compression, off) ← prefixed_slice data off 1
  let extensions ← hello_extensions data off
  .ok { random, session_id, cipher_suites, extensions }

def parse_encrypted_extensions (data : Bytes) : Outcome Error Bytes :=
  if data.length < 2 then .err .Tls
  else do
    let ext_len ← uint_at data 0 2
    let (extensions, _) ← checked_slice data 2 ext_len
    .ok extensions

/-- What a Certificate message holds. -/
structure CertificatePayload where
  context : Bytes
  entries : Bytes
  deriving DecidableEq, Repr

def parse_certificate (data : Bytes) : Outcome Error CertificatePayload :=
  if data = [] then .err .Tls
  else do
    let ctx_len ← uint_at data 0 1
    let (context, off) ← checked_slice data 1 ctx_len
    let (entries, _) ← prefixed_slice data off 3
    .ok { context, entries }

structure CertificateEntry where
  cert_data : Bytes
  extensions : Bytes
  deriving DecidableEq, Repr

/-- A byte string behind its length at the front, and what is left. -/
def split_prefixed (data : Bytes) (len_len : Nat) : Outcome Error (Bytes × Bytes) :=
  if data.length < len_len then .err .Tls
  else do
    let len ← uint_at data 0 len_len
    let data ← sliceFrom data len_len
    if data.length < len then .err .Tls
    else do
      let s ← slice data 0 len
      let data ← sliceFrom data len
      .ok (s, data)

/-- An entry at the front, and what is left. -/
def certificate_entry (data : Bytes) : Outcome Error (CertificateEntry × Bytes) := do
  let (cert_data, data) ← split_prefixed data 3
  let (extensions, data) ← split_prefixed data 2
  .ok ({ cert_data, extensions }, data)

/-- `next` of `iter_certificate_entries`: an item and the data kept for the next call. An error
leaves none. -/
def next_certificate_entry (data : Bytes) :
    Option (Outcome Error CertificateEntry × Bytes) :=
  if data = [] then none
  else
    match certificate_entry data with
    | .ok (entry, data) => some (.ok entry, data)
    | .err e => some (.err e, [])
    | .panic => some (.panic, [])

def parse_certificate_verify (data : Bytes) : Outcome Error CertificateVerify :=
  if data.length < 4 then .err .Tls
  else do
    let algorithm ← uint_at data 0 2
    let sig_len ← uint_at data 2 2
    let (signature, _) ← checked_slice data 4 sig_len
    .ok { algorithm, signature }

def parse_finished (data : Bytes) : Outcome Error Bytes :=
  if data.length < 32 then .err .Tls else slice data 0 32

/-! ## Transport parameters -/

def decode_varint (buf : Bytes) : Outcome Error (Nat × Nat) :=
  if buf = [] then .err (.BufferTooSmall 1)
  else do
    let first ← index buf 0
    let len := 2 ^ (first >>> 6).toNat
    if buf.length < len then .err (.BufferTooSmall len)
    else do
      let low ← uint_at buf 1 (len - 1)
      .ok ((first &&& 0x3f).toNat * 256 ^ (len - 1) + low, len)

/-- Stores the value of an integer parameter. -/
def store_value (params : TransportParams) (id value : Nat) : TransportParams :=
  match id with
  | 0x01 => { params with max_idle_timeout := value }
  | 0x03 => { params with max_udp_payload_size := value }
  | 0x04 => { params with initial_max_data := value }
  | 0x05 => { params with initial_max_stream_data_bidi_local := value }
  | 0x06 => { params with initial_max_stream_data_bidi_remote := value }
  | 0x07 => { params with initial_max_stream_data_uni := value }
  | 0x08 => { params with initial_max_streams_bidi := value }
  | 0x09 => { params with initial_max_streams_uni := value }
  | 0x0a => { params with ack_delay_exponent := value }
  | 0x0b => { params with max_ack_delay := value }
  | 0x0e => { params with active_connection_id_limit := value }
  | _ => params

/-- The parameters that are integers. -/
def INTEGER_PARAMS : List Nat :=
  [0x01, 0x03, 0x04, 0x05, 0x06, 0x07, 0x08, 0x09, 0x0a, 0x0b, 0x0e]

/-- Stores one decoded parameter. -/
def set_param (params : TransportParams) (id : Nat) (param_data : Bytes) :
    Outcome Error TransportParams :=
  if id = 0x00 then do
    let cid ← slice param_data 0 (min param_data.length 20)
    .ok { params with original_dcid := cid }
  else if id = 0x0f then do
    let cid ← slice param_data 0 (min param_data.length 20)
    .ok { params with initial_scid := cid }
  else if id ∈ INTEGER_PARAMS then do
    let (value, _) ← decode_varint param_data
    .ok (store_value params id value)
  else .ok params

/-- The loop of `TransportParams::decode`. Without fuel it would not have ended. -/
def decode_from (buf : Bytes) : Nat → Nat → TransportParams → Outcome Error TransportParams
  | 0, _, _ => .panic
  | fuel + 1, off, params =>
    if off < buf.length then do
      let (id, id_len) ← decode_varint (← sliceFrom buf off)
      let off ← add_usize off id_len
      let (param_len, len_len) ← decode_varint (← sliceFrom buf off)
      let off ← add_usize off len_len
      let (param_data, off) ← checked_slice buf off param_len
      let params ← set_param params id param_data
      decode_from buf fuel off params
    else .ok params

def decode_transport_params (buf : Bytes) : Outcome Error TransportParams :=
  decode_from buf (buf.length + 1) 0 .absent

/-! ## Extensions -/

/-- The loop over an extension block that the three parsers share; `step` is their `match`. -/
def fold_extensions {ρ : Type} (step : ρ → Nat → Bytes → Outcome Error ρ) (data : Bytes) :
    Nat → Nat → ρ → Outcome Error ρ
  | 0, _, _ => .panic
  | fuel + 1, off, result => do
    let four ← add_usize off 4
    if four ≤ data.length then do
      let (ext_type, off) ← checked_uint data off 2
      let (ext_len, off) ← checked_uint data off 2
      let (ext_data, off) ← checked_slice data off ext_len
      let result ← step result ext_type ext_data
      fold_extensions step data fuel off result
    else .ok result

def parse_record_size_limit (ext_data : Bytes) : Outcome Error Nat :=
  if ext_data.length ≠ 2 then .err .Tls
  else do
    let limit ← uint_at ext_data 0 2
    if limit < 64 then .err .Tls else .ok limit

def server_hello_extension (result : ServerHelloExtensions) (ext_type : Nat) (ext_data : Bytes) :
    Outcome Error ServerHelloExtensions :=
  if ext_type = EXT_SUPPORTED_VERSIONS then
    if ext_data.length < 2 then .err .Tls
    else do
      let version ← uint_at ext_data 0 2
      .ok { result with selected_version := version }
  else if ext_type = EXT_KEY_SHARE then
    if ext_data.length < 4 then .err .Tls
    else do
      let group ← uint_at ext_data 0 2
      let key_len ← uint_at ext_data 2 2
      if group ≠ GROUP_X25519 ∨ key_len ≠ 32 then .err .Tls
      else if ext_data.length < 4 + 32 then .err .Tls
      else do
        let key ← slice ext_data 4 36
        .ok { result with key_share := some key }
  else .ok result

def parse_server_hello_extensions (data : Bytes) : Outcome Error ServerHelloExtensions :=
  fold_extensions server_hello_extension data (data.length + 1) 0
    { selected_version := 0, key_share := none }

/-- A name, pushed byte by byte into a vector of 16. -/
def alpn_name (name : Bytes) : Outcome Error Bytes := .ofExcept (tls.alpn_name name)

/-- A list behind its two-byte length at the front of an extension. -/
def prefixed_list (ext_data : Bytes) : Outcome Error Bytes :=
  if ext_data.length < 2 then .err .Tls
  else do
    let list_len ← uint_at ext_data 0 2
    let (list, _) ← checked_slice ext_data 2 list_len
    .ok list

def encrypted_extension (result : EncryptedExtensionsData) (ext_type : Nat) (ext_data : Bytes) :
    Outcome Error EncryptedExtensionsData :=
  if ext_type = EXT_ALPN then do
    let list ← prefixed_list ext_data
    if list = [] then .err .Tls
    else do
      let proto_len ← uint_at list 0 1
      let (name, _) ← checked_slice list 1 proto_len
      let name ← alpn_name name
      .ok { result with alpn := some name }
  else if ext_type = EXT_QUIC_TRANSPORT_PARAMS then do
    let tp ← decode_transport_params ext_data
    .ok { result with transport_params := some tp }
  else if ext_type = EXT_RECORD_SIZE_LIMIT then do
    let limit ← parse_record_size_limit ext_data
    .ok { result with record_size_limit := some limit }
  else .ok result

def parse_encrypted_extensions_data (data : Bytes) : Outcome Error EncryptedExtensionsData :=
  fold_extensions encrypted_extension data (data.length + 1) 0
    { alpn := none, transport_params := none, record_size_limit := none }

/-- The loop over the versions a client offers, up to `end_`. -/
def client_versions (ext_data : Bytes) (end_ : Nat) : Nat → Nat → Bool → Outcome Error Bool
  | 0, _, _ => .panic
  | fuel + 1, voff, supports_tls13 => do
    if (← add_usize voff 1) < end_ then do
      let ver ← uint_at ext_data voff 2
      let voff ← add_usize voff 2
      client_versions ext_data end_ fuel voff (supports_tls13 || ver == 0x0304)
    else .ok supports_tls13

/-- The loop over a client's key shares, up to `end_`. -/
def client_key_shares (ext_data : Bytes) (end_ : Nat) :
    Nat → Nat → Option Bytes → Outcome Error (Option Bytes)
  | 0, _, _ => .panic
  | fuel + 1, soff, key => do
    if (← add_usize soff 4) ≤ end_ then do
      let group ← uint_at ext_data soff 2
      let key_len ← uint_at ext_data (← add_usize soff 2) 2
      let soff ← add_usize soff 4
      let next ← add_usize soff key_len
      if next > end_ then .err .Tls
      else do
        let key ← if group = GROUP_X25519 ∧ key_len = 32 then do
            let share ← slice ext_data soff (← add_usize soff 32)
            .ok (some share)
          else .ok key
        client_key_shares ext_data end_ fuel next key
    else .ok key

/-- The loop over the protocol names a client offers, up to `end_`. -/
def client_alpn (ext_data : Bytes) (end_ : Nat) :
    Nat → Nat → List Bytes → Outcome Error (List Bytes)
  | 0, _, _ => .panic
  | fuel + 1, aoff, names =>
    if aoff < end_ then do
      let proto_len ← uint_at ext_data aoff 1
      let aoff ← add_usize aoff 1
      let next ← add_usize aoff proto_len
      if next > end_ then .err .Tls
      else do
        let name ← alpn_name (← slice ext_data aoff next)
        if names.length ≥ 4 then .err .Tls
        else client_alpn ext_data end_ fuel next (names ++ [name])
    else .ok names

/-- The end of a list behind its length at the front of an extension. -/
def list_end (ext_data : Bytes) (len_len : Nat) : Outcome Error Nat :=
  if ext_data.length < len_len then .err .Tls
  else do
    let list_len ← uint_at ext_data 0 len_len
    let end_ ← add_usize len_len list_len
    if end_ > ext_data.length then .err .Tls else .ok end_

def client_hello_extension (result : ClientHelloExtensions) (ext_type : Nat) (ext_data : Bytes) :
    Outcome Error ClientHelloExtensions :=
  if ext_type = EXT_SUPPORTED_VERSIONS then do
    let end_ ← list_end ext_data 1
    let supports_tls13 ← client_versions ext_data end_ (ext_data.length + 1) 1 result.supports_tls13
    .ok { result with supports_tls13 }
  else if ext_type = EXT_KEY_SHARE then do
    let end_ ← list_end ext_data 2
    let key_share ← client_key_shares ext_data end_ (ext_data.length + 1) 2 result.key_share
    .ok { result with key_share }
  else if ext_type = EXT_ALPN then do
    let end_ ← list_end ext_data 2
    let alpn_protocols ← client_alpn ext_data end_ (ext_data.length + 1) 2 result.alpn_protocols
    .ok { result with alpn_protocols }
  else if ext_type = EXT_QUIC_TRANSPORT_PARAMS then do
    let tp ← decode_transport_params ext_data
    .ok { result with transport_params := some tp }
  else if ext_type = EXT_RECORD_SIZE_LIMIT then do
    let limit ← parse_record_size_limit ext_data
    .ok { result with record_size_limit := some limit }
  else .ok result

def parse_client_hello_extensions (data : Bytes) : Outcome Error ClientHelloExtensions :=
  fold_extensions client_hello_extension data (data.length + 1) 0
    { key_share := none, supports_tls13 := false, alpn_protocols := [], transport_params := none,
      record_size_limit := none }

/-! ## Certificates -/

/-- The positions `find_subsequence` looks at, from `i` on. -/
def find_from (haystack needle : Bytes) : Nat → Nat → Outcome Error (Option Nat)
  | 0, _ => .ok none
  | count + 1, i => do
    let s ← slice haystack i (← add_usize i needle.length)
    if s = needle then .ok (some i) else find_from haystack needle count (i + 1)

def find_subsequence (haystack needle : Bytes) : Outcome Error (Option Nat) :=
  if needle = [] ∨ needle.length > haystack.length then .ok none
  else find_from haystack needle (haystack.length - needle.length + 1) 0

def parse_asn1_length (data : Bytes) : Outcome Error (Nat × Nat) :=
  if data = [] then .err .Tls
  else do
    let b ← index data 0
    if b < 0x80 then .ok (b.toNat, 1)
    else if b = 0x81 then
      if data.length < 2 then .err .Tls
      else do
        let len ← uint_at data 1 1
        .ok (len, 2)
    else if b = 0x82 then
      if data.length < 3 then .err .Tls
      else do
        let len ← uint_at data 1 2
        .ok (len, 3)
    else .err .Tls

/-- The key of `len` bytes in a BIT STRING whose content starts at `content_start`. -/
def bit_string_key (cert_der : Bytes) (content_start len : Nat) : Outcome Error Bytes :=
  match cert_der[content_start]? with
  | none => .err .Tls
  | some padding =>
    if padding ≠ 0x00 then .err .Tls
    else do
      let key_start ← add_usize content_start 1
      let (key, _) ← checked_slice cert_der key_start len
      .ok key

/-- The positions the search for a P-256 key looks at, from `i` on. -/
def p256_key_from (cert_der : Bytes) : Nat → Nat → Outcome Error Bytes
  | 0, _ => .err .Tls
  | count + 1, i => do
    if (← index cert_der i) = 0x03 then do
      let rest ← sliceFrom cert_der (← add_usize i 1)
      let (bit_string_len, hdr_len) ← parse_asn1_length rest
      if bit_string_len = 66 then do
        let content_start ← add_usize (← add_usize i 1) hdr_len
        bit_string_key cert_der content_start 65
      else p256_key_from cert_der count (i + 1)
    else p256_key_from cert_der count (i + 1)

def extract_p256_pubkey_from_cert (cert_der : Bytes) : Outcome Error Bytes := do
  match ← find_subsequence cert_der SECP256R1_OID with
  | none => .err .Tls
  | some oid_pos => do
    let after_oid ← add_usize oid_pos SECP256R1_OID.length
    p256_key_from cert_der (cert_der.length - 66 - after_oid) after_oid

/-- The positions the search for an Ed25519 key looks at, from `i` on. -/
def ed25519_key_from (cert_der : Bytes) : Nat → Nat → Outcome Error Bytes
  | 0, _ => .err .Tls
  | count + 1, i => do
    if (← index cert_der i) = 0x03 then do
      match cert_der[(← add_usize i 1)]? with
      | none => .err .Tls
      | some len_byte =>
        if len_byte = 33 then do
          let content_start ← add_usize i 2
          bit_string_key cert_der content_start 32
        else ed25519_key_from cert_der count (i + 1)
    else ed25519_key_from cert_der count (i + 1)

def extract_ed25519_pubkey_from_cert (cert_der : Bytes) : Outcome Error Bytes := do
  match ← find_subsequence cert_der ED25519_OID with
  | none => .err .Tls
  | some oid_pos => do
    let after_oid ← add_usize oid_pos ED25519_OID.length
    ed25519_key_from cert_der (cert_der.length - 34 - after_oid) after_oid

/-! ## Reading at an offset -/

theorem add_usize_ok {a b : Nat} (h : a + b < 2 ^ 64) : add_usize a b = .ok (a + b) := if_pos h

theorem beNat_concat (buf : Bytes) (b : UInt8) : beNat (buf ++ [b]) = beNat buf * 256 + b.toNat := by
  simp [beNat]

variable {data : Bytes}

theorem uint_at_eq {off : Nat} (len : Nat) (hsize : data.length < 2 ^ 63)
    (h : off + len ≤ data.length) : uint_at data off len = .ok (beNat ((data.drop off).take len)) := by
  induction len with
  | zero => rfl
  | succ len ih =>
    have hlt : off + len < data.length := by omega
    rw [uint_at, ih (by omega), ok_bind, add_usize_ok (by omega), ok_bind, index_of_lt hlt, ok_bind,
      List.take_add_one, List.getElem?_drop, List.getElem?_eq_getElem hlt, Option.toList_some,
      beNat_concat]

theorem take_bytes_drop {off : Nat} (len : Nat) :
    take_bytes len (data.drop off) =
      if data.length - off < len then (.error .Tls, data.drop off)
      else (.ok ((data.drop off).take len), data.drop (off + len)) := by
  unfold take_bytes
  rw [List.length_drop, List.drop_drop]

theorem take_uint_drop {off : Nat} (len : Nat) :
    take_uint len (data.drop off) =
      if data.length - off < len then (.error .Tls, data.drop off)
      else (.ok (beNat ((data.drop off).take len)), data.drop (off + len)) := by
  unfold take_uint
  rw [bind_run, take_bytes_drop]
  by_cases h : data.length - off < len
  · rw [if_pos h, if_pos h]
  · rw [if_neg h, if_neg h]
    rfl

theorem take_uint_front (data : Bytes) (len : Nat) :
    take_uint len data =
      if data.length < len then (.error .Tls, data)
      else (.ok (beNat (data.take len)), data.drop len) := by
  have h := @take_uint_drop data 0 len
  rwa [List.drop_zero, Nat.sub_zero, Nat.zero_add] at h

theorem checked_slice_follows {off len : Nat} (hsize : data.length < 2 ^ 63)
    (hoff : off ≤ data.length) (hlen : len < 2 ^ 63) :
    Follows data (checked_slice data off len) (take_bytes len (data.drop off)) := by
  unfold checked_slice
  rw [add_usize_ok (by omega), ok_bind, take_bytes_drop]
  by_cases hfits : data.length - off < len
  · rw [if_pos hfits, if_pos (by omega)]
    exact .error _ _ _
  · rw [if_neg hfits, if_neg (by omega), slice_of_le (by omega) (by omega), ok_bind,
      Nat.add_sub_cancel_left]
    exact .ok (by omega)

theorem checked_uint_follows {off len : Nat} (hsize : data.length < 2 ^ 63)
    (hoff : off ≤ data.length) (hlen : len < 2 ^ 63) :
    Follows data (checked_uint data off len) (take_uint len (data.drop off)) := by
  unfold checked_uint
  rw [add_usize_ok (by omega), ok_bind, take_uint_drop]
  by_cases hfits : data.length - off < len
  · rw [if_pos hfits, if_pos (by omega)]
    exact .error _ _ _
  · rw [if_neg hfits, if_neg (by omega), uint_at_eq len hsize (by omega), ok_bind]
    exact .ok (by omega)

/-- A number of a few bytes is small. -/
theorem beNat_take_lt {buf : Bytes} {len : Nat} (hlen : len ≤ 3) : beNat (buf.take len) < 2 ^ 63 := by
  have hlt := beNat_lt_pow (buf.take len)
  have hpow : 256 ^ (buf.take len).length ≤ 256 ^ 3 :=
    Nat.pow_le_pow_right (by decide) (Nat.le_trans (List.length_take_le _ _) hlen)
  omega

theorem take_uint_lt {len v : Nat} {data rest : Bytes} (h : take_uint len data = (.ok v, rest))
    (hlen : len ≤ 3) : v < 2 ^ 63 := by
  obtain ⟨b, mid, hb, hv⟩ := bind_eq_ok h
  cases hv
  unfold take_bytes at hb
  split at hb
  · cases hb
  · cases hb
    exact beNat_take_lt hlen

theorem prefixed_slice_follows {off len_len : Nat} (hsize : data.length < 2 ^ 63)
    (hoff : off ≤ data.length) (hlen : len_len ≤ 3) :
    Follows data (prefixed_slice data off len_len) (take_prefixed len_len (data.drop off)) := by
  refine (checked_uint_follows hsize hoff (by omega)).bind fun len off hrun hoff => ?_
  exact checked_slice_follows hsize hoff (take_uint_lt hrun hlen)

/-! ## The messages are read as from the front -/

theorem hello_start_eq {γ : Type} (hsize : data.length < 2 ^ 63)
    {f : (Bytes × Bytes) × Nat → Outcome Error γ} {g : Bytes → Bytes → Reader γ}
    (hf : ∀ random session_id off, off ≤ data.length →
      f ((random, session_id), off) = .ofExcept (g random session_id (data.drop off)).1) :
    (hello_start data >>= f) = .ofExcept ((do
      let _version ← take_uint 2
      let random ← take_bytes 32
      let session_id ← take_prefixed 1
      g random session_id : Reader γ) data).1 := by
  unfold hello_start
  by_cases hshort : data.length < 2 + 32 + 1
  · rw [if_pos hshort, err_bind, bind_run, take_uint_front]
    by_cases h₂ : data.length < 2
    · rw [if_pos h₂]
      rfl
    · rw [if_neg h₂]
      dsimp only
      rw [bind_run, take_bytes_drop]
      by_cases h₃₂ : data.length - 2 < 32
      · rw [if_pos h₃₂]
        rfl
      · rw [if_neg h₃₂]
        dsimp only
        unfold take_prefixed
        rw [bind_run, bind_run, take_uint_drop, if_pos (by omega)]
        rfl
  · rw [if_neg hshort, bind_run, take_uint_front, if_neg (by omega)]
    dsimp only
    rw [bind_run, take_bytes_drop, if_neg (by omega)]
    dsimp only
    rw [uint_at_eq 2 hsize (by omega), ok_bind, slice_of_le (by omega) (by omega), ok_bind,
      uint_at_eq 1 hsize (by omega), ok_bind]
    unfold take_prefixed
    rw [bind_run, bind_run, take_uint_drop, if_neg (by omega)]
    dsimp only
    have hslice : Follows data (checked_slice data 35 (beNat ((data.drop 34).take 1))) _ :=
      checked_slice_follows hsize (by omega) (beNat_take_lt (by decide))
    rcases htake : take_bytes (beNat ((data.drop 34).take 1)) (data.drop 35) with ⟨e | sid, rest⟩
    · rw [htake] at hslice
      rw [hslice]
      rfl
    · rw [htake] at hslice
      obtain ⟨off, hoff, rfl, hslice⟩ := hslice
      rw [hslice, ok_bind]
      exact hf _ _ off hoff

theorem hello_extensions_eq {off : Nat} (hsize : data.length < 2 ^ 63) (hoff : off ≤ data.length) :
    hello_extensions data off = .ofExcept (take_hello_extensions (data.drop off)).1 := by
  unfold hello_extensions take_hello_extensions
  rw [add_usize_ok (by omega), ok_bind, List.length_drop]
  by_cases htwo : off + 2 ≤ data.length
  · rw [if_pos htwo, if_neg (by omega), uint_at_eq 2 hsize htwo, ok_bind]
    unfold take_prefixed
    rw [bind_run, take_uint_drop, if_neg (by omega)]
    dsimp only
    have hslice := checked_slice_follows hsize htwo
      (@beNat_take_lt (data.drop off) 2 (by decide))
    rcases htake : take_bytes (beNat ((data.drop off).take 2)) (data.drop (off + 2)) with ⟨e | s, rest⟩
    · rw [htake] at hslice
      rw [hslice]
      rfl
    · rw [htake] at hslice
      obtain ⟨off', -, -, hslice⟩ := hslice
      rw [hslice]
      rfl
  · rw [if_neg htwo, if_pos (by omega)]
    rfl

theorem parse_server_hello_eq (hsize : data.length < 2 ^ 63) :
    parse_server_hello data = .ofExcept (tls.parse_server_hello data) := by
  refine hello_start_eq hsize fun random session_id off hoff => ?_
  refine (checked_uint_follows hsize hoff (by decide)).last fun cs_val off _ hoff => ?_
  dsimp only
  rcases CipherSuite.from_u16 cs_val with _ | cipher_suite
  · rfl
  · refine (checked_uint_follows hsize hoff (by decide)).last fun _ off _ hoff => ?_
    dsimp only
    rw [hello_extensions_eq hsize hoff, bind_run]
    rcases take_hello_extensions (data.drop off) with ⟨e | s, rest⟩ <;> rfl

theorem parse_client_hello_eq (hsize : data.length < 2 ^ 63) :
    parse_client_hello data = .ofExcept (tls.parse_client_hello data) := by
  refine hello_start_eq hsize fun random session_id off hoff => ?_
  refine (prefixed_slice_follows hsize hoff (by decide)).last fun cipher_suites off _ hoff => ?_
  refine (prefixed_slice_follows hsize hoff (by decide)).last fun _ off _ hoff => ?_
  dsimp only
  rw [hello_extensions_eq hsize hoff, bind_run]
  rcases take_hello_extensions (data.drop off) with ⟨e | s, rest⟩ <;> rfl

/-- A check in front of several reads stands for the check of each. -/
theorem checked_uint_eq {off len : Nat} (hsize : data.length < 2 ^ 63)
    (h : off + len ≤ data.length) :
    checked_uint data off len = (uint_at data off len >>= fun v => .ok (v, off + len)) := by
  unfold checked_uint
  rw [add_usize_ok (by omega), ok_bind, if_neg (by omega)]

theorem prefixed_slice_eq {off len_len : Nat} (hsize : data.length < 2 ^ 63)
    (h : off + len_len ≤ data.length) :
    prefixed_slice data off len_len =
      (uint_at data off len_len >>= fun len => checked_slice data (off + len_len) len) := by
  unfold prefixed_slice
  rw [checked_uint_eq hsize h, uint_at_eq len_len hsize h, ok_bind, ok_bind, ok_bind]

theorem take_uint_short {len : Nat} (h : data.length < len) :
    take_uint len data = (.error .Tls, data) := by
  rw [take_uint_front, if_pos h]

theorem parse_encrypted_extensions_eq (hsize : data.length < 2 ^ 63) :
    parse_encrypted_extensions data = .ofExcept (tls.parse_encrypted_extensions data) := by
  unfold parse_encrypted_extensions tls.parse_encrypted_extensions parse
  by_cases hshort : data.length < 2
  · rw [if_pos hshort, take_prefixed, bind_run, take_uint_short hshort]
    rfl
  · have hread : Follows data (prefixed_slice data 0 2) (take_prefixed 2 data) :=
      prefixed_slice_follows hsize (Nat.zero_le _) (by decide)
    rw [prefixed_slice_eq hsize (by omega), uint_at_eq 2 hsize (by omega), ok_bind] at hread
    rw [if_neg hshort, uint_at_eq 2 hsize (by omega), ok_bind]
    rcases hrun : take_prefixed 2 data with ⟨e | s, rest⟩
    · rw [hrun] at hread
      have hfails : checked_slice data (0 + 2) (beNat ((data.drop 0).take 2)) = .err e := hread
      rw [hfails]
      rfl
    · rw [hrun] at hread
      obtain ⟨off, -, -, hread⟩ := hread
      rw [hread]
      rfl

theorem parse_certificate_eq (hsize : data.length < 2 ^ 63) :
    parse_certificate data = .ofExcept (parse (do
      let context ← take_prefixed 1
      let entries ← take_prefixed 3
      pure ({ context, entries } : CertificatePayload)) data) := by
  unfold parse_certificate parse
  by_cases hnil : data = []
  · rw [if_pos hnil, hnil]
    rfl
  · have hlen := List.length_pos_iff.mpr hnil
    have hread : Follows data (prefixed_slice data 0 1) (take_prefixed 1 data) :=
      prefixed_slice_follows hsize (Nat.zero_le _) (by decide)
    rw [prefixed_slice_eq hsize (by omega), uint_at_eq 1 hsize (by omega), ok_bind] at hread
    rw [if_neg hnil, uint_at_eq 1 hsize (by omega), ok_bind]
    refine hread.last fun context off _ hoff => ?_
    exact (prefixed_slice_follows hsize hoff (by decide)).last fun entries off _ _ => rfl

theorem parse_certificate_verify_eq (hsize : data.length < 2 ^ 63) :
    parse_certificate_verify data = .ofExcept (tls.parse_certificate_verify data) := by
  unfold parse_certificate_verify tls.parse_certificate_verify parse
  by_cases hshort : data.length < 4
  · rw [if_pos hshort, bind_run, take_uint_front]
    by_cases htwo : data.length < 2
    · rw [if_pos htwo]
      rfl
    · rw [if_neg htwo]
      dsimp only
      rw [bind_run, take_prefixed, bind_run, take_uint_drop, if_pos (by omega)]
      rfl
  · have hread : Follows data (prefixed_slice data 2 2) (take_prefixed 2 (data.drop 2)) :=
      prefixed_slice_follows hsize (by omega) (by decide)
    rw [prefixed_slice_eq hsize (by omega), uint_at_eq 2 hsize (by omega), ok_bind] at hread
    rw [if_neg hshort, bind_run, take_uint_front, if_neg (by omega), uint_at_eq 2 hsize (by omega),
      ok_bind, uint_at_eq 2 hsize (by omega), ok_bind]
    exact hread.last fun signature off _ _ => rfl

theorem parse_finished_eq (data : Bytes) :
    parse_finished data = .ofExcept (tls.parse_finished data) := by
  unfold parse_finished tls.parse_finished parse take_bytes
  by_cases h : data.length < 32
  · rw [if_pos h, if_pos h]
    rfl
  · rw [if_neg h, if_neg h, slice_of_le (by omega) (by omega)]
    rfl

/-! ## The entries of a certificate -/

/-- A byte string behind its length is split off as it is read. -/
theorem split_prefixed_eq {len_len : Nat} (hsize : data.length < 2 ^ 63) :
    split_prefixed data len_len = match take_prefixed len_len data with
      | (.ok s, rest) => .ok (s, rest)
      | (.error e, _) => .err e := by
  unfold split_prefixed take_prefixed
  rw [bind_run]
  by_cases hshort : data.length < len_len
  · rw [if_pos hshort, take_uint_short hshort]
  · rw [if_neg hshort, take_uint_front, if_neg hshort, uint_at_eq len_len hsize (by omega), ok_bind,
      sliceFrom_of_le (by omega), ok_bind, List.drop_zero]
    dsimp only
    rw [take_bytes]
    by_cases hfits : (data.drop len_len).length < beNat (data.take len_len)
    · rw [if_pos hfits, if_pos hfits]
    · rw [if_neg hfits, if_neg hfits, slice_of_le (by omega) (by omega), ok_bind,
        sliceFrom_of_le (by omega), ok_bind]
      rfl

/-- What is read lies in the input, and less is left. -/
theorem take_prefixed_split {data s rest : Bytes} {len_len : Nat}
    (h : take_prefixed len_len data = (.ok s, rest)) :
    ∃ pre, data = pre ++ s ++ rest ∧ pre.length = len_len := by
  obtain ⟨len, mid, hlen, hs⟩ := bind_eq_ok h
  obtain ⟨b, mid', hb, hv⟩ := bind_eq_ok hlen
  cases hv
  unfold take_bytes at hb hs
  split at hb
  · cases hb
  · rename_i hle
    cases hb
    split at hs
    · cases hs
    · cases hs
      refine ⟨data.take len_len, ?_, by rw [List.length_take]; omega⟩
      rw [List.append_assoc, List.take_append_drop, List.take_append_drop]

/-- The items of the iterator, when it comes to its end. -/
inductive Iterates : Bytes → List (Outcome Error CertificateEntry) → Prop
  | done {data : Bytes} (h : next_certificate_entry data = none) : Iterates data []
  | item {data rest : Bytes} {item : Outcome Error CertificateEntry}
      {items : List (Outcome Error CertificateEntry)}
      (h : next_certificate_entry data = some (item, rest)) (hrest : Iterates rest items) :
      Iterates data (item :: items)

/-- The reader of an entry. -/
def take_entry : Reader CertificateEntry := do
  let cert_data ← take_prefixed 3
  let extensions ← take_prefixed 2
  pure { cert_data, extensions }

theorem certificate_entry_eq (hsize : data.length < 2 ^ 63) :
    certificate_entry data = match take_entry data with
      | (.ok entry, rest) => .ok (entry, rest)
      | (.error e, _) => .err e := by
  unfold certificate_entry take_entry
  rw [split_prefixed_eq hsize, bind_run]
  rcases hcert : take_prefixed 3 data with ⟨e | cert_data, rest⟩
  · rfl
  · obtain ⟨pre, hdata, -⟩ := take_prefixed_split hcert
    have hrest : rest.length < 2 ^ 63 := by
      rw [hdata] at hsize
      simp only [List.length_append] at hsize
      omega
    dsimp only
    rw [ok_bind, split_prefixed_eq hrest, bind_run]
    rcases take_prefixed 2 rest with ⟨e | extensions, rest⟩ <;> rfl

/-- Both parts of an entry lie in the data, and less data is left. -/
theorem take_entry_split {data rest : Bytes} {entry : CertificateEntry}
    (h : take_entry data = (.ok entry, rest)) :
    entry.cert_data <:+: data ∧ entry.extensions <:+: data ∧ rest <:+: data ∧
      rest.length < data.length := by
  obtain ⟨cert_data, mid, hcert, h⟩ := bind_eq_ok h
  obtain ⟨extensions, rest', hext, h⟩ := bind_eq_ok h
  cases h
  obtain ⟨pre, hdata, hpre⟩ := take_prefixed_split hcert
  obtain ⟨pre', hmid, hpre'⟩ := take_prefixed_split hext
  have hmid_in : mid <:+: data := ⟨pre ++ cert_data, [], by rw [hdata]; simp⟩
  refine ⟨⟨pre, mid, hdata.symm⟩, ?_, ?_, ?_⟩
  · exact List.IsInfix.trans ⟨pre', _, hmid.symm⟩ hmid_in
  · exact List.IsInfix.trans ⟨pre' ++ extensions, [], by rw [hmid]; simp⟩ hmid_in
  · rw [hdata, hmid]
    simp only [List.length_append]
    omega

/-- The iterator comes to its end; its items are entries of the data or errors. -/
theorem iterator_ends (hsize : data.length < 2 ^ 63) :
    ∃ items, Iterates data items ∧ ∀ item ∈ items, item.Safe ∧ ∀ entry, item = .ok entry →
      entry.cert_data <:+: data ∧ entry.extensions <:+: data := by
  induction hn : data.length using Nat.strongRecOn generalizing data with
  | _ n ih =>
    have hnil : Iterates [] [] := .done rfl
    by_cases hne : data = []
    · exact ⟨[], hne ▸ hnil, nofun⟩
    · have hnext : next_certificate_entry data = match certificate_entry data with
          | .ok (entry, data) => some (.ok entry, data)
          | .err e => some (.err e, [])
          | .panic => some (.panic, []) := if_neg hne
      rw [certificate_entry_eq hsize] at hnext
      rcases hentry : take_entry data with ⟨e | entry, rest⟩
      · rw [hentry] at hnext
        refine ⟨_, .item hnext hnil, ?_⟩
        intro item hitem
        rw [List.mem_singleton.mp hitem]
        exact ⟨safe_err e, nofun⟩
      · rw [hentry] at hnext
        obtain ⟨hcert, hext, hrest, hless⟩ := take_entry_split hentry
        obtain ⟨items, hitems, hall⟩ := ih rest.length (by omega) (by omega : rest.length < 2 ^ 63) rfl
        refine ⟨_, .item hnext hitems, ?_⟩
        intro item hitem
        rcases List.mem_cons.mp hitem with rfl | hitem
        · refine ⟨safe_ok entry, fun entry' h => ?_⟩
          cases h
          exact ⟨hcert, hext⟩
        · obtain ⟨hsafe, hin⟩ := hall item hitem
          refine ⟨hsafe, fun entry' h => ?_⟩
          obtain ⟨h₁, h₂⟩ := hin entry' h
          exact ⟨h₁.trans hrest, h₂.trans hrest⟩

/-! ## Transport parameters are read as from the front -/

theorem decode_varint_eq {buf : Bytes} (hsize : buf.length < 2 ^ 63) :
    decode_varint buf = .ofExcept (varint.decode_varint buf) := by
  unfold decode_varint varint.decode_varint
  cases buf with
  | nil => rfl
  | cons first rest =>
    dsimp only
    have hpos := Nat.two_pow_pos (first >>> 6).toNat
    rw [if_neg (List.cons_ne_nil _ _), index_of_lt (by simp), ok_bind]
    simp only [List.getElem_cons_zero]
    by_cases hshort : (first :: rest).length < 2 ^ (first >>> 6).toNat
    · rw [if_pos hshort, if_pos hshort]
      rfl
    · have htail : (rest.take (2 ^ (first >>> 6).toNat - 1)).length = 2 ^ (first >>> 6).toNat - 1 := by
        rw [List.length_cons] at hshort
        rw [List.length_take]
        omega
      rw [if_neg hshort, if_neg hshort, uint_at_eq _ hsize (by omega), ok_bind, beNat_cons, htail]
      rfl

theorem store_value_eq {params : TransportParams} {id : Nat} (h : id ∈ INTEGER_PARAMS) (data : Bytes) :
    params.set_param id data = (varint.decode_varint data).map fun v => store_value params id v.1 := by
  simp only [INTEGER_PARAMS, List.mem_cons, List.not_mem_nil, or_false] at h
  rcases h with h | h | h | h | h | h | h | h | h | h | h <;> subst h <;>
    simp only [TransportParams.set_param, TransportParams.set_param.value] <;>
    rcases varint.decode_varint data with _ | _ <;> rfl

theorem set_param_eq {params : TransportParams} {id : Nat} (hsize : data.length < 2 ^ 63) :
    set_param params id data = .ofExcept (params.set_param id data) := by
  have hcid : (slice data 0 (min data.length 20) : Outcome Error Bytes) = .ok (data.take 20) := by
    rw [slice_of_le (by omega) (by omega), List.drop_zero, Nat.sub_zero]
    congr 1
    rw [Nat.min_comm, ← List.take_take, List.take_length]
  unfold set_param
  by_cases h₀ : id = 0x00
  · rw [if_pos h₀, hcid, h₀]
    rfl
  · rw [if_neg h₀]
    by_cases h₁₅ : id = 0x0f
    · rw [if_pos h₁₅, hcid, h₁₅]
      rfl
    · rw [if_neg h₁₅]
      by_cases hint : id ∈ INTEGER_PARAMS
      · rw [if_pos hint, store_value_eq hint, decode_varint_eq hsize]
        rcases varint.decode_varint data with _ | _ <;> rfl
      · rw [if_neg hint]
        simp only [INTEGER_PARAMS, List.mem_cons, List.not_mem_nil, or_false, not_or] at hint
        unfold TransportParams.set_param
        split <;> simp_all

theorem decode_from_eq {buf : Bytes} (hsize : buf.length < 2 ^ 63) (fuel k : Nat) {off : Nat}
    {params : TransportParams} (hoff : off ≤ buf.length) (hfuel : buf.length - off < fuel)
    (hk : buf.length - off ≤ k) :
    decode_from buf fuel off params =
      .ofExcept (TransportParams.decode_from k params (buf.drop off)) := by
  induction fuel generalizing off k params with
  | zero => omega
  | succ fuel ih =>
    rw [decode_from]
    by_cases hmore : off < buf.length
    · obtain ⟨k, rfl⟩ : ∃ j, k = j + 1 := ⟨k - 1, by omega⟩
      have hne : buf.drop off ≠ [] := by
        rw [Ne, List.drop_eq_nil_iff]
        omega
      have hlen : ∀ n, (buf.drop n).length < 2 ^ 63 := fun n => by
        rw [List.length_drop]
        omega
      rw [if_pos hmore, TransportParams.decode_from, if_neg hne, sliceFrom_of_le hoff, ok_bind,
        decode_varint_eq (hlen off)]
      rcases hid : varint.decode_varint (buf.drop off) with e | ⟨id, id_len⟩
      · rfl
      · obtain ⟨hid_pos, hid_le⟩ := decode_varint_consumed hid
        rw [List.length_drop] at hid_le
        rw [ofExcept_ok, ok_bind, except_ok_bind]
        dsimp only
        rw [add_usize_ok (by omega), ok_bind, sliceFrom_of_le (by omega), ok_bind,
          decode_varint_eq (hlen _), List.drop_drop]
        rcases hparam : varint.decode_varint (buf.drop (off + id_len)) with e | ⟨param_len, len_len⟩
        · rfl
        · obtain ⟨hlen_pos, hlen_le⟩ := decode_varint_consumed hparam
          have hsmall := decode_varint_le hparam
          rw [List.length_drop] at hlen_le
          unfold MAX_VARINT at hsmall
          rw [ofExcept_ok, ok_bind, except_ok_bind]
          dsimp only
          rw [add_usize_ok (by omega), ok_bind, List.drop_drop, List.length_drop]
          unfold checked_slice
          rw [add_usize_ok (by omega), ok_bind]
          by_cases hshort : buf.length - (off + id_len + len_len) < param_len
          · rw [if_pos hshort, if_pos (by omega)]
            rfl
          · have hdata : ((buf.drop (off + id_len + len_len)).take param_len).length < 2 ^ 63 := by
              rw [List.length_take, List.length_drop]
              omega
            rw [if_neg hshort, if_neg (by omega), slice_of_le (by omega) (by omega), ok_bind, ok_bind,
              Nat.add_sub_cancel_left]
            dsimp only
            rw [set_param_eq hdata, List.drop_drop]
            rcases params.set_param id ((buf.drop (off + id_len + len_len)).take param_len) with e | params
            · rfl
            · exact ih k (by omega) (by omega) (by omega)
    · have hnil : buf.drop off = [] := List.drop_eq_nil_iff.mpr (by omega)
      rw [if_neg hmore, hnil]
      cases k with
      | zero => rfl
      | succ k =>
        rw [TransportParams.decode_from, if_pos rfl]
        rfl

theorem decode_transport_params_eq {buf : Bytes} (hsize : buf.length < 2 ^ 63) :
    decode_transport_params buf = .ofExcept (TransportParams.decode buf) :=
  decode_from_eq hsize (buf.length + 1) buf.length (Nat.zero_le _) (by omega) (by omega)

/-! ## Extensions are read as from the front -/

theorem fold_extensions_eq {ρ : Type} {step : ρ → Nat → Bytes → Outcome Error ρ}
    {total : ρ → Nat → Bytes → Except Error ρ} (hsize : data.length < 2 ^ 63)
    (hstep : ∀ result ext_type ext_data, ext_data.length ≤ data.length →
      step result ext_type ext_data = .ofExcept (total result ext_type ext_data))
    (fuel k : Nat) {off : Nat} {result : ρ} (hoff : off ≤ data.length)
    (hfuel : data.length - off < fuel) (hk : data.length - off ≤ k) :
    fold_extensions step data fuel off result =
      .ofExcept (tls.fold_extensions total k result (data.drop off)) := by
  induction fuel generalizing off k result with
  | zero => omega
  | succ fuel ih =>
    rw [fold_extensions, add_usize_ok (by omega), ok_bind]
    by_cases hfour : off + 4 ≤ data.length
    · obtain ⟨k, rfl⟩ : ∃ j, k = j + 1 := ⟨k - 1, by omega⟩
      rw [if_pos hfour, checked_uint_eq hsize (by omega), uint_at_eq 2 hsize (by omega), ok_bind, ok_bind]
      dsimp only
      rw [checked_uint_eq hsize (by omega), uint_at_eq 2 hsize (by omega), ok_bind, ok_bind]
      dsimp only
      rw [tls.fold_extensions, if_neg (by rw [List.length_drop]; omega)]
      simp only [List.drop_drop, List.length_drop]
      unfold checked_slice
      rw [add_usize_ok (by have hlt := @beNat_take_lt (data.drop (off + 2)) 2 (by decide); omega), ok_bind]
      by_cases hshort : data.length - (off + 4) < beNat ((data.drop (off + 2)).take 2)
      · rw [if_pos hshort, if_pos (by omega)]
        rfl
      · rw [if_neg hshort, if_neg (by omega), slice_of_le (by omega) (by omega), ok_bind, ok_bind,
          Nat.add_sub_cancel_left]
        dsimp only
        rw [hstep _ _ _ (by rw [List.length_take, List.length_drop]; omega)]
        rcases total result (beNat ((data.drop off).take 2)) _ with e | result
        · rfl
        · exact ih k (by omega) (by omega) (by omega)
    · rw [if_neg hfour]
      cases k with
      | zero => rfl
      | succ k =>
        rw [tls.fold_extensions, if_pos (by rw [List.length_drop]; omega)]
        rfl

theorem parse_record_size_limit_eq {ext_data : Bytes} (hsize : ext_data.length < 2 ^ 63) :
    parse_record_size_limit ext_data = .ofExcept (tls.parse_record_size_limit ext_data) := by
  unfold parse_record_size_limit tls.parse_record_size_limit
  by_cases htwo : ext_data.length ≠ 2
  · rw [if_pos htwo, if_pos htwo]
    rfl
  · have hlen : ext_data.length = 2 := not_not.mp htwo
    rw [if_neg htwo, if_neg htwo, uint_at_eq 2 hsize (by omega), ok_bind, List.drop_zero,
      List.take_of_length_le (by omega)]
    split <;> rfl

theorem server_hello_extension_eq {result : ServerHelloExtensions} {ext_type : Nat} {ext_data : Bytes}
    (hsize : ext_data.length < 2 ^ 63) :
    server_hello_extension result ext_type ext_data =
      .ofExcept (tls.server_hello_extension result ext_type ext_data) := by
  unfold server_hello_extension tls.server_hello_extension parse
  split
  · by_cases hshort : ext_data.length < 2
    · rw [if_pos hshort, take_uint_short hshort]
      rfl
    · rw [if_neg hshort, uint_at_eq 2 hsize (by omega), ok_bind, take_uint_front, if_neg hshort]
      rfl
  · split
    · have hpair : ((do pure (← take_uint 2, ← take_uint 2) : Reader (Nat × Nat)) ext_data).1 =
          if ext_data.length < 4 then .error .Tls
          else .ok (beNat (ext_data.take 2), beNat ((ext_data.drop 2).take 2)) := by
        rw [bind_run, take_uint_front]
        by_cases htwo : ext_data.length < 2
        · rw [if_pos htwo, if_pos (by omega)]
        · rw [if_neg htwo]
          dsimp only
          rw [bind_run, take_uint_drop]
          by_cases hfour : ext_data.length < 4
          · rw [if_pos (by omega), if_pos hfour]
          · rw [if_neg (by omega), if_neg hfour]
            rfl
      rw [hpair]
      by_cases hshort : ext_data.length < 4
      · rw [if_pos hshort, if_pos hshort]
        rfl
      · rw [if_neg hshort, if_neg hshort, uint_at_eq 2 hsize (by omega), ok_bind,
          uint_at_eq 2 hsize (by omega), ok_bind, except_ok_bind, List.drop_zero]
        dsimp only
        split
        · rfl
        · rw [take_bytes_drop]
          by_cases hkey : ext_data.length < 4 + 32
          · rw [if_pos hkey, if_pos (by omega)]
            rfl
          · rw [if_neg hkey, if_neg (by omega), slice_of_le (by omega) (by omega)]
            rfl
    · rfl

theorem prefixed_list_eq {ext_data : Bytes} (hsize : ext_data.length < 2 ^ 63) :
    prefixed_list ext_data = .ofExcept (parse (take_prefixed 2) ext_data) :=
  parse_encrypted_extensions_eq hsize

theorem encrypted_extension_eq {result : EncryptedExtensionsData} {ext_type : Nat} {ext_data : Bytes}
    (hsize : ext_data.length < 2 ^ 63) :
    encrypted_extension result ext_type ext_data =
      .ofExcept (tls.encrypted_extension result ext_type ext_data) := by
  unfold encrypted_extension tls.encrypted_extension
  split
  · rw [prefixed_list_eq hsize]
    rcases hlist : parse (take_prefixed 2) ext_data with e | list
    · rfl
    · have hshort : list.length < 2 ^ 63 := by
        unfold parse at hlist
        rcases hrun : take_prefixed 2 ext_data with ⟨e | s, rest⟩
        · rw [hrun] at hlist
          cases hlist
        · rw [hrun] at hlist
          cases hlist
          obtain ⟨pre, hdata, -⟩ := take_prefixed_split hrun
          have hlen := congrArg List.length hdata
          simp only [List.length_append] at hlen
          omega
      rw [ofExcept_ok, ok_bind, except_ok_bind]
      by_cases hnil : list = []
      · rw [if_pos hnil, hnil]
        rfl
      · have hpos := List.length_pos_iff.mpr hnil
        have hread : Follows list (prefixed_slice list 0 1) (take_prefixed 1 list) :=
          prefixed_slice_follows hshort (Nat.zero_le _) (by decide)
        rw [prefixed_slice_eq hshort (by omega), uint_at_eq 1 hshort (by omega), ok_bind] at hread
        rw [if_neg hnil, uint_at_eq 1 hshort (by omega), ok_bind, parse]
        rcases hrun : take_prefixed 1 list with ⟨e | name, rest⟩
        · rw [hrun] at hread
          have hfails : checked_slice list (0 + 1) (beNat ((list.drop 0).take 1)) = .err e := hread
          rw [hfails]
          rfl
        · rw [hrun] at hread
          obtain ⟨off, -, -, hread⟩ := hread
          rw [hread, ok_bind]
          dsimp only
          unfold alpn_name
          rw [except_ok_bind]
          rcases tls.alpn_name name with e | name <;> rfl
  · split
    · rw [decode_transport_params_eq hsize]
      rcases TransportParams.decode ext_data with e | tp <;> rfl
    · split
      · rw [parse_record_size_limit_eq hsize]
        rcases tls.parse_record_size_limit ext_data with e | limit <;> rfl
      · rfl

/-! ## The lists of a ClientHello -/

/-- What a loop up to `end_` has left. -/
def window (data : Bytes) (off end_ : Nat) : Bytes := (data.drop off).take (end_ - off)

theorem window_length {end_ : Nat} (off : Nat) (h : end_ ≤ data.length) :
    (window data off end_).length = end_ - off := by
  unfold window
  rw [List.length_take, List.length_drop]
  omega

theorem window_drop (data : Bytes) (off end_ n : Nat) :
    (window data off end_).drop n = window data (off + n) end_ := by
  unfold window
  rw [List.drop_take, List.drop_drop, Nat.sub_sub]

theorem window_take {off end_ n : Nat} (h : off + n ≤ end_) :
    (window data off end_).take n = (data.drop off).take n := by
  unfold window
  rw [List.take_take, Nat.min_eq_left (by omega)]

theorem list_end_eq (hsize : data.length < 2 ^ 63) (len_len : Nat) (hlen : len_len ≤ 3) :
    (∃ e, list_end data len_len = .err e ∧ parse (take_prefixed len_len) data = .error e) ∨
    ∃ end_, list_end data len_len = .ok end_ ∧ len_len ≤ end_ ∧ end_ ≤ data.length ∧
      parse (take_prefixed len_len) data = .ok (window data len_len end_) := by
  unfold list_end parse take_prefixed
  rw [bind_run]
  by_cases hshort : data.length < len_len
  · rw [if_pos hshort, take_uint_short hshort]
    exact .inl ⟨.Tls, rfl, rfl⟩
  · have hsmall := @beNat_take_lt data len_len hlen
    rw [if_neg hshort, take_uint_front, if_neg hshort, uint_at_eq len_len hsize (by omega), ok_bind,
      List.drop_zero, add_usize_ok (by omega), ok_bind]
    dsimp only
    rw [take_bytes, List.length_drop]
    by_cases hfits : data.length - len_len < beNat (data.take len_len)
    · rw [if_pos hfits, if_pos (by omega)]
      exact .inl ⟨.Tls, rfl, rfl⟩
    · rw [if_neg hfits, if_neg (by omega)]
      refine .inr ⟨_, rfl, by omega, by omega, ?_⟩
      unfold window
      rw [Nat.add_sub_cancel_left]

theorem u16_pairs_short (h : data.length < 2) : u16_pairs data = [] := by
  match data with
  | [] => rfl
  | [_] => rfl
  | _ :: _ :: _ => simp only [List.length_cons] at h; omega

theorem u16_pairs_long (data : Bytes) (h : 2 ≤ data.length) :
    u16_pairs data = beNat (data.take 2) :: u16_pairs (data.drop 2) := by
  match data with
  | [] => simp at h
  | [_] => simp at h
  | _ :: _ :: _ => rfl

theorem client_versions_eq {end_ : Nat} (hsize : data.length < 2 ^ 63)
    (hend : end_ ≤ data.length) (fuel : Nat) {voff : Nat} {supports : Bool} (hoff : voff ≤ end_ + 1)
    (hfuel : end_ - voff < fuel) :
    client_versions data end_ fuel voff supports =
      .ok (supports || (u16_pairs (window data voff end_)).contains 0x0304) := by
  induction fuel generalizing voff supports with
  | zero => omega
  | succ fuel ih =>
    have hlen := window_length voff hend
    rw [client_versions, add_usize_ok (by omega), ok_bind]
    by_cases hmore : voff + 1 < end_
    · have hpairs := u16_pairs_long (window data voff end_) (by omega)
      rw [window_drop, window_take (by omega)] at hpairs
      rw [if_pos hmore, uint_at_eq 2 hsize (by omega), ok_bind, add_usize_ok (by omega), ok_bind,
        ih (by omega) (by omega), hpairs, List.contains_cons, Bool.or_assoc, Bool.beq_comm]
    · rw [if_neg hmore, u16_pairs_short (by omega)]
      simp

theorem client_key_shares_eq {end_ : Nat} (hsize : data.length < 2 ^ 63)
    (hend : end_ ≤ data.length) (fuel k : Nat) {soff : Nat} {key : Option Bytes} (hoff : soff ≤ end_)
    (hfuel : end_ - soff < fuel) (hk : end_ - soff ≤ k) :
    client_key_shares data end_ fuel soff key =
      .ofExcept (client_key_share k key (window data soff end_)) := by
  induction fuel generalizing k soff key with
  | zero => omega
  | succ fuel ih =>
    have hlen := window_length soff hend
    rw [client_key_shares, add_usize_ok (by omega), ok_bind]
    by_cases hmore : soff + 4 ≤ end_
    · obtain ⟨k, rfl⟩ : ∃ j, k = j + 1 := ⟨k - 1, by omega⟩
      rw [if_pos hmore, uint_at_eq 2 hsize (by omega), ok_bind, add_usize_ok (by omega), ok_bind,
        uint_at_eq 2 hsize (by omega), ok_bind, ok_bind]
      have hsmall := @beNat_take_lt (data.drop (soff + 2)) 2 (by decide)
      have hfour : ¬ (window data soff end_).length < 4 := by omega
      rw [add_usize_ok (by omega), ok_bind, client_key_share, if_neg hfour]
      dsimp only
      rw [window_drop, window_drop, window_take (by omega), window_take (by omega),
        window_length (soff + 4) hend]
      by_cases hshort : end_ - (soff + 4) < beNat ((data.drop (soff + 2)).take 2)
      · rw [if_pos hshort, if_pos (by omega)]
        rfl
      · rw [if_neg hshort, if_neg (by omega), window_drop]
        have hrest : ∀ key, client_key_shares data end_ fuel
            (soff + 4 + beNat ((data.drop (soff + 2)).take 2)) key =
            .ofExcept (client_key_share k key
              (window data (soff + 4 + beNat ((data.drop (soff + 2)).take 2)) end_)) := fun key =>
          ih k (by omega) (by omega) (by omega)
        by_cases hx : beNat ((data.drop soff).take 2) = GROUP_X25519 ∧
            beNat ((data.drop (soff + 2)).take 2) = 32
        · rw [if_pos hx, if_pos hx, add_usize_ok (by omega), ok_bind,
            slice_of_le (by omega) (by omega), ok_bind, ok_bind, Nat.add_sub_cancel_left,
            window_take (by omega)]
          exact hrest _
        · rw [if_neg hx, if_neg hx, ok_bind]
          exact hrest _
    · rw [if_neg hmore]
      cases k with
      | zero => rfl
      | succ k =>
        rw [client_key_share, if_pos (by omega)]
        rfl

theorem client_alpn_eq {end_ : Nat} (hsize : data.length < 2 ^ 63)
    (hend : end_ ≤ data.length) (fuel k : Nat) {aoff : Nat} {names : List Bytes} (hoff : aoff ≤ end_)
    (hfuel : end_ - aoff < fuel) (hk : end_ - aoff ≤ k) :
    client_alpn data end_ fuel aoff names =
      .ofExcept (tls.client_alpn k names (window data aoff end_)) := by
  induction fuel generalizing k aoff names with
  | zero => omega
  | succ fuel ih =>
    have hlen := window_length aoff hend
    rw [client_alpn]
    by_cases hmore : aoff < end_
    · obtain ⟨k, rfl⟩ : ∃ j, k = j + 1 := ⟨k - 1, by omega⟩
      have hne : window data aoff end_ ≠ [] := by
        intro h
        rw [h, List.length_nil] at hlen
        omega
      have hfirst : take_uint 1 (window data aoff end_) =
          (.ok (beNat ((data.drop aoff).take 1)), window data (aoff + 1) end_) := by
        rw [take_uint_front, if_neg (by omega), window_drop, window_take (by omega)]
      have hsmall := @beNat_take_lt (data.drop aoff) 1 (by decide)
      rw [if_pos hmore, uint_at_eq 1 hsize (by omega), ok_bind, add_usize_ok (by omega), ok_bind,
        add_usize_ok (by omega), ok_bind, tls.client_alpn, if_neg hne, parse, take_prefixed,
        bind_run, hfirst]
      dsimp only
      rw [take_bytes, window_length _ hend]
      by_cases hshort : end_ - (aoff + 1) < beNat ((data.drop aoff).take 1)
      · rw [if_pos hshort, if_pos (by omega)]
        rfl
      · rw [if_neg hshort, if_neg (by omega), slice_of_le (by omega) (by omega), ok_bind,
          Nat.add_sub_cancel_left, window_take (by omega), except_ok_bind]
        have hname : ((data.drop (aoff + 1)).take (beNat ((data.drop aoff).take 1))).length =
            beNat ((data.drop aoff).take 1) := by
          rw [List.length_take, List.length_drop]
          omega
        unfold alpn_name tls.alpn_name
        by_cases hlong : ((data.drop (aoff + 1)).take (beNat ((data.drop aoff).take 1))).length > 16
        · rw [if_pos hlong]
          rfl
        · rw [if_neg hlong, ofExcept_ok, ok_bind, except_ok_bind]
          by_cases hfull : names.length ≥ 4
          · rw [if_pos hfull, if_pos hfull]
            rfl
          · rw [if_neg hfull, if_neg hfull, hname, window_drop, ← Nat.add_assoc]
            exact ih k (by omega) (by omega) (by omega)
    · rw [if_neg hmore]
      have hnil : window data aoff end_ = [] := List.length_eq_zero_iff.mp (by omega)
      rw [hnil]
      cases k with
      | zero => rfl
      | succ k =>
        rw [tls.client_alpn, if_pos rfl]
        rfl

theorem client_hello_extension_eq {result : ClientHelloExtensions} {ext_type : Nat} {ext_data : Bytes}
    (hsize : ext_data.length < 2 ^ 63) :
    client_hello_extension result ext_type ext_data =
      .ofExcept (tls.client_hello_extension result ext_type ext_data) := by
  unfold client_hello_extension tls.client_hello_extension
  split
  · rcases list_end_eq hsize 1 (by decide) with
      ⟨e, hend, hlist⟩ | ⟨end_, hend, hfirst, hlast, hlist⟩
    · rw [hend, hlist]
      rfl
    · rw [hend, hlist, ok_bind, except_ok_bind, client_versions_eq hsize hlast _ (by omega) (by omega)]
      rfl
  · split
    · rcases list_end_eq hsize 2 (by decide) with
        ⟨e, hend, hlist⟩ | ⟨end_, hend, hfirst, hlast, hlist⟩
      · rw [hend, hlist]
        rfl
      · have hlen := window_length 2 hlast
        rw [hend, hlist, ok_bind, except_ok_bind,
          client_key_shares_eq hsize hlast _ (window ext_data 2 end_).length (by omega) (by omega)
            (by omega)]
        rcases client_key_share _ result.key_share (window ext_data 2 end_) with e | key <;> rfl
    · split
      · rcases list_end_eq hsize 2 (by decide) with
          ⟨e, hend, hlist⟩ | ⟨end_, hend, hfirst, hlast, hlist⟩
        · rw [hend, hlist]
          rfl
        · have hlen := window_length 2 hlast
          rw [hend, hlist, ok_bind, except_ok_bind,
            client_alpn_eq hsize hlast _ (window ext_data 2 end_).length (by omega) (by omega)
              (by omega)]
          rcases tls.client_alpn _ result.alpn_protocols (window ext_data 2 end_) with e | names <;> rfl
      · split
        · rw [decode_transport_params_eq hsize]
          rcases TransportParams.decode ext_data with e | tp <;> rfl
        · split
          · rw [parse_record_size_limit_eq hsize]
            rcases tls.parse_record_size_limit ext_data with e | limit <;> rfl
          · rfl

theorem parse_server_hello_extensions_eq (hsize : data.length < 2 ^ 63) :
    parse_server_hello_extensions data = .ofExcept (tls.parse_server_hello_extensions data) :=
  fold_extensions_eq hsize (fun _ _ _ h => server_hello_extension_eq (by omega))
    (data.length + 1) data.length (Nat.zero_le _) (by omega) (by omega)

theorem parse_encrypted_extensions_data_eq (hsize : data.length < 2 ^ 63) :
    parse_encrypted_extensions_data data = .ofExcept (tls.parse_encrypted_extensions_data data) :=
  fold_extensions_eq hsize (fun _ _ _ h => encrypted_extension_eq (by omega))
    (data.length + 1) data.length (Nat.zero_le _) (by omega) (by omega)

theorem parse_client_hello_extensions_eq (hsize : data.length < 2 ^ 63) :
    parse_client_hello_extensions data = .ofExcept (tls.parse_client_hello_extensions data) :=
  fold_extensions_eq hsize (fun _ _ _ h => client_hello_extension_eq (by omega))
    (data.length + 1) data.length (Nat.zero_le _) (by omega) (by omega)

/-! ## Certificates are searched as from the front -/

/-- Nothing is found in less than there is to be found. -/
theorem find_from_short {needle : Bytes} (rest : Bytes) (i : Nat) (h : rest.length < needle.length) :
    tls.find_from needle i rest = none := by
  induction rest generalizing i with
  | nil => rfl
  | cons b rest ih =>
    have hne : (b :: rest).take needle.length ≠ needle := fun heq => by
      have hlen := congrArg List.length heq
      rw [List.length_take] at hlen
      omega
    rw [List.length_cons] at h
    rw [tls.find_from, if_neg hne, ih _ (by omega)]

theorem find_from_eq {haystack needle : Bytes} (hsize : haystack.length < 2 ^ 63)
    (hneedle : needle ≠ []) (hle : needle.length ≤ haystack.length) (count : Nat) {i : Nat}
    (hcount : count + i = haystack.length - needle.length + 1) :
    find_from haystack needle count i = .ok (tls.find_from needle i (haystack.drop i)) := by
  have hpos := List.length_pos_iff.mpr hneedle
  induction count generalizing i with
  | zero => rw [find_from, find_from_short _ _ (by rw [List.length_drop]; omega)]
  | succ count ih =>
    have hlt : i < haystack.length := by omega
    rw [find_from, add_usize_ok (by omega), ok_bind, slice_of_le (by omega) (by omega), ok_bind,
      Nat.add_sub_cancel_left]
    have hcons : haystack.drop i = haystack[i] :: haystack.drop (i + 1) := List.drop_eq_getElem_cons hlt
    rw [hcons, tls.find_from]
    split
    · rfl
    · exact ih (by omega)

theorem find_subsequence_eq {haystack needle : Bytes} (hsize : haystack.length < 2 ^ 63) :
    find_subsequence haystack needle = .ok (tls.find_subsequence haystack needle) := by
  unfold find_subsequence tls.find_subsequence
  by_cases hnil : needle = []
  · rw [if_pos (.inl hnil), if_pos hnil]
  · rw [if_neg hnil]
    by_cases hlong : needle.length > haystack.length
    · rw [if_pos (.inr hlong), find_from_short _ _ hlong]
    · rw [if_neg (by simp only [hnil, hlong, or_self, not_false_eq_true])]
      exact find_from_eq hsize hnil (by omega) _ (by omega)

/-- Where something is found there is room for it. -/
theorem find_from_le {needle : Bytes} {rest : Bytes} {i pos : Nat}
    (h : tls.find_from needle i rest = some pos) : pos + needle.length ≤ i + rest.length := by
  induction rest generalizing i with
  | nil => cases h
  | cons b rest ih =>
    rw [tls.find_from] at h
    split at h
    · rename_i heq
      cases h
      have hlen := congrArg List.length heq
      rw [List.length_take] at hlen
      omega
    · have hle := ih h
      rw [List.length_cons]
      omega

theorem find_subsequence_le {haystack needle : Bytes} {pos : Nat}
    (h : tls.find_subsequence haystack needle = some pos) : pos + needle.length ≤ haystack.length := by
  unfold tls.find_subsequence at h
  split at h
  · cases h
  · have hle := find_from_le h
    omega

theorem parse_asn1_length_eq (hsize : data.length < 2 ^ 63) :
    parse_asn1_length data = .ofExcept (tls.parse_asn1_length data) := by
  unfold parse_asn1_length
  cases data with
  | nil => rfl
  | cons b rest =>
    unfold tls.parse_asn1_length
    rw [if_neg (List.cons_ne_nil _ _), index_of_lt (by simp), ok_bind]
    simp only [List.getElem_cons_zero]
    split
    · rfl
    · split
      · cases rest with
        | nil => rfl
        | cons c rest =>
          rw [if_neg (by simp), uint_at_eq 1 hsize (by simp), ok_bind]
          simp [beNat]
      · split
        · rcases rest with _ | ⟨c, _ | ⟨d, rest⟩⟩
          · rfl
          · rfl
          · rw [if_neg (by simp), uint_at_eq 2 hsize (by simp), ok_bind]
            rfl
        · rfl

theorem parse_asn1_length_le {len hdr_len : Nat}
    (h : tls.parse_asn1_length data = .ok (len, hdr_len)) : hdr_len ≤ 3 := by
  unfold tls.parse_asn1_length at h
  split at h
  · cases h
  · split at h
    · cases h
      decide
    · split at h
      · split at h
        · cases h
        · cases h
          decide
      · split at h
        · split at h
          · cases h
            decide
          · cases h
        · cases h

theorem bit_string_key_eq {cert_der : Bytes} (start : Nat) {len : Nat} (hsize : cert_der.length < 2 ^ 63)
    (hlen : len ≤ 65) :
    bit_string_key cert_der start len =
      if (cert_der.drop start).take 1 = [0x00] ∧ len + 1 ≤ (cert_der.drop start).length then
        .ok (((cert_der.drop start).drop 1).take len)
      else .err .Tls := by
  unfold bit_string_key
  rcases hstart : cert_der[start]? with _ | padding
  · have hle : cert_der.length ≤ start := List.getElem?_eq_none_iff.mp hstart
    rw [if_neg]
    rw [List.length_drop]
    omega
  · obtain ⟨hlt, rfl⟩ := List.getElem?_eq_some_iff.mp hstart
    have hcons : cert_der.drop start = cert_der[start] :: cert_der.drop (start + 1) :=
      List.drop_eq_getElem_cons hlt
    have hfirst : (cert_der.drop start).take 1 = [cert_der[start]] := by
      rw [hcons]
      rfl
    rw [hfirst]
    dsimp only
    by_cases hpad : cert_der[start] ≠ 0x00
    · rw [if_pos hpad, if_neg]
      simp [hpad]
    · rw [if_neg hpad, add_usize_ok (by omega), ok_bind]
      unfold checked_slice
      rw [add_usize_ok (by omega), ok_bind, List.length_drop, List.drop_drop]
      by_cases hroom : start + 1 + len > cert_der.length
      · rw [if_pos hroom, if_neg (by omega)]
        rfl
      · rw [if_neg hroom, if_pos ⟨by rw [not_not.mp hpad], by omega⟩,
          slice_of_le (by omega) (by omega), ok_bind, ok_bind, Nat.add_sub_cancel_left]

theorem p256_key_from_eq {cert_der : Bytes} (hsize : cert_der.length < 2 ^ 63) (count : Nat) {i : Nat}
    (hcount : count + i ≤ cert_der.length) :
    p256_key_from cert_der count i = .ofExcept (tls.p256_key_from count (cert_der.drop i)) := by
  induction count generalizing i with
  | zero => rfl
  | succ count ih =>
    have hlt : i < cert_der.length := by omega
    have hcons : cert_der.drop i = cert_der[i] :: cert_der.drop (i + 1) := List.drop_eq_getElem_cons hlt
    have hfirst : (cert_der.drop i).take 1 = [0x03] ↔ cert_der[i] = 0x03 := by
      rw [hcons, List.take_succ_cons, List.take_zero, List.cons.injEq]
      exact and_iff_left rfl
    have hnext := ih (i := i + 1) (by omega)
    rw [p256_key_from, index_of_lt hlt, ok_bind, tls.p256_key_from]
    simp only [hfirst, List.drop_drop]
    split
    · rw [add_usize_ok (by omega), ok_bind, sliceFrom_of_le (by omega), ok_bind,
        parse_asn1_length_eq (by rw [List.length_drop]; omega)]
      rcases hasn : tls.parse_asn1_length (cert_der.drop (i + 1)) with e | ⟨bit_string_len, hdr_len⟩
      · rfl
      · have hhdr := parse_asn1_length_le hasn
        rw [ofExcept_ok, ok_bind, except_ok_bind]
        dsimp only
        split
        · rw [ok_bind, add_usize_ok (by omega), ok_bind, bit_string_key_eq _ hsize (by decide),
            Nat.add_assoc, List.drop_drop]
          split <;> rfl
        · exact hnext
    · exact hnext

theorem extract_p256_pubkey_from_cert_eq {cert_der : Bytes} (hsize : cert_der.length < 2 ^ 63) :
    extract_p256_pubkey_from_cert cert_der =
      .ofExcept (tls.extract_p256_pubkey_from_cert cert_der) := by
  unfold extract_p256_pubkey_from_cert tls.extract_p256_pubkey_from_cert
  rw [find_subsequence_eq hsize, ok_bind]
  rcases hfind : tls.find_subsequence cert_der SECP256R1_OID with _ | oid_pos
  · rfl
  · have hle := find_subsequence_le hfind
    dsimp only
    rw [add_usize_ok (by omega), ok_bind]
    exact p256_key_from_eq hsize _ (by omega)

theorem ed25519_key_from_eq {cert_der : Bytes} (hsize : cert_der.length < 2 ^ 63) (count : Nat) {i : Nat}
    (hcount : count + i ≤ cert_der.length - 34) :
    ed25519_key_from cert_der count i = .ofExcept (tls.ed25519_key_from count (cert_der.drop i)) := by
  induction count generalizing i with
  | zero => rfl
  | succ count ih =>
    have hlt : i + 1 < cert_der.length := by omega
    have hcons : cert_der.drop i = cert_der[i] :: cert_der[i + 1] :: cert_der.drop (i + 2) := by
      rw [List.drop_eq_getElem_cons (by omega), List.drop_eq_getElem_cons hlt]
    have hfirst : (cert_der.drop i).take 2 = [0x03, 33] ↔
        cert_der[i] = 0x03 ∧ cert_der[i + 1] = 33 := by
      rw [hcons, List.take_succ_cons, List.take_succ_cons, List.take_zero, List.cons.injEq,
        List.cons.injEq]
      exact and_congr_right fun _ => and_iff_left rfl
    have hnext := ih (i := i + 1) (by omega)
    have hget : cert_der[i + 1]? = some cert_der[i + 1] := List.getElem?_eq_getElem hlt
    rw [ed25519_key_from, index_of_lt (by omega), ok_bind, tls.ed25519_key_from]
    simp only [hfirst, List.drop_drop]
    by_cases htag : cert_der[i] = 0x03
    · rw [if_pos htag, add_usize_ok (by omega), ok_bind, hget]
      dsimp only
      by_cases hlen : cert_der[i + 1] = 33
      · have hkey := bit_string_key_eq (i + 2) hsize (by decide : 32 ≤ 65)
        rw [if_pos hlen, if_pos ⟨htag, hlen⟩, add_usize_ok (by omega), ok_bind, hkey, List.drop_drop]
        by_cases hpad : (cert_der.drop (i + 2)).take 1 = [0x00]
        · rw [if_pos ⟨hpad, by rw [List.length_drop]; omega⟩,
            if_pos ⟨hpad, by rw [List.length_drop]; omega⟩]
          rfl
        · rw [if_neg (fun h => hpad h.1), if_neg (fun h => hpad h.1)]
          rfl
      · rw [if_neg hlen, if_neg (fun h => hlen h.2)]
        exact hnext
    · rw [if_neg htag, if_neg (fun h => htag h.1)]
      exact hnext

theorem extract_ed25519_pubkey_from_cert_eq {cert_der : Bytes} (hsize : cert_der.length < 2 ^ 63) :
    extract_ed25519_pubkey_from_cert cert_der =
      .ofExcept (tls.extract_ed25519_pubkey_from_cert cert_der) := by
  unfold extract_ed25519_pubkey_from_cert tls.extract_ed25519_pubkey_from_cert
  rw [find_subsequence_eq hsize, ok_bind]
  rcases hfind : tls.find_subsequence cert_der ED25519_OID with _ | oid_pos
  · rfl
  · have hle := find_subsequence_le hfind
    dsimp only
    rw [add_usize_ok (by omega), ok_bind]
    by_cases hroom : oid_pos + ED25519_OID.length ≤ cert_der.length - 34
    · exact ed25519_key_from_eq hsize _ (by omega)
    · rw [show cert_der.length - 34 - (oid_pos + ED25519_OID.length) = 0 by omega]
      rfl

/-! ## What is returned lies in the input -/

/-- A reader leaves an end of its input. -/
def LeavesSuffix {α : Type} (r : Reader α) : Prop :=
  ∀ {data rest : Bytes} {a : α}, r data = (.ok a, rest) → rest <:+: data

/-- What a reader returns is a slice of its input. -/
def ReturnsSlice (r : Reader Bytes) : Prop :=
  ∀ {data rest s : Bytes}, r data = (.ok s, rest) → s <:+: data ∧ rest <:+: data

theorem returnsSlice_take_bytes (len : Nat) : ReturnsSlice (take_bytes len) := by
  intro data rest s h
  unfold take_bytes at h
  split at h
  · cases h
  · cases h
    exact ⟨(List.take_prefix _ _).isInfix, (List.drop_suffix _ _).isInfix⟩

theorem leavesSuffix_take_uint (len : Nat) : LeavesSuffix (take_uint len) := by
  intro data rest v h
  obtain ⟨b, mid, hb, hv⟩ := bind_eq_ok h
  cases hv
  exact (returnsSlice_take_bytes len hb).2

theorem returnsSlice_take_prefixed (len_len : Nat) : ReturnsSlice (take_prefixed len_len) := by
  intro data rest s h
  obtain ⟨len, mid, hlen, hs⟩ := bind_eq_ok h
  have hmid := leavesSuffix_take_uint len_len hlen
  obtain ⟨hin, hrest⟩ := returnsSlice_take_bytes len hs
  exact ⟨hin.trans hmid, hrest.trans hmid⟩

theorem returnsSlice_take_hello_extensions : ReturnsSlice take_hello_extensions := by
  intro data rest s h
  unfold take_hello_extensions at h
  split at h
  · cases h
    exact ⟨List.nil_infix, List.infix_rfl⟩
  · exact returnsSlice_take_prefixed 2 h

/-- A parser that succeeds is a reader that does. -/
theorem parse_eq_ok {α : Type} {r : Reader α} {a : α} (h : parse r data = .ok a) :
    ∃ rest, r data = (.ok a, rest) := ⟨(r data).2, Prod.ext h rfl⟩

theorem server_hello_slices {sh : ServerHello} (h : tls.parse_server_hello data = .ok sh) :
    sh.random <:+: data ∧ sh.session_id <:+: data ∧ sh.extensions <:+: data := by
  obtain ⟨rest, h⟩ := parse_eq_ok h
  obtain ⟨_, d₁, h₁, h⟩ := bind_eq_ok h
  obtain ⟨random, d₂, h₂, h⟩ := bind_eq_ok h
  obtain ⟨session_id, d₃, h₃, h⟩ := bind_eq_ok h
  obtain ⟨cs_val, d₄, h₄, h⟩ := bind_eq_ok h
  obtain ⟨cipher_suite, d₅, h₅, h⟩ := bind_eq_ok h
  obtain ⟨_, d₆, h₆, h⟩ := bind_eq_ok h
  obtain ⟨extensions, d₇, h₇, h⟩ := bind_eq_ok h
  cases h
  have hd₅ : d₅ = d₄ := by
    rcases hcs : CipherSuite.from_u16 cs_val with _ | cs
    · rw [hcs] at h₅
      cases h₅
    · rw [hcs] at h₅
      cases h₅
      rfl
  have i₁ := leavesSuffix_take_uint 2 h₁
  obtain ⟨hrandom, i₂⟩ := returnsSlice_take_bytes 32 h₂
  obtain ⟨hsession, i₃⟩ := returnsSlice_take_prefixed 1 h₃
  have i₄ := leavesSuffix_take_uint 2 h₄
  have i₆ := leavesSuffix_take_uint 1 h₆
  have hext := (returnsSlice_take_hello_extensions h₇).1
  rw [hd₅] at i₆
  have hd₂ := i₂.trans i₁
  have hd₃ := i₃.trans hd₂
  exact ⟨hrandom.trans i₁, hsession.trans hd₂, hext.trans (i₆.trans (i₄.trans hd₃))⟩

theorem client_hello_slices {ch : ClientHello} (h : tls.parse_client_hello data = .ok ch) :
    ch.random <:+: data ∧ ch.session_id <:+: data ∧ ch.cipher_suites <:+: data ∧
      ch.extensions <:+: data := by
  obtain ⟨rest, h⟩ := parse_eq_ok h
  obtain ⟨_, d₁, h₁, h⟩ := bind_eq_ok h
  obtain ⟨random, d₂, h₂, h⟩ := bind_eq_ok h
  obtain ⟨session_id, d₃, h₃, h⟩ := bind_eq_ok h
  obtain ⟨cipher_suites, d₄, h₄, h⟩ := bind_eq_ok h
  obtain ⟨_, d₅, h₅, h⟩ := bind_eq_ok h
  obtain ⟨extensions, d₆, h₆, h⟩ := bind_eq_ok h
  cases h
  have i₁ := leavesSuffix_take_uint 2 h₁
  obtain ⟨hrandom, i₂⟩ := returnsSlice_take_bytes 32 h₂
  obtain ⟨hsession, i₃⟩ := returnsSlice_take_prefixed 1 h₃
  obtain ⟨hsuites, i₄⟩ := returnsSlice_take_prefixed 2 h₄
  have i₅ := (returnsSlice_take_prefixed 1 h₅).2
  have hext := (returnsSlice_take_hello_extensions h₆).1
  have hd₂ := i₂.trans i₁
  have hd₃ := i₃.trans hd₂
  exact ⟨hrandom.trans i₁, hsession.trans hd₂, hsuites.trans hd₃, hext.trans (i₅.trans (i₄.trans hd₃))⟩

theorem certificate_slices {payload : CertificatePayload}
    (h : parse (do
      let context ← take_prefixed 1
      let entries ← take_prefixed 3
      pure ({ context, entries } : CertificatePayload)) data = .ok payload) :
    payload.context <:+: data ∧ payload.entries <:+: data := by
  obtain ⟨rest, h⟩ := parse_eq_ok h
  obtain ⟨context, d₁, h₁, h⟩ := bind_eq_ok h
  obtain ⟨entries, d₂, h₂, h⟩ := bind_eq_ok h
  cases h
  obtain ⟨hcontext, i₁⟩ := returnsSlice_take_prefixed 1 h₁
  exact ⟨hcontext, ((returnsSlice_take_prefixed 3 h₂).1).trans i₁⟩

theorem certificate_verify_slices {cv : CertificateVerify}
    (h : tls.parse_certificate_verify data = .ok cv) : cv.signature <:+: data := by
  obtain ⟨rest, h⟩ := parse_eq_ok h
  obtain ⟨algorithm, d₁, h₁, h⟩ := bind_eq_ok h
  obtain ⟨signature, d₂, h₂, h⟩ := bind_eq_ok h
  cases h
  exact ((returnsSlice_take_prefixed 2 h₂).1).trans (leavesSuffix_take_uint 2 h₁)

/-! ## No parser reads outside its input -/

/-- A parser ends in a value or an error, and its value is within bounds. -/
def Total {α : Type} (within : α → Prop) (x : Outcome Error α) : Prop :=
  x.Safe ∧ ∀ a, x = .ok a → within a

theorem total_ofExcept {α : Type} {within : α → Prop} {r : Except Error α}
    (h : ∀ a, r = .ok a → within a) : Total within (.ofExcept r) :=
  ⟨safe_ofExcept r, fun a ha => h a (ofExcept_eq_ok ha)⟩

/-- Every parser on one input. -/
structure InBounds (data : Bytes) : Prop where
  server_hello : Total (fun sh => sh.random <:+: data ∧ sh.session_id <:+: data ∧
    sh.extensions <:+: data) (parse_server_hello data)
  client_hello : Total (fun ch => ch.random <:+: data ∧ ch.session_id <:+: data ∧
    ch.cipher_suites <:+: data ∧ ch.extensions <:+: data) (parse_client_hello data)
  encrypted_extensions : Total (· <:+: data) (parse_encrypted_extensions data)
  certificate : Total (fun payload => payload.context <:+: data ∧ payload.entries <:+: data)
    (parse_certificate data)
  certificate_entries : ∃ items, Iterates data items ∧ ∀ item ∈ items,
    Total (fun entry => entry.cert_data <:+: data ∧ entry.extensions <:+: data) item
  certificate_verify : Total (fun cv => cv.signature <:+: data) (parse_certificate_verify data)
  finished : Total (· <:+: data) (parse_finished data)
  server_hello_extensions : (parse_server_hello_extensions data).Safe
  encrypted_extensions_data : (parse_encrypted_extensions_data data).Safe
  client_hello_extensions : (parse_client_hello_extensions data).Safe
  transport_params : (decode_transport_params data).Safe
  p256_pubkey : (extract_p256_pubkey_from_cert data).Safe
  ed25519_pubkey : (extract_ed25519_pubkey_from_cert data).Safe

/-- No parser panics on any byte string, and every slice it returns lies within it. No slice of Rust
is longer than the bound. -/
theorem parsers_are_in_bounds {data : Bytes} (hsize : data.length < 2 ^ 63) : InBounds data where
  server_hello := by
    rw [parse_server_hello_eq hsize]
    exact total_ofExcept fun _ => server_hello_slices
  client_hello := by
    rw [parse_client_hello_eq hsize]
    exact total_ofExcept fun _ => client_hello_slices
  encrypted_extensions := by
    rw [parse_encrypted_extensions_eq hsize]
    refine total_ofExcept fun ext h => ?_
    obtain ⟨rest, h⟩ := parse_eq_ok h
    exact (returnsSlice_take_prefixed 2 h).1
  certificate := by
    rw [parse_certificate_eq hsize]
    exact total_ofExcept fun _ => certificate_slices
  certificate_entries := iterator_ends hsize
  certificate_verify := by
    rw [parse_certificate_verify_eq hsize]
    exact total_ofExcept fun _ => certificate_verify_slices
  finished := by
    rw [parse_finished_eq]
    refine total_ofExcept fun verify_data h => ?_
    obtain ⟨rest, h⟩ := parse_eq_ok h
    exact (returnsSlice_take_bytes 32 h).1
  server_hello_extensions := by
    rw [parse_server_hello_extensions_eq hsize]
    exact safe_ofExcept _
  encrypted_extensions_data := by
    rw [parse_encrypted_extensions_data_eq hsize]
    exact safe_ofExcept _
  client_hello_extensions := by
    rw [parse_client_hello_extensions_eq hsize]
    exact safe_ofExcept _
  transport_params := by
    rw [decode_transport_params_eq hsize]
    exact safe_ofExcept _
  p256_pubkey := by
    rw [extract_p256_pubkey_from_cert_eq hsize]
    exact safe_ofExcept _
  ed25519_pubkey := by
    rw [extract_ed25519_pubkey_from_cert_eq hsize]
    exact safe_ofExcept _

/-- A Certificate message whose list claims more than there is. -/
theorem truncated_certificate_is_refused :
    parse_certificate [0, 0xff, 0xff, 0xff, 1] = .err .Tls ∧ InBounds [0, 0xff, 0xff, 0xff, 1] :=
  ⟨by decide, parsers_are_in_bounds (by decide)⟩

end milli_http.tls.bounds
