-- TLS 1.3 records (tcp_tls/record.rs), their keys, and how a flight of handshake messages is
-- cut into records (tcp_tls/connection.rs).
import MilliHttp.Tls.Handshake

open bytes

namespace milli_http.tcp_tls

open crypto

/-! ## Headers -/

inductive ContentType where
  | ChangeCipherSpec
  | Alert
  | Handshake
  | ApplicationData
  deriving DecidableEq, Repr

namespace ContentType

/-- `ct as u8`. -/
def to_byte : ContentType → UInt8
  | ChangeCipherSpec => 20
  | Alert => 21
  | Handshake => 22
  | ApplicationData => 23

def from_byte (b : UInt8) : Option ContentType :=
  if b = 20 then some ChangeCipherSpec
  else if b = 21 then some Alert
  else if b = 22 then some Handshake
  else if b = 23 then some ApplicationData
  else none

end ContentType

structure RecordHeader where
  content_type : ContentType
  legacy_version : Nat
  length : Nat
  deriving DecidableEq, Repr

def RECORD_HEADER_LEN : Nat := 5

/-- A record header; the length is written as a `u16`. -/
def encode_record_header (ct : ContentType) (length : Nat) : Bytes :=
  [ct.to_byte, 0x03, 0x03] ++ toBe 2 length

def decode_record_header (data : Bytes) : Except Error RecordHeader :=
  match data with
  | ty :: v₁ :: v₂ :: l₁ :: l₂ :: _ =>
    match ContentType.from_byte ty with
    | none => .error .Tls
    | some content_type =>
      .ok { content_type, legacy_version := beNat [v₁, v₂], length := beNat [l₁, l₂] }
  | _ => .error (.BufferTooSmall RECORD_HEADER_LEN)

@[simp] theorem encode_record_header_length (ct : ContentType) (length : Nat) :
    (encode_record_header ct length).length = RECORD_HEADER_LEN := by
  simp [encode_record_header, RECORD_HEADER_LEN]

/-- The nonce of a record: the IV with the sequence number XORed into its last 8 bytes. -/
def build_nonce (iv : Bytes) (seq : Nat) : Bytes :=
  iv.take 4 ++ (iv.drop 4).zipWith (· ^^^ ·) (toBe 8 seq)

/-! ## Keys -/

/-- AEAD and IV for one direction. -/
structure DirectionalRecordKeys (X : Primitives) where
  aead : X.C.Aead
  iv : Bytes

/-- The record keys of a traffic secret (`derive_tls_record_keys` and `provider.aead`). -/
def derive_record_keys (X : Primitives) (secret : Bytes) (suite : CipherSuite) :
    Except Error (DirectionalRecordKeys X) := do
  let key ← hkdf_expand_label X.C.hkdf secret (ascii "key") [] suite.key_len
  let iv ← hkdf_expand_label X.C.hkdf secret (ascii "iv") [] 12
  let aead ← X.C.aead key
  pure { aead, iv }

/-! ## The content of a protected record -/

/-- The number of bytes in front of the zeros a record is padded with. -/
def unpadded_len (plaintext : Bytes) : Nat := (plaintext.reverse.dropWhile (· == 0)).length

/-- The inner content type is the last byte that is not zero, the data is what stands before it. -/
def find_inner_content_type (plaintext : Bytes) : Except Error (Nat × ContentType) :=
  let pos := unpadded_len plaintext
  if pos = 0 then .error .Tls
  else
    match ContentType.from_byte (plaintext.getD (pos - 1) 0) with
    | none => .error .Tls
    | some ct => .ok (pos - 1, ct)

/-- A record as it was meant: in the clear, or sealed with a key and a sequence number. -/
inductive Record (X : Primitives) where
  | plaintext (ct : ContentType) (data : Bytes)
  | sealed (keys : DirectionalRecordKeys X) (seq : Nat) (inner_ct : ContentType) (data : Bytes)

namespace Record

variable {X : Primitives}

/-- The content type and the data of a record. -/
def content : Record X → ContentType × Bytes
  | plaintext ct data => (ct, data)
  | sealed _ _ inner_ct data => (inner_ct, data)

/-- The header of a record. The header of a sealed one is its associated data too. -/
def header : Record X → Bytes
  | plaintext ct data => encode_record_header ct data.length
  | sealed _ _ _ data => encode_record_header .ApplicationData (data.length + 1 + TAG_LEN)

/-- The payload of a record. -/
def payload : Record X → Bytes
  | plaintext _ data => data
  | sealed keys seq inner_ct data =>
    X.C.seal_in_place keys.aead (build_nonce keys.iv seq)
      (encode_record_header .ApplicationData (data.length + 1 + TAG_LEN)) (data ++ [inner_ct.to_byte])

/-- A record on the wire. -/
def bytes (r : Record X) : Bytes := r.header ++ r.payload

end Record

/-! ## Cutting a flight -/

/-- `handshake_msg_end(buf, off) - off`, where `rest` is what stands from `off` on. -/
def handshake_msg_len (rest : Bytes) : Nat :=
  if rest.length < 4 then rest.length
  else min (4 + beNat ((rest.drop 1).take 3)) rest.length

/-- How far whole messages fit a record together, of which `taken` bytes do already. -/
def packed_len (cap : Nat) (rest : Bytes) : Nat → Nat → Nat
  | 0, taken => taken
  | fuel + 1, taken =>
    if taken < rest.length then
      let msg_end := taken + handshake_msg_len (rest.drop taken)
      if msg_end > cap then taken else packed_len cap rest fuel msg_end
    else taken

/-- `data.chunks(cap)`. -/
def chunks (cap : Nat) : Nat → Bytes → List Bytes
  | 0, _ => []
  | fuel + 1, data =>
    if data = [] then [] else data.take cap :: chunks cap fuel (data.drop cap)

/-- The pieces a flight is sent in: whole messages, as many as fit a record; a message that
does not fit one is cut up. -/
def fragments (cap : Nat) : Nat → Bytes → List Bytes
  | 0, _ => []
  | fuel + 1, rest =>
    if rest = [] then []
    else
      let fits := packed_len cap rest rest.length 0
      if fits = 0 then
        let msg_len := handshake_msg_len rest
        chunks cap msg_len (rest.take msg_len) ++ fragments cap fuel (rest.drop msg_len)
      else rest.take fits :: fragments cap fuel (rest.drop fits)

theorem handshake_msg_len_pos {rest : Bytes} (h : rest ≠ []) : 0 < handshake_msg_len rest := by
  have hlen := List.length_pos_iff.mpr h
  unfold handshake_msg_len
  split <;> omega

theorem handshake_msg_len_le (rest : Bytes) : handshake_msg_len rest ≤ rest.length := by
  unfold handshake_msg_len
  split <;> omega

/-- Chunks put together are what was cut. -/
theorem chunks_flatten {cap : Nat} (hcap : 0 < cap) (fuel : Nat) {data : Bytes}
    (hfuel : data.length ≤ fuel) : (chunks cap fuel data).flatten = data := by
  induction fuel generalizing data with
  | zero => exact (List.length_eq_zero_iff.mp (Nat.le_zero.mp hfuel)).symm
  | succ fuel ih =>
    unfold chunks
    split
    · exact (‹data = []›).symm
    · have hlen : (data.drop cap).length ≤ fuel := by
        rw [List.length_drop]
        omega
      rw [List.flatten_cons, ih hlen, List.take_append_drop]

/-- The pieces of a flight put together are the flight. -/
theorem fragments_flatten {cap : Nat} (hcap : 0 < cap) (fuel : Nat) {rest : Bytes}
    (hfuel : rest.length ≤ fuel) : (fragments cap fuel rest).flatten = rest := by
  induction fuel generalizing rest with
  | zero => exact (List.length_eq_zero_iff.mp (Nat.le_zero.mp hfuel)).symm
  | succ fuel ih =>
    unfold fragments
    split
    · exact (‹rest = []›).symm
    · rename_i hne
      have hpos := handshake_msg_len_pos hne
      dsimp only
      split
      · have hlen : (rest.drop (handshake_msg_len rest)).length ≤ fuel := by
          rw [List.length_drop]
          omega
        have htake : (rest.take (handshake_msg_len rest)).length ≤ handshake_msg_len rest :=
          List.length_take_le _ _
        rw [List.flatten_append, ih hlen, chunks_flatten hcap _ htake, List.take_append_drop]
      · have hlen : (rest.drop (packed_len cap rest rest.length 0)).length ≤ fuel := by
          rw [List.length_drop]
          omega
        rw [List.flatten_cons, ih hlen, List.take_append_drop]

/-- The record size limit to advertise for a receive buffer of `BUF` bytes. -/
def local_record_size_limit (BUF : Nat) : Nat := min (max (BUF - 64) 64) 16385

end milli_http.tcp_tls
