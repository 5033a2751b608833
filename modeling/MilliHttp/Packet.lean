-- QUIC packet headers (RFC 9000 §17): packet numbers, long and short headers, and
-- the iterator that cuts a datagram into packets. Every index and slice is checked
-- against its buffer, and one outside it is a panic.
import MilliHttp.Varint

open bytes

namespace milli_http.packet

open varint

/-- QUIC v1 version number. -/
def QUIC_VERSION_1 : Nat := 1

/-- Minimum Initial packet size. -/
def MIN_INITIAL_PACKET_SIZE : Nat := 1200

/-! ## Packet numbers -/

/-- How many bytes encode `full_pn` given `largest_acked`. -/
def pn_length (full_pn largest_acked : Nat) : Nat :=
  let num_unacked := if full_pn > largest_acked then full_pn - largest_acked else 1
  if num_unacked < 2 ^ 7 then 1
  else if num_unacked < 2 ^ 15 then 2
  else if num_unacked < 2 ^ 23 then 3
  else 4

/-- Encodes a truncated packet number into a buffer of `cap` bytes. -/
def encode_pn (full_pn largest_acked cap : Nat) : Except Error Bytes :=
  let len := pn_length full_pn largest_acked
  if cap < len then .error (.BufferTooSmall len) else .ok (toBe len full_pn)

/-- Decodes a truncated packet number given the largest one processed. -/
def decode_pn (truncated_pn pn_len largest_pn : Nat) : Nat :=
  let pn_win := 2 ^ (pn_len * 8)
  let pn_hwin := pn_win / 2
  let expected_pn := largest_pn + 1
  let candidate_pn := expected_pn / pn_win * pn_win ||| truncated_pn
  if candidate_pn + pn_hwin ≤ expected_pn ∧ candidate_pn + pn_win ≤ 2 ^ 62 then
    candidate_pn + pn_win
  else if candidate_pn > expected_pn + pn_hwin ∧ candidate_pn ≥ pn_win then
    candidate_pn - pn_win
  else candidate_pn

/-! ## Long headers -/

/-- What the long headers have in common: the version, the two connection ids and
where the fields after them start. -/
structure LongFields where
  version : Nat
  dcid : Bytes
  scid : Bytes
  pos : Nat
  deriving DecidableEq, Repr

/-- A parsed Initial packet header. -/
structure InitialHeader where
  version : Nat
  dcid : Bytes
  scid : Bytes
  token : Bytes
  pn_offset : Nat
  payload_length : Nat
  deriving DecidableEq, Repr

/-- A parsed Handshake packet header. -/
structure HandshakeHeader where
  version : Nat
  dcid : Bytes
  scid : Bytes
  pn_offset : Nat
  payload_length : Nat
  deriving DecidableEq, Repr

/-- The version field, bytes 1 to 4. -/
def version_field (buf : Bytes) : Outcome Error Nat := do
  let b1 ← index buf 1
  let b2 ← index buf 2
  let b3 ← index buf 3
  let b4 ← index buf 4
  pure (beNat [b1, b2, b3, b4])

/-- The fields every long header starts with, checked as the source's parsers check them. -/
def parse_long_fields (buf : Bytes) : Outcome Error LongFields :=
  if buf.length < 7 then .err (.BufferTooSmall 7)
  else do
    let first_byte ← index buf 0
    if first_byte &&& 0x80 = 0 then .err (.Transport .ProtocolViolation)
    else do
      let version ← version_field buf
      let dcid_len ← index buf 5
      let pos := 6
      if pos + dcid_len.toNat > buf.length then .err (.BufferTooSmall (pos + dcid_len.toNat))
      else do
        let dcid ← slice buf pos (pos + dcid_len.toNat)
        let pos := pos + dcid_len.toNat
        if pos ≥ buf.length then .err (.BufferTooSmall (pos + 1))
        else do
          let scid_len ← index buf pos
          let pos := pos + 1
          if pos + scid_len.toNat > buf.length then .err (.BufferTooSmall (pos + scid_len.toNat))
          else do
            let scid ← slice buf pos (pos + scid_len.toNat)
            pure { version, dcid, scid, pos := pos + scid_len.toNat }

/-- Parses a complete Initial packet header. -/
def parse_initial_header (buf : Bytes) : Outcome Error InitialHeader := do
  let f ← parse_long_fields buf
  let rest ← sliceFrom buf f.pos
  let (token_len, consumed) ← .ofExcept (decode_varint rest)
  let pos := f.pos + consumed
  if pos + token_len > buf.length then .err (.BufferTooSmall (pos + token_len))
  else do
    let token ← slice buf pos (pos + token_len)
    let pos := pos + token_len
    let rest ← sliceFrom buf pos
    let (payload_length, consumed) ← .ofExcept (decode_varint rest)
    pure { version := f.version, dcid := f.dcid, scid := f.scid, token,
           pn_offset := pos + consumed, payload_length }

/-- Parses a Handshake packet header: as Initial, without the token. -/
def parse_handshake_header (buf : Bytes) : Outcome Error HandshakeHeader := do
  let f ← parse_long_fields buf
  let rest ← sliceFrom buf f.pos
  let (payload_length, consumed) ← .ofExcept (decode_varint rest)
  pure { version := f.version, dcid := f.dcid, scid := f.scid,
         pn_offset := f.pos + consumed, payload_length }

/-- The bytes of a long header up to and including the source connection id. -/
def long_header_start (first_byte : UInt8) (dcid scid : Bytes) : Bytes :=
  [first_byte] ++ toBe 4 QUIC_VERSION_1 ++ [UInt8.ofNat dcid.length] ++ dcid ++
    [UInt8.ofNat scid.length] ++ scid

/-- Encodes an Initial header into a buffer of `cap` bytes. -/
def encode_initial_header (dcid scid token : Bytes) (pn_len payload_len cap : Nat) :
    Except Error Bytes :=
  let needed := 1 + 4 + 1 + dcid.length + 1 + scid.length + varint_len token.length +
    token.length + varint_len payload_len
  if cap < needed then .error (.BufferTooSmall needed)
  else do
    let start := long_header_start (0xC0 ||| (UInt8.ofNat pn_len - 1 &&& 0x03)) dcid scid
    let token_length ← encode_varint token.length (cap - start.length)
    let length ← encode_varint payload_len
      (cap - (start.length + token_length.length + token.length))
    pure (start ++ token_length ++ token ++ length)

/-- Encodes a Handshake header into a buffer of `cap` bytes. -/
def encode_handshake_header (dcid scid : Bytes) (pn_len payload_len cap : Nat) :
    Except Error Bytes :=
  let needed := 1 + 4 + 1 + dcid.length + 1 + scid.length + varint_len payload_len
  if cap < needed then .error (.BufferTooSmall needed)
  else do
    let start := long_header_start (0xE0 ||| (UInt8.ofNat pn_len - 1 &&& 0x03)) dcid scid
    let length ← encode_varint payload_len (cap - start.length)
    pure (start ++ length)

/-! ## Short headers -/

/-- Checks a short header and returns its length: the first byte and the DCID. -/
def parse_short_header (buf : Bytes) (dcid_len : Nat) : Outcome Error (Bytes × Nat) :=
  let needed := 1 + dcid_len
  if buf.length < needed then .err (.BufferTooSmall needed)
  else do
    let first_byte ← index buf 0
    if first_byte &&& 0x80 ≠ 0 then .err (.Transport .ProtocolViolation)
    else do
      let dcid ← slice buf 1 (1 + dcid_len)
      pure (dcid, needed)

/-- Encodes a short header into a buffer of `cap` bytes. -/
def encode_short_header (dcid : Bytes) (first_byte : UInt8) (cap : Nat) : Except Error Bytes :=
  let needed := 1 + dcid.length
  if cap < needed then .error (.BufferTooSmall needed) else .ok (first_byte :: dcid)

/-! ## Coalesced packets -/

/-- The packet type bits of a long header's first byte. -/
def pkt_type (first_byte : UInt8) : UInt8 := (first_byte &&& 0x30) >>> 4

/-- The length of the packet at the front of `remaining`, which is what is left of a
datagram of `buf_len` bytes. -/
def packet_len (buf_len : Nat) (remaining : Bytes) : Outcome Error Nat := do
  let first_byte ← index remaining 0
  if first_byte &&& 0x80 = 0 then .ok remaining.length
  else if remaining.length < 6 then .err (.BufferTooSmall 6)
  else do
    let version ← version_field remaining
    -- Version Negotiation takes the rest of the datagram.
    if version = 0 then .ok remaining.length
    else do
      let dcid_len ← index remaining 5
      let pos := 6
      if pos + dcid_len.toNat ≥ remaining.length then
        .err (.BufferTooSmall (pos + dcid_len.toNat + 1))
      else do
        let pos := pos + dcid_len.toNat
        let scid_len ← index remaining pos
        let pos := pos + 1
        if pos + scid_len.toNat > remaining.length then
          .err (.BufferTooSmall (pos + scid_len.toNat))
        else do
          let pos := pos + scid_len.toNat
          let pos ← after_token remaining pos first_byte
          -- Retry has no Length field.
          if pkt_type first_byte = 0b11 then .ok remaining.length
          else do
            let rest ← sliceFrom remaining pos
            let (payload_length, consumed) ← .ofExcept (decode_varint rest)
            let total := pos + consumed + payload_length
            if total > remaining.length then .err (.BufferTooSmall (buf_len + total))
            else .ok total
where
  /-- Initial packets carry a token before the Length field. -/
  after_token (remaining : Bytes) (pos : Nat) (first_byte : UInt8) : Outcome Error Nat :=
    if pkt_type first_byte = 0b00 then do
      let rest ← sliceFrom remaining pos
      let (token_len, consumed) ← .ofExcept (decode_varint rest)
      let pos := pos + consumed + token_len
      if pos > remaining.length then .err (.BufferTooSmall pos) else .ok pos
    else .ok pos

/-- Iterator over the packets of one UDP datagram. -/
structure CoalescedPackets where
  buf : Bytes
  offset : Nat
  deriving DecidableEq, Repr

/-- The packet at the iterator's offset. -/
def CoalescedPackets.front (it : CoalescedPackets) : Outcome Error Bytes := do
  let remaining ← sliceFrom it.buf it.offset
  let total ← packet_len it.buf.length remaining
  slice it.buf it.offset (it.offset + total)

/-- The next packet, if any: a packet moves the iterator past itself, an error moves it
to the end of the datagram. -/
def CoalescedPackets.next (it : CoalescedPackets) :
    Option (Outcome Error Bytes) × CoalescedPackets :=
  if it.offset ≥ it.buf.length then (none, it)
  else
    match it.front with
    | .ok pkt => (some (.ok pkt), { it with offset := it.offset + pkt.length })
    | .err e => (some (.err e), { it with offset := it.buf.length })
    | .panic => (some .panic, it)

/-- What the iterator yields in at most `fuel` steps, up to the first panic. -/
def CoalescedPackets.items : Nat → CoalescedPackets → List (Outcome Error Bytes)
  | 0, _ => []
  | fuel + 1, it =>
    match it.next with
    | (none, _) => []
    | (some .panic, _) => [.panic]
    | (some item, it') => item :: items fuel it'

/-- All the packets of a datagram. Each takes at least a byte, so its length bounds them. -/
def coalesced (datagram : Bytes) : List (Outcome Error Bytes) :=
  CoalescedPackets.items (datagram.length + 1) { buf := datagram, offset := 0 }

end milli_http.packet
