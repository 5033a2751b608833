-- The HPACK encoder and decoder (hpack/codec.rs), of a build with the alloc feature: the
-- decoder keeps a dynamic table, the encoder never indexes.
import MilliHttp.Hpack.Tables
import MilliHttp.Lib.Method

open bytes method

namespace milli_http.hpack

/-! ## Encoding -/

/-- A string literal without Huffman coding: its length and its bytes, into `cap` bytes. -/
def encode_string_literal (s : Bytes) (cap : Nat) : Except Error Bytes := do
  let len ← encode_integer s.length 7 0x00 cap
  if cap - len.length < s.length then .error (.BufferTooSmall (len.length + s.length))
  else .ok (len ++ s)

/-- One field: an index of the static table, or a literal that is not to be indexed. It goes
into the `cap` bytes behind the first `offset`. -/
def encode_field (name value : Bytes) (offset cap : Nat) : Except Error Bytes :=
  match lookup name value with
  | .ExactMatch idx => encode_integer idx 7 0b10000000 cap
  | .NameMatch idx => do
    let index ← encode_integer idx 4 0b00000000 cap
    let value ← encode_string_literal value (cap - index.length)
    .ok (index ++ value)
  | .NotFound =>
    if cap = 0 then .error (.BufferTooSmall (offset + 1))
    else do
      let name ← encode_string_literal name (cap - 1)
      let value ← encode_string_literal value (cap - 1 - name.length)
      .ok (0x00 :: name ++ value)

/-- The fields of a header block, one behind the other. -/
def encode_fields : List Header → Nat → Nat → Except Error Bytes
  | [], _, _ => .ok []
  | (name, value) :: rest, offset, cap => do
    let field ← encode_field name value offset cap
    let block ← encode_fields rest (offset + field.length) (cap - field.length)
    .ok (field ++ block)

/-- `HpackEncoder::encode`: a header block, into `cap` bytes. -/
def encode (headers : List Header) (cap : Nat) : Except Error Bytes := encode_fields headers 0 cap

/-- What the encoder of an integer has written into `cap` bytes when it stops. A value of 64 bits
takes at most eleven. -/
def integer_written (value prefix_bits : Nat) (first_byte_mask : UInt8) (cap : Nat) : Bytes :=
  match encode_integer value prefix_bits first_byte_mask 11 with
  | .ok bytes => bytes.take cap
  | .error _ => []

/-- What is written of a string: its length goes first, and its bytes only if all of them fit. -/
def string_literal_written (s : Bytes) (cap : Nat) : Bytes :=
  match encode_integer s.length 7 0x00 cap with
  | .ok len => if cap - len.length < s.length then len else len ++ s
  | .error _ => integer_written s.length 7 0x00 cap

/-- What is written of a field. -/
def field_written (name value : Bytes) (cap : Nat) : Bytes :=
  match lookup name value with
  | .ExactMatch idx => integer_written idx 7 0b10000000 cap
  | .NameMatch idx =>
    match encode_integer idx 4 0b00000000 cap with
    | .ok index => index ++ string_literal_written value (cap - index.length)
    | .error _ => integer_written idx 4 0b00000000 cap
  | .NotFound =>
    if cap = 0 then []
    else
      match encode_string_literal name (cap - 1) with
      | .ok name => 0x00 :: name ++ string_literal_written value (cap - 1 - name.length)
      | .error _ => 0x00 :: string_literal_written name (cap - 1)

/-- What is written of a block: the fields in front of the first that finds no room, and what is
written of that one. -/
def fields_written : List Header → Nat → Bytes
  | [], _ => []
  | (name, value) :: rest, cap =>
    match encode_field name value 0 cap with
    | .ok field => field ++ fields_written rest (cap - field.length)
    | .error _ => field_written name value cap

/-! ## The dynamic table -/

/-- The initial maximum size of the dynamic table. -/
def INITIAL_DYNAMIC_TABLE_SIZE : Nat := 4096

/-- Overhead of an entry. -/
def ENTRY_OVERHEAD : Nat := 32

/-- The decoder: its dynamic table with the newest entry in front, the size of it, and the
largest size it may have. -/
structure HpackDecoder where
  dynamic : List Header
  dynamic_size : Nat
  max_size : Nat
  deriving DecidableEq, Repr

namespace HpackDecoder

def new : HpackDecoder :=
  { dynamic := [], dynamic_size := 0, max_size := INITIAL_DYNAMIC_TABLE_SIZE }

/-- The field an index stands for, in the static and then in the dynamic table. -/
def table_lookup (d : HpackDecoder) (index : Nat) : Except Error Header :=
  if index = 0 then .error .InvalidState
  else
    match STATIC_TABLE[index - 1]? with
    | some entry => .ok (ascii entry.1, ascii entry.2)
    | none =>
      match d.dynamic[index - STATIC_TABLE.length - 1]? with
      | some entry => .ok entry
      | none => .error .InvalidState

/-- Drops the oldest entries until `room` bytes more fit, or none is left. -/
def evict (room : Nat) : Nat → HpackDecoder → HpackDecoder
  | 0, d => d
  | fuel + 1, d =>
    if d.dynamic_size + room > d.max_size then
      match d.dynamic.getLast? with
      | some (name, value) =>
        evict room fuel
          { d with
            dynamic := d.dynamic.dropLast
            dynamic_size := d.dynamic_size - (name.length + value.length + ENTRY_OVERHEAD) }
      | none => d
    else d

/-- Inserts an entry in front. One that is larger than the whole table empties it. -/
def dynamic_insert (name value : Bytes) (d : HpackDecoder) : HpackDecoder :=
  let entry_size := name.length + value.length + ENTRY_OVERHEAD
  let d := evict entry_size (d.dynamic.length + 1) d
  if d.dynamic_size + entry_size > d.max_size then d
  else { d with dynamic := (name, value) :: d.dynamic, dynamic_size := d.dynamic_size + entry_size }

/-- A dynamic table size update. -/
def resize (new_size : Nat) : Method HpackDecoder Error Unit := do
  Method.require (new_size ≤ INITIAL_DYNAMIC_TABLE_SIZE) .InvalidState
  Method.modify fun d => evict 0 (d.dynamic.length + 1) { d with max_size := new_size }

end HpackDecoder

/-! ## Decoding -/

/-- A string literal: whether it is Huffman-coded, its length, and the length of its header. -/
def parse_string_header (src : Bytes) : Except Error (Bool × Nat × Nat) :=
  match src with
  | [] => .error (.BufferTooSmall 1)
  | first :: _ => do
    let (length, len_consumed) ← decode_integer src 7
    if src.length - len_consumed < length then .error (.BufferTooSmall (len_consumed + length))
    else .ok (first &&& 0x80 != 0, length, len_consumed)

/-- The string at the front of `src`, and what is behind it. A coded string is decoded into
`cap` bytes; a raw one is taken as it is if `raw` says so, else it has to fit, too. -/
def parse_string (src : Bytes) (cap : Nat) (raw : Bool) : Except Error (Bytes × Bytes) := do
  let (is_huffman, len, len_consumed) ← parse_string_header src
  let bytes := (src.drop len_consumed).take len
  let rest := src.drop (len_consumed + len)
  if is_huffman then do
    let s ← huffman.decode bytes cap
    .ok (s, rest)
  else if raw = false ∧ len > cap then .error (.BufferTooSmall len)
  else .ok (bytes, rest)

/-- The name of a literal field: from a table, or a string of its own. -/
def parse_name (d : HpackDecoder) (name_index : Nat) (src : Bytes) : Except Error (Bytes × Bytes) :=
  if name_index > 0 then do
    let (name, _) ← d.table_lookup name_index
    if name.length > 256 then .error (.BufferTooSmall name.length) else .ok (name, src)
  else parse_string src 256 false

/-- A decoder at work, and the fields it has emitted. -/
structure Decoding where
  decoder : HpackDecoder
  emitted : List Header
  deriving DecidableEq, Repr

/-- Hands out a field. -/
def emit (field : Header) (s : Decoding) : Decoding := { s with emitted := s.emitted ++ [field] }

/-- Decodes a literal field behind its index. Returns what is behind the field. -/
def decode_literal_field (src : Bytes) (name_index : Nat) (index : Bool) :
    Method Decoding Error Bytes := do
  let s ← Method.get
  let (name, src) ← Method.lift (parse_name s.decoder name_index src)
  let (value, src) ← Method.lift (parse_string src 1024 true)
  if index then
    Method.modify fun s => { s with decoder := s.decoder.dynamic_insert name value }
  else pure ()
  Method.modify (emit (name, value))
  pure src

/-- Decodes the representation at the front of `src`. Returns what is behind it. -/
def decode_field (first : UInt8) (src : Bytes) : Method Decoding Error Bytes :=
  if first &&& 0b10000000 ≠ 0 then do
    let (index, consumed) ← Method.lift (decode_integer src 7)
    let s ← Method.get
    let field ← Method.lift (s.decoder.table_lookup index)
    Method.modify (emit field)
    pure (src.drop consumed)
  else if first &&& 0b11000000 = 0b01000000 then do
    let (name_index, consumed) ← Method.lift (decode_integer src 6)
    decode_literal_field (src.drop consumed) name_index true
  else if first &&& 0b11110000 = 0b00000000 then do
    let (name_index, consumed) ← Method.lift (decode_integer src 4)
    decode_literal_field (src.drop consumed) name_index false
  else if first &&& 0b11110000 = 0b00010000 then do
    let (name_index, consumed) ← Method.lift (decode_integer src 4)
    decode_literal_field (src.drop consumed) name_index false
  else do
    let (new_size, consumed) ← Method.lift (decode_integer src 5)
    Method.on Decoding.decoder (fun decoder s => { s with decoder }) (HpackDecoder.resize new_size)
    pure (src.drop consumed)

/-- The loop over a header block. Every representation takes at least a byte. -/
def decode_fields : Nat → Bytes → Method Decoding Error Unit
  | 0, _ => pure ()
  | fuel + 1, src =>
    match src with
    | [] => pure ()
    | first :: _ => do
      let src ← decode_field first src
      decode_fields fuel src

/-- `HpackDecoder::decode`: how it ends, the fields it emitted until then, and the decoder it
leaves. -/
def HpackDecoder.decode (src : Bytes) (d : HpackDecoder) :
    Except Error Unit × List Header × HpackDecoder :=
  match decode_fields src.length src { decoder := d, emitted := [] } with
  | (r, s) => (r, s.emitted, s.decoder)

end milli_http.hpack
