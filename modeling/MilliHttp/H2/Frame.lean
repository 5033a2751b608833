-- HTTP/2 frames (h2/frame.rs): the header every frame has, and the frames a connection writes.
import MilliHttp.Lib.Bytes
import MilliHttp.Error

open bytes

namespace milli_http.h2

/-! ## Frame headers -/

inductive FrameType where
  | Data
  | Headers
  | Priority
  | RstStream
  | Settings
  | PushPromise
  | Ping
  | GoAway
  | WindowUpdate
  | Continuation
  | Unknown (byte : UInt8)
  deriving DecidableEq, Repr

namespace FrameType

def of_byte : UInt8 → FrameType
  | 0x0 => .Data
  | 0x1 => .Headers
  | 0x2 => .Priority
  | 0x3 => .RstStream
  | 0x4 => .Settings
  | 0x5 => .PushPromise
  | 0x6 => .Ping
  | 0x7 => .GoAway
  | 0x8 => .WindowUpdate
  | 0x9 => .Continuation
  | byte => .Unknown byte

def to_byte : FrameType → UInt8
  | .Data => 0x0
  | .Headers => 0x1
  | .Priority => 0x2
  | .RstStream => 0x3
  | .Settings => 0x4
  | .PushPromise => 0x5
  | .Ping => 0x6
  | .GoAway => 0x7
  | .WindowUpdate => 0x8
  | .Continuation => 0x9
  | .Unknown byte => byte

end FrameType

def FLAG_ACK : UInt8 := 0x1
def FLAG_END_STREAM : UInt8 := 0x1
def FLAG_END_HEADERS : UInt8 := 0x4
def FLAG_PADDED : UInt8 := 0x8
def FLAG_PRIORITY : UInt8 := 0x20

structure H2FrameHeader where
  length : Nat
  frame_type : FrameType
  flags : UInt8
  stream_id : Nat
  deriving DecidableEq, Repr

namespace H2FrameHeader

/-- Whether a flag is set. -/
def has (hdr : H2FrameHeader) (flag : UInt8) : Bool := hdr.flags &&& flag != 0

end H2FrameHeader

/-- Decodes the header at the front of a buffer of at least nine bytes. The top bit of the
stream identifier is reserved. -/
def decode_frame_header (buf : Bytes) : H2FrameHeader where
  length := beNat (buf.take 3)
  frame_type := .of_byte (buf.getD 3 0)
  flags := buf.getD 4 0
  stream_id := beNat ((buf.drop 5).take 4) % 2 ^ 31

/-- Encodes a header. -/
def encode_frame_header (hdr : H2FrameHeader) : Except Error Bytes :=
  if hdr.stream_id > 0x7fffffff then .error .InvalidState
  else .ok (toBe 3 hdr.length ++ [hdr.frame_type.to_byte, hdr.flags] ++ toBe 4 hdr.stream_id)

/-! ## Frames a connection writes -/

inductive H2Frame where
  | Data (stream_id : Nat) (payload : Bytes) (end_stream : Bool)
  | Headers (stream_id : Nat) (fragment : Bytes) (end_stream : Bool)
  | RstStream (stream_id error_code : Nat)
  | Settings (ack : Bool) (params : Bytes)
  | Ping (data : Bytes) (ack : Bool)
  | GoAway (last_stream_id error_code : Nat)
  | WindowUpdate (stream_id increment : Nat)
  deriving DecidableEq, Repr

namespace H2Frame

/-- The header and the payload of a frame. A HEADERS frame is always the whole block. -/
def parts : H2Frame → H2FrameHeader × Bytes
  | .Data stream_id payload end_stream =>
    ({ length := payload.length, frame_type := .Data, stream_id
       flags := if end_stream then FLAG_END_STREAM else 0 }, payload)
  | .Headers stream_id fragment end_stream =>
    ({ length := fragment.length, frame_type := .Headers, stream_id
       flags := (if end_stream then FLAG_END_STREAM else 0) ||| FLAG_END_HEADERS }, fragment)
  | .RstStream stream_id error_code =>
    ({ length := 4, frame_type := .RstStream, stream_id, flags := 0 }, toBe 4 error_code)
  | .Settings ack params =>
    ({ length := params.length, frame_type := .Settings, stream_id := 0
       flags := if ack then FLAG_ACK else 0 }, params)
  | .Ping data ack =>
    ({ length := 8, frame_type := .Ping, stream_id := 0, flags := if ack then FLAG_ACK else 0 }, data)
  | .GoAway last_stream_id error_code =>
    ({ length := 8, frame_type := .GoAway, stream_id := 0, flags := 0 },
      toBe 4 (last_stream_id % 2 ^ 31) ++ toBe 4 error_code)
  | .WindowUpdate stream_id increment =>
    ({ length := 4, frame_type := .WindowUpdate, stream_id, flags := 0 },
      toBe 4 (increment % 2 ^ 31))

end H2Frame

/-- Encodes a frame into a buffer of `cap` bytes. -/
def encode_frame (frame : H2Frame) (cap : Nat) : Except Error Bytes :=
  let (hdr, payload) := frame.parts
  if cap < 9 + payload.length then .error (.BufferTooSmall (9 + payload.length))
  else do
    let header ← encode_frame_header hdr
    .ok (header ++ payload)

/-! ## SETTINGS parameters -/

/-- A single parameter: its identifier and its value. -/
def encode_setting (id value : Nat) : Bytes := toBe 2 id ++ toBe 4 value

/-- The parameters of a SETTINGS payload, six bytes each. -/
def settings_params : Nat → Bytes → List (Nat × Nat)
  | 0, _ => []
  | fuel + 1, payload =>
    if payload.length < 6 then []
    else (beNat (payload.take 2), beNat ((payload.drop 2).take 4)) ::
      settings_params fuel (payload.drop 6)

/-- Whether a padded payload is well formed: the bytes between the pad length and the padding. -/
def strip_padding (payload : Bytes) (padded : Bool) : Except Error Bytes :=
  if padded then
    match payload with
    | [] => .error (.BufferTooSmall 1)
    | pad_len :: rest =>
      if pad_len.toNat ≥ payload.length then .error .InvalidState
      else .ok (rest.take (rest.length - pad_len.toNat))
  else .ok payload

end milli_http.h2
