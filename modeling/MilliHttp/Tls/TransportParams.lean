-- QUIC transport parameters (RFC 9000 §18), as tls/transport_params.rs encodes and
-- decodes them.
import MilliHttp.Frame

open bytes method

namespace milli_http.tls

open varint frame

/-- QUIC transport parameters. The two connection ids are empty when not present. -/
structure TransportParams where
  max_idle_timeout : Nat
  max_udp_payload_size : Nat
  initial_max_data : Nat
  initial_max_stream_data_bidi_local : Nat
  initial_max_stream_data_bidi_remote : Nat
  initial_max_stream_data_uni : Nat
  initial_max_streams_bidi : Nat
  initial_max_streams_uni : Nat
  ack_delay_exponent : Nat
  max_ack_delay : Nat
  active_connection_id_limit : Nat
  original_dcid : Bytes
  initial_scid : Bytes
  deriving DecidableEq, Repr

namespace TransportParams

/-- Transport parameters with sensible defaults. -/
def default_params : TransportParams where
  max_idle_timeout := 30000
  max_udp_payload_size := 65527
  initial_max_data := 1048576
  initial_max_stream_data_bidi_local := 262144
  initial_max_stream_data_bidi_remote := 262144
  initial_max_stream_data_uni := 262144
  initial_max_streams_bidi := 100
  initial_max_streams_uni := 100
  ack_delay_exponent := 3
  max_ack_delay := 25
  active_connection_id_limit := 2
  original_dcid := []
  initial_scid := []

/-- What `decode` starts from. -/
def absent : TransportParams where
  max_idle_timeout := 0
  max_udp_payload_size := 65527
  initial_max_data := 0
  initial_max_stream_data_bidi_local := 0
  initial_max_stream_data_bidi_remote := 0
  initial_max_stream_data_uni := 0
  initial_max_streams_bidi := 0
  initial_max_streams_uni := 0
  ack_delay_exponent := 3
  max_ack_delay := 25
  active_connection_id_limit := 2
  original_dcid := []
  initial_scid := []

/-- One integer parameter: id, length and value. -/
def encode_param (cap id value : Nat) : Writer := do
  let out ← Method.get
  let val_len := varint_len value
  let needed := varint_len id + varint_len val_len + val_len
  if cap < out.length + needed then Method.fail (.BufferTooSmall (out.length + needed))
  else do
    write_varint cap id
    write_varint cap val_len
    write_varint cap value

/-- One raw-bytes parameter, as the connection ids are. -/
def encode_bytes_param (cap id : Nat) (data : Bytes) : Writer := do
  let out ← Method.get
  let needed := varint_len id + varint_len data.length + data.length
  if cap < out.length + needed then Method.fail (.BufferTooSmall (out.length + needed))
  else do
    write_varint cap id
    write_varint cap data.length
    write_bytes cap data

/-- Encodes the parameters into a buffer of `cap` bytes. -/
def encode (tp : TransportParams) (cap : Nat) : Except Error Bytes :=
  let write : Writer := do
    if tp.original_dcid.length > 0 then encode_bytes_param cap 0x00 tp.original_dcid else pure ()
    encode_param cap 0x01 tp.max_idle_timeout
    encode_param cap 0x03 tp.max_udp_payload_size
    encode_param cap 0x04 tp.initial_max_data
    encode_param cap 0x05 tp.initial_max_stream_data_bidi_local
    encode_param cap 0x06 tp.initial_max_stream_data_bidi_remote
    encode_param cap 0x07 tp.initial_max_stream_data_uni
    encode_param cap 0x08 tp.initial_max_streams_bidi
    encode_param cap 0x09 tp.initial_max_streams_uni
    encode_param cap 0x0a tp.ack_delay_exponent
    encode_param cap 0x0b tp.max_ack_delay
    encode_param cap 0x0e tp.active_connection_id_limit
    if tp.initial_scid.length > 0 then encode_bytes_param cap 0x0f tp.initial_scid else pure ()
  match write [] with
  | (.ok _, out) => .ok out
  | (.error e, _) => .error e

/-- Stores one decoded parameter. Unknown ids are ignored. -/
def set_param (params : TransportParams) (id : Nat) (data : Bytes) :
    Except Error TransportParams :=
  match id with
  | 0x00 => .ok { params with original_dcid := data.take 20 }
  | 0x0f => .ok { params with initial_scid := data.take 20 }
  | 0x01 => value fun v => { params with max_idle_timeout := v }
  | 0x03 => value fun v => { params with max_udp_payload_size := v }
  | 0x04 => value fun v => { params with initial_max_data := v }
  | 0x05 => value fun v => { params with initial_max_stream_data_bidi_local := v }
  | 0x06 => value fun v => { params with initial_max_stream_data_bidi_remote := v }
  | 0x07 => value fun v => { params with initial_max_stream_data_uni := v }
  | 0x08 => value fun v => { params with initial_max_streams_bidi := v }
  | 0x09 => value fun v => { params with initial_max_streams_uni := v }
  | 0x0a => value fun v => { params with ack_delay_exponent := v }
  | 0x0b => value fun v => { params with max_ack_delay := v }
  | 0x0e => value fun v => { params with active_connection_id_limit := v }
  | _ => .ok params
where
  value (store : Nat → TransportParams) : Except Error TransportParams := do
    let (v, _) ← decode_varint data
    pure (store v)

/-- The loop of `decode`: each item takes at least two bytes. -/
def decode_from : Nat → TransportParams → Bytes → Except Error TransportParams
  | 0, params, _ => .ok params
  | fuel + 1, params, buf =>
    if buf = [] then .ok params
    else do
      let (id, id_len) ← decode_varint buf
      let buf := buf.drop id_len
      let (param_len, len_len) ← decode_varint buf
      let buf := buf.drop len_len
      if buf.length < param_len then .error .Tls
      else do
        let params ← set_param params id (buf.take param_len)
        decode_from fuel params (buf.drop param_len)

/-- Decodes transport parameters. -/
def decode (buf : Bytes) : Except Error TransportParams := decode_from buf.length absent buf

end TransportParams

end milli_http.tls
