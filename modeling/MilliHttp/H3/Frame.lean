-- HTTP/3 frames (h3/frame.rs): a type, a length and a payload, each of them behind the other on
-- a QUIC stream. A frame that decodes from a buffer decodes the same with more bytes behind it.
import MilliHttp.Varint
import MilliHttp.H3.Qpack

open bytes

namespace milli_http.h3

open varint hpack

/-! ## Settings -/

/-- HTTP/3 settings. -/
structure H3Settings where
  max_field_section_size : Option Nat := none
  qpack_max_table_capacity : Option Nat := none
  qpack_blocked_streams : Option Nat := none
  deriving DecidableEq, Repr

def SETTINGS_MAX_FIELD_SECTION_SIZE : Nat := 0x06
def SETTINGS_QPACK_MAX_TABLE_CAPACITY : Nat := 0x01
def SETTINGS_QPACK_BLOCKED_STREAMS : Nat := 0x07

/-- Notes one setting. An identifier that is not known is ignored. -/
def H3Settings.set (settings : H3Settings) (id value : Nat) : H3Settings :=
  if id = SETTINGS_MAX_FIELD_SECTION_SIZE then { settings with max_field_section_size := some value }
  else if id = SETTINGS_QPACK_MAX_TABLE_CAPACITY then
    { settings with qpack_max_table_capacity := some value }
  else if id = SETTINGS_QPACK_BLOCKED_STREAMS then
    { settings with qpack_blocked_streams := some value }
  else settings

/-- The settings of a payload of at most so many pairs. -/
def read_settings : Nat → Bytes → H3Settings → Except Error H3Settings
  | 0, _, settings => .ok settings
  | fuel + 1, payload, settings =>
    if payload = [] then .ok settings
    else do
      let (id, id_len) ← (decode_varint payload).mapError fun _ => .Http3 .SettingsError
      let payload := payload.drop id_len
      let (value, val_len) ← (decode_varint payload).mapError fun _ => .Http3 .SettingsError
      read_settings fuel (payload.drop val_len) (settings.set id value)

/-- Decodes the payload of a SETTINGS frame. -/
def decode_settings (payload : Bytes) : Except Error H3Settings :=
  read_settings payload.length payload {}

/-! ## Decoding -/

def H3_FRAME_DATA : Nat := 0x00
def H3_FRAME_HEADERS : Nat := 0x01
def H3_FRAME_CANCEL_PUSH : Nat := 0x03
def H3_FRAME_SETTINGS : Nat := 0x04
def H3_FRAME_PUSH_PROMISE : Nat := 0x05
def H3_FRAME_GOAWAY : Nat := 0x07
def H3_FRAME_MAX_PUSH_ID : Nat := 0x0d

/-- An HTTP/3 frame. -/
inductive H3Frame where
  | Data (payload : Bytes)
  | Headers (payload : Bytes)
  | CancelPush (push_id : Nat)
  | Settings (settings : H3Settings)
  | PushPromise (push_id : Nat) (header_block : Bytes)
  | GoAway (stream_id : Nat)
  | MaxPushId (push_id : Nat)
  | Unknown (frame_type : Nat)
  deriving DecidableEq, Repr

/-- A payload that has to be one varint. -/
def decode_id (payload : Bytes) : Except Error Nat := do
  let (id, id_len) ← (decode_varint payload).mapError fun _ => .Http3 .FrameError
  if id_len ≠ payload.length then .error (.Http3 .FrameError) else .ok id

/-- Decodes a payload by the type of its frame. -/
def decode_payload (frame_type : Nat) (payload : Bytes) : Except Error H3Frame :=
  if frame_type = H3_FRAME_DATA then .ok (.Data payload)
  else if frame_type = H3_FRAME_HEADERS then .ok (.Headers payload)
  else if frame_type = H3_FRAME_CANCEL_PUSH then (decode_id payload).map .CancelPush
  else if frame_type = H3_FRAME_SETTINGS then (decode_settings payload).map .Settings
  else if frame_type = H3_FRAME_PUSH_PROMISE then do
    let (push_id, id_len) ← (decode_varint payload).mapError fun _ => .Http3 .FrameError
    .ok (.PushPromise push_id (payload.drop id_len))
  else if frame_type = H3_FRAME_GOAWAY then (decode_id payload).map .GoAway
  else if frame_type = H3_FRAME_MAX_PUSH_ID then (decode_id payload).map .MaxPushId
  -- Unknown and reserved types are skipped over.
  else .ok (.Unknown frame_type)

/-- Decodes the frame at the front of a buffer, and how many bytes it took. -/
def decode_h3_frame (buf : Bytes) : Except Error (H3Frame × Nat) := do
  let (frame_type, type_len) ← decode_varint buf
  let (payload_len, len_len) ← decode_varint (buf.drop type_len)
  let header_len := type_len + len_len
  let rest := buf.drop header_len
  if rest.length < payload_len then .error (.BufferTooSmall (header_len + payload_len))
  else do
    let frame ← decode_payload frame_type (rest.take payload_len)
    .ok (frame, header_len + payload_len)

/-- The frames at the front of some data, at most so many, and the bytes behind them. The first
frame that does not decode ends them. -/
def frames_upto : Nat → Bytes → List H3Frame × Bytes
  | 0, data => ([], data)
  | fuel + 1, data =>
    match decode_h3_frame data with
    | .error _ => ([], data)
    | .ok (frame, consumed) =>
      let (frames, rest) := frames_upto fuel (data.drop consumed)
      (frame :: frames, rest)

/-- `while offset < data.len()`: the frames some data starts with, and the bytes behind them. -/
def decode_frames (data : Bytes) : List H3Frame × Bytes := frames_upto data.length data

/-! ## Encoding -/

/-- The header of a DATA frame whose payload follows it on the stream, into `cap` bytes. -/
def encode_data_frame_header (payload_len cap : Nat) : Except Error Bytes := do
  let needed := varint_len H3_FRAME_DATA + varint_len payload_len
  if cap < needed then .error (.BufferTooSmall needed)
  else do
    let frame_type ← encode_varint H3_FRAME_DATA cap
    let len ← encode_varint payload_len (cap - frame_type.length)
    .ok (frame_type ++ len)

/-- A frame whose payload is a byte string, into `cap` bytes. -/
def encode_simple_frame (frame_type : Nat) (payload : Bytes) (cap : Nat) : Except Error Bytes := do
  let needed := varint_len frame_type + varint_len payload.length + payload.length
  if cap < needed then .error (.BufferTooSmall needed)
  else do
    let frame_type ← encode_varint frame_type cap
    let len ← encode_varint payload.length (cap - frame_type.length)
    .ok (frame_type ++ len ++ payload)

/-- A setting that is present, behind the first `offset` bytes of a buffer of `cap`. -/
def encode_setting (id : Nat) (value : Option Nat) (offset cap : Nat) : Except Error Bytes :=
  match value with
  | none => .ok []
  | some v => do
    let id ← encode_varint id (cap - offset)
    let value ← encode_varint v (cap - offset - id.length)
    .ok (id ++ value)

/-- The bytes of the pairs a SETTINGS frame holds. -/
def settings_payload_len (settings : H3Settings) : Nat :=
  let pair (id : Nat) (value : Option Nat) :=
    match value with
    | none => 0
    | some v => varint_len id + varint_len v
  pair SETTINGS_MAX_FIELD_SECTION_SIZE settings.max_field_section_size +
    pair SETTINGS_QPACK_MAX_TABLE_CAPACITY settings.qpack_max_table_capacity +
    pair SETTINGS_QPACK_BLOCKED_STREAMS settings.qpack_blocked_streams

/-- A SETTINGS frame, into `cap` bytes. -/
def encode_settings_frame (settings : H3Settings) (cap : Nat) : Except Error Bytes := do
  let payload_len := settings_payload_len settings
  let needed := varint_len H3_FRAME_SETTINGS + varint_len payload_len + payload_len
  if cap < needed then .error (.BufferTooSmall needed)
  else do
    let frame_type ← encode_varint H3_FRAME_SETTINGS cap
    let len ← encode_varint payload_len (cap - frame_type.length)
    let head := frame_type ++ len
    let size ← encode_setting SETTINGS_MAX_FIELD_SECTION_SIZE settings.max_field_section_size
      head.length cap
    let table ← encode_setting SETTINGS_QPACK_MAX_TABLE_CAPACITY settings.qpack_max_table_capacity
      (head ++ size).length cap
    let blocked ← encode_setting SETTINGS_QPACK_BLOCKED_STREAMS settings.qpack_blocked_streams
      (head ++ size ++ table).length cap
    .ok (head ++ size ++ table ++ blocked)

/-! ## QPACK encoding -/

namespace qpack

/-- Looks up a field in the static table: the first exact match, else the first entry of that
name. -/
def lookup (name value : Bytes) : LookupResult :=
  match STATIC_TABLE.findIdx? fun e => ascii e.1 == name && ascii e.2 == value with
  | some i => .ExactMatch i
  | none =>
    match STATIC_TABLE.findIdx? fun e => ascii e.1 == name with
    | some i => .NameMatch i
    | none => .NotFound

/-- A string behind its length, which has a prefix of `prefix_bits` bits. `written` bytes stand
before it. -/
def encode_string (s : Bytes) (prefix_bits : Nat) (first_byte_mask : UInt8) (written cap : Nat) :
    Except Error Bytes := do
  let len ← encode_integer s.length prefix_bits first_byte_mask (cap - written)
  if cap - (written + len.length) < s.length then
    .error (.BufferTooSmall (written + len.length + s.length))
  else .ok (len ++ s)

/-- A field line, into `cap` bytes: an index of the static table, a literal with the name of an
entry, or a literal with its own name. -/
def encode_field_line (name value : Bytes) (cap : Nat) : Except Error Bytes :=
  match lookup name value with
  | .ExactMatch idx => encode_integer idx 6 0b11000000 cap
  | .NameMatch idx => do
    let index ← encode_integer idx 4 0b01110000 cap
    let value ← encode_string value 7 0x00 index.length cap
    .ok (index ++ value)
  | .NotFound => do
    let name ← encode_string name 3 0b00100000 0 cap
    let value ← encode_string value 7 0x00 name.length cap
    .ok (name ++ value)

/-- The field lines of a section, one behind the other. -/
def encode_field_lines : List (Bytes × Bytes) → Nat → Except Error Bytes
  | [], _ => .ok []
  | (name, value) :: rest, cap => do
    let line ← encode_field_line name value cap
    let lines ← encode_field_lines rest (cap - line.length)
    .ok (line ++ lines)

/-- Encodes a field section into `cap` bytes: a Required Insert Count and a Delta Base of 0, and
the field lines. -/
def encode_field_section (headers : List (Bytes × Bytes)) (cap : Nat) : Except Error Bytes := do
  let ric ← (encode_integer 0 8 0x00 cap).mapError fun _ => .BufferTooSmall 1
  let base ← (encode_integer 0 7 0x00 (cap - ric.length)).mapError fun _ =>
    .BufferTooSmall (ric.length + 1)
  let lines ← encode_field_lines headers (cap - ric.length - base.length)
  .ok (ric ++ base ++ lines)

end qpack

/-! ## More bytes behind -/

theorem decode_h3_frame_eq_ok {buf : Bytes} {frame : H3Frame} {consumed : Nat} :
    decode_h3_frame buf = .ok (frame, consumed) ↔
      ∃ frame_type type_len payload_len len_len,
        decode_varint buf = .ok (frame_type, type_len) ∧
        decode_varint (buf.drop type_len) = .ok (payload_len, len_len) ∧
        payload_len ≤ (buf.drop (type_len + len_len)).length ∧
        decode_payload frame_type ((buf.drop (type_len + len_len)).take payload_len) = .ok frame ∧
        consumed = type_len + len_len + payload_len := by
  constructor
  · intro h
    obtain ⟨⟨frame_type, type_len⟩, htype, h⟩ := except_bind_eq_ok h
    obtain ⟨⟨payload_len, len_len⟩, hlen, h⟩ := except_bind_eq_ok h
    dsimp only at h hlen
    split at h
    · cases h
    · rename_i hfits
      obtain ⟨f, hf, h⟩ := except_bind_eq_ok h
      cases h
      exact ⟨_, _, _, _, htype, hlen, by omega, hf, rfl⟩
  · rintro ⟨frame_type, type_len, payload_len, len_len, htype, hlen, hfits, hf, rfl⟩
    simp only [decode_h3_frame, htype, hlen, hf, bind, Except.bind, if_neg (Nat.not_lt.mpr hfits)]

theorem decode_h3_frame_consumed {buf : Bytes} {frame : H3Frame} {consumed : Nat}
    (h : decode_h3_frame buf = .ok (frame, consumed)) : 0 < consumed ∧ consumed ≤ buf.length := by
  obtain ⟨_, type_len, _, len_len, htype, hlen, hfits, -, rfl⟩ := decode_h3_frame_eq_ok.mp h
  have htype' := decode_varint_consumed htype
  have hlen' := decode_varint_consumed hlen
  rw [List.length_drop] at hfits hlen'
  omega

theorem decode_h3_frame_append {buf : Bytes} {frame : H3Frame} {consumed : Nat}
    (h : decode_h3_frame buf = .ok (frame, consumed)) (more : Bytes) :
    decode_h3_frame (buf ++ more) = .ok (frame, consumed) := by
  obtain ⟨frame_type, type_len, payload_len, len_len, htype, hlen, hfits, hf, hconsumed⟩ :=
    decode_h3_frame_eq_ok.mp h
  have htype' := (decode_varint_consumed htype).2
  have hlen' := (decode_varint_consumed hlen).2
  rw [List.length_drop] at hlen'
  refine decode_h3_frame_eq_ok.mpr ⟨frame_type, type_len, payload_len, len_len,
    decode_varint_append htype more, ?_, ?_, ?_, hconsumed⟩
  · rw [List.drop_append_of_le_length htype']
    exact decode_varint_append hlen more
  · rw [List.drop_append_of_le_length (by omega), List.length_append]
    omega
  · rw [List.drop_append_of_le_length (by omega), List.take_append_of_le_length hfits]
    exact hf

/-! ## Frames cut into pieces -/

theorem frames_upto_of_le {data : Bytes} {fuel : Nat} (h : data.length ≤ fuel) :
    frames_upto fuel data = decode_frames data := by
  suffices H : ∀ n m (data : Bytes), data.length ≤ n → data.length ≤ m →
      frames_upto n data = frames_upto m data from H _ _ data h (Nat.le_refl _)
  have hempty : ∀ n, frames_upto n [] = ([], []) := fun n => by cases n <;> rfl
  intro n
  induction n with
  | zero =>
    intro m data hn _
    rw [List.eq_nil_of_length_eq_zero (Nat.le_zero.mp hn), hempty, hempty]
  | succ n ih =>
    intro m data hn hm
    cases m with
    | zero => rw [List.eq_nil_of_length_eq_zero (Nat.le_zero.mp hm), hempty, hempty]
    | succ m =>
      cases hd : decode_h3_frame data with
      | error e => simp only [frames_upto, hd]
      | ok r =>
        have hconsumed := decode_h3_frame_consumed hd
        simp only [frames_upto, hd]
        rw [ih m (data.drop r.2) (by rw [List.length_drop]; omega)
          (by rw [List.length_drop]; omega)]

@[simp] theorem decode_frames_nil : decode_frames [] = ([], []) := rfl

theorem decode_frames_of_error {data : Bytes} {e : Error} (h : decode_h3_frame data = .error e) :
    decode_frames data = ([], data) := by
  rw [← frames_upto_of_le (Nat.le_succ _), frames_upto, h]

theorem decode_frames_of_ok {data : Bytes} {frame : H3Frame} {consumed : Nat}
    (h : decode_h3_frame data = .ok (frame, consumed)) :
    decode_frames data =
      (frame :: (decode_frames (data.drop consumed)).1, (decode_frames (data.drop consumed)).2) := by
  have hconsumed := decode_h3_frame_consumed h
  rw [← frames_upto_of_le (Nat.le_succ data.length), frames_upto, h]
  dsimp only
  rw [frames_upto_of_le (by rw [List.length_drop]; omega)]

/-- The frames of two pieces are those of the first, and those of what it left with the
second. -/
theorem decode_frames_append (a b : Bytes) :
    decode_frames (a ++ b) =
      ((decode_frames a).1 ++ (decode_frames ((decode_frames a).2 ++ b)).1,
        (decode_frames ((decode_frames a).2 ++ b)).2) := by
  induction hn : a.length using Nat.strongRecOn generalizing a with
  | ind n ih =>
    cases hd : decode_h3_frame a with
    | error e => rw [decode_frames_of_error hd, List.nil_append]
    | ok r =>
      have hconsumed := decode_h3_frame_consumed hd
      rw [decode_frames_of_ok (decode_h3_frame_append hd b), decode_frames_of_ok hd,
        List.drop_append_of_le_length hconsumed.2,
        ih _ (by rw [List.length_drop]; omega) (a.drop r.2) rfl, List.cons_append]

end milli_http.h3
