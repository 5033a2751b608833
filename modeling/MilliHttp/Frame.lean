-- The QUIC frame codec (RFC 9000 §12.4 and §19), as frame/mod.rs reads and writes it.
-- A reader is a method on the bytes still to be read, a writer one on the bytes
-- already written into a buffer of fixed capacity.
import MilliHttp.Lib.Method
import MilliHttp.Varint

open bytes method

namespace milli_http.frame

open varint

/-! ## Frames -/

structure EcnCounts where
  ect0 : Nat
  ect1 : Nat
  ecn_ce : Nat
  deriving DecidableEq, Repr

structure AckFrame where
  largest_ack : Nat
  ack_delay : Nat
  first_ack_range : Nat
  /-- The remaining ranges as raw bytes: pairs of gap and range varints. -/
  ack_ranges : Bytes
  ecn : Option EcnCounts
  deriving DecidableEq, Repr

structure ResetStreamFrame where
  stream_id : Nat
  error_code : Nat
  final_size : Nat
  deriving DecidableEq, Repr

structure StopSendingFrame where
  stream_id : Nat
  error_code : Nat
  deriving DecidableEq, Repr

structure CryptoFrame where
  offset : Nat
  data : Bytes
  deriving DecidableEq, Repr

structure StreamFrame where
  stream_id : Nat
  offset : Nat
  data : Bytes
  fin : Bool
  deriving DecidableEq, Repr

structure MaxStreamDataFrame where
  stream_id : Nat
  max_data : Nat
  deriving DecidableEq, Repr

structure MaxStreamsFrame where
  bidirectional : Bool
  max_streams : Nat
  deriving DecidableEq, Repr

structure StreamDataBlockedFrame where
  stream_id : Nat
  data_limit : Nat
  deriving DecidableEq, Repr

structure StreamsBlockedFrame where
  bidirectional : Bool
  max_streams : Nat
  deriving DecidableEq, Repr

structure NewConnectionIdFrame where
  sequence_number : Nat
  retire_prior_to : Nat
  connection_id : Bytes
  stateless_reset_token : Bytes
  deriving DecidableEq, Repr

structure ConnectionCloseFrame where
  is_application : Bool
  error_code : Nat
  frame_type : Nat
  reason : Bytes
  deriving DecidableEq, Repr

/-- The twenty frame kinds. -/
inductive Frame where
  | Padding
  | Ping
  | Ack (ack : AckFrame)
  | ResetStream (rst : ResetStreamFrame)
  | StopSending (ss : StopSendingFrame)
  | Crypto (crypto : CryptoFrame)
  | NewToken (token : Bytes)
  | Stream (stream : StreamFrame)
  | MaxData (max_data : Nat)
  | MaxStreamData (msd : MaxStreamDataFrame)
  | MaxStreams (ms : MaxStreamsFrame)
  | DataBlocked (limit : Nat)
  | StreamDataBlocked (sdb : StreamDataBlockedFrame)
  | StreamsBlocked (sb : StreamsBlockedFrame)
  | NewConnectionId (ncid : NewConnectionIdFrame)
  | RetireConnectionId (seq : Nat)
  | PathChallenge (data : Bytes)
  | PathResponse (data : Bytes)
  | ConnectionClose (cc : ConnectionCloseFrame)
  | HandshakeDone
  deriving DecidableEq, Repr

/-! ## Reading -/

/-- Frame-encoding error for malformed wire data. -/
def frame_encoding_error : Error := .Transport .FrameEncodingError

/-- A reader: a method on the bytes still to be read. -/
abbrev Reader (α : Type) := Method Bytes Error α

/-- Reads a varint. -/
def read_varint : Reader Nat := fun buf =>
  match decode_varint buf with
  | .ok (value, n) => (.ok value, buf.drop n)
  | .error _ => (.error frame_encoding_error, buf)

/-- Reads exactly `len` bytes. -/
def read_bytes (len : Nat) : Reader Bytes := fun buf =>
  if buf.length < len then (.error frame_encoding_error, buf)
  else (.ok (buf.take len), buf.drop len)

/-- Reads all that is left. -/
def read_rest : Reader Bytes := fun buf => (.ok buf, [])

/-- Skips `count` pairs of varints. -/
def skip_pairs : Nat → Reader Unit
  | 0 => pure ()
  | count + 1 => do
    let _ ← read_varint
    let _ ← read_varint
    skip_pairs count

/-- The raw bytes of `count` pairs of varints. -/
def read_pairs (count : Nat) : Reader Bytes := do
  let start ← Method.get
  skip_pairs count
  let rest ← Method.get
  pure (start.take (start.length - rest.length))

/-- Reads the frame that follows its type. -/
def read_frame (frame_type : Nat) : Reader Frame :=
  match frame_type with
  | 0x00 => pure .Padding
  | 0x01 => pure .Ping
  | 0x02 => read_ack false
  | 0x03 => read_ack true
  | 0x04 => do
    let stream_id ← read_varint
    let error_code ← read_varint
    let final_size ← read_varint
    pure (.ResetStream { stream_id, error_code, final_size })
  | 0x05 => do
    let stream_id ← read_varint
    let error_code ← read_varint
    pure (.StopSending { stream_id, error_code })
  | 0x06 => do
    let offset ← read_varint
    let length ← read_varint
    let data ← read_bytes length
    pure (.Crypto { offset, data })
  | 0x07 => do
    let length ← read_varint
    let token ← read_bytes length
    pure (.NewToken token)
  | 0x08 => read_stream false false false
  | 0x09 => read_stream false false true
  | 0x0a => read_stream false true false
  | 0x0b => read_stream false true true
  | 0x0c => read_stream true false false
  | 0x0d => read_stream true false true
  | 0x0e => read_stream true true false
  | 0x0f => read_stream true true true
  | 0x10 => do
    let max_data ← read_varint
    pure (.MaxData max_data)
  | 0x11 => do
    let stream_id ← read_varint
    let max_data ← read_varint
    pure (.MaxStreamData { stream_id, max_data })
  | 0x12 => do
    let max_streams ← read_varint
    pure (.MaxStreams { bidirectional := true, max_streams })
  | 0x13 => do
    let max_streams ← read_varint
    pure (.MaxStreams { bidirectional := false, max_streams })
  | 0x14 => do
    let limit ← read_varint
    pure (.DataBlocked limit)
  | 0x15 => do
    let stream_id ← read_varint
    let data_limit ← read_varint
    pure (.StreamDataBlocked { stream_id, data_limit })
  | 0x16 => do
    let max_streams ← read_varint
    pure (.StreamsBlocked { bidirectional := true, max_streams })
  | 0x17 => do
    let max_streams ← read_varint
    pure (.StreamsBlocked { bidirectional := false, max_streams })
  | 0x18 => do
    let sequence_number ← read_varint
    let retire_prior_to ← read_varint
    let cid_len ← read_varint
    if cid_len > 20 then Method.fail frame_encoding_error
    else do
      let connection_id ← read_bytes cid_len
      let stateless_reset_token ← read_bytes 16
      pure (.NewConnectionId
        { sequence_number, retire_prior_to, connection_id, stateless_reset_token })
  | 0x19 => do
    let seq ← read_varint
    pure (.RetireConnectionId seq)
  | 0x1a => do
    let data ← read_bytes 8
    pure (.PathChallenge data)
  | 0x1b => do
    let data ← read_bytes 8
    pure (.PathResponse data)
  | 0x1c => do
    let error_code ← read_varint
    let frame_type ← read_varint
    let reason_len ← read_varint
    let reason ← read_bytes reason_len
    pure (.ConnectionClose { is_application := false, error_code, frame_type, reason })
  | 0x1d => do
    let error_code ← read_varint
    let reason_len ← read_varint
    let reason ← read_bytes reason_len
    pure (.ConnectionClose { is_application := true, error_code, frame_type := 0, reason })
  | 0x1e => pure .HandshakeDone
  | _ => Method.fail frame_encoding_error
where
  /-- ACK: the type says whether ECN counts follow. -/
  read_ack (has_ecn : Bool) : Reader Frame := do
    let largest_ack ← read_varint
    let ack_delay ← read_varint
    let ack_range_count ← read_varint
    let first_ack_range ← read_varint
    let ack_ranges ← read_pairs ack_range_count
    let ecn ← if has_ecn then read_ecn else pure none
    pure (.Ack { largest_ack, ack_delay, first_ack_range, ack_ranges, ecn })
  read_ecn : Reader (Option EcnCounts) := do
    let ect0 ← read_varint
    let ect1 ← read_varint
    let ecn_ce ← read_varint
    pure (some { ect0, ect1, ecn_ce })
  /-- STREAM: the type says which fields follow. -/
  read_stream (has_offset has_length fin : Bool) : Reader Frame := do
    let stream_id ← read_varint
    let offset ← if has_offset then read_varint else pure 0
    let data ← if has_length then read_varint >>= read_bytes else read_rest
    pure (.Stream { stream_id, offset, data, fin })

/-- Decodes one frame from the front of `buf`: the frame and the bytes it took. -/
def decode (buf : Bytes) : Except Error (Frame × Nat) :=
  match (do let frame_type ← read_varint; read_frame frame_type : Reader Frame) buf with
  | (.ok frame, rest) => .ok (frame, buf.length - rest.length)
  | (.error e, _) => .error e

/-- The pairs of gap and range `AckRangeIter` reads off the raw ranges of an ACK. -/
def ack_range_pairs : Nat → Bytes → Except Error (List (Nat × Nat))
  | 0, _ => .ok []
  | fuel + 1, buf =>
    if buf = [] then .ok []
    else do
      let (gap, n₁) ← decode_varint buf
      let (ack_range, n₂) ← decode_varint (buf.drop n₁)
      let pairs ← ack_range_pairs fuel (buf.drop (n₁ + n₂))
      pure ((gap, ack_range) :: pairs)

/-! ## Writing -/

/-- A writer: a method on the bytes already written. -/
abbrev Writer := Method Bytes Error Unit

/-- Appends a varint to a buffer of `cap` bytes. -/
def write_varint (cap value : Nat) : Writer := fun out =>
  match encode_varint value (cap - out.length) with
  | .ok b => (.ok (), out ++ b)
  | .error e => (.error e, out)

/-- Appends raw bytes to a buffer of `cap` bytes. -/
def write_bytes (cap : Nat) (data : Bytes) : Writer := fun out =>
  if cap - out.length < data.length then (.error (.BufferTooSmall (out.length + data.length)), out)
  else (.ok (), out ++ data)

/-- How many pairs of varints the raw ranges of an ACK hold, one pair a step. -/
def count_pairs : Nat → Bytes → Except Error Nat
  | 0, _ => .ok 0
  | fuel + 1, tmp =>
    if tmp = [] then .ok 0
    else
      match (do let _ ← read_varint; let _ ← read_varint : Reader Unit) tmp with
      | (.ok _, rest) => do
        let n ← count_pairs fuel rest
        pure (n + 1)
      | (.error e, _) => .error e

/-- Writes a frame into a buffer of `cap` bytes. -/
def write_frame (cap : Nat) : Frame → Writer
  | .Padding => write_bytes cap [0x00]
  | .Ping => write_varint cap 0x01
  | .Ack ack => do
    write_varint cap (if ack.ecn.isSome then 0x03 else 0x02)
    write_varint cap ack.largest_ack
    write_varint cap ack.ack_delay
    let count ← Method.lift (count_pairs ack.ack_ranges.length ack.ack_ranges)
    write_varint cap count
    write_varint cap ack.first_ack_range
    write_bytes cap ack.ack_ranges
    match ack.ecn with
    | none => pure ()
    | some ecn => do
      write_varint cap ecn.ect0
      write_varint cap ecn.ect1
      write_varint cap ecn.ecn_ce
  | .ResetStream f => do
    write_varint cap 0x04
    write_varint cap f.stream_id
    write_varint cap f.error_code
    write_varint cap f.final_size
  | .StopSending f => do
    write_varint cap 0x05
    write_varint cap f.stream_id
    write_varint cap f.error_code
  | .Crypto f => do
    write_varint cap 0x06
    write_varint cap f.offset
    write_varint cap f.data.length
    write_bytes cap f.data
  | .NewToken token => do
    write_varint cap 0x07
    write_varint cap token.length
    write_bytes cap token
  | .Stream f => do
    write_varint cap (0x08 + 0x02 + (if f.offset > 0 then 0x04 else 0) + (if f.fin then 0x01 else 0))
    write_varint cap f.stream_id
    if f.offset > 0 then write_varint cap f.offset else pure ()
    write_varint cap f.data.length
    write_bytes cap f.data
  | .MaxData v => do
    write_varint cap 0x10
    write_varint cap v
  | .MaxStreamData f => do
    write_varint cap 0x11
    write_varint cap f.stream_id
    write_varint cap f.max_data
  | .MaxStreams f => do
    write_varint cap (if f.bidirectional then 0x12 else 0x13)
    write_varint cap f.max_streams
  | .DataBlocked v => do
    write_varint cap 0x14
    write_varint cap v
  | .StreamDataBlocked f => do
    write_varint cap 0x15
    write_varint cap f.stream_id
    write_varint cap f.data_limit
  | .StreamsBlocked f => do
    write_varint cap (if f.bidirectional then 0x16 else 0x17)
    write_varint cap f.max_streams
  | .NewConnectionId f => do
    write_varint cap 0x18
    write_varint cap f.sequence_number
    write_varint cap f.retire_prior_to
    write_varint cap f.connection_id.length
    write_bytes cap f.connection_id
    write_bytes cap f.stateless_reset_token
  | .RetireConnectionId seq => do
    write_varint cap 0x19
    write_varint cap seq
  | .PathChallenge data => do
    write_varint cap 0x1a
    write_bytes cap data
  | .PathResponse data => do
    write_varint cap 0x1b
    write_bytes cap data
  | .ConnectionClose f => do
    write_varint cap (if f.is_application then 0x1d else 0x1c)
    write_varint cap f.error_code
    if f.is_application then pure () else write_varint cap f.frame_type
    write_varint cap f.reason.length
    write_bytes cap f.reason
  | .HandshakeDone => write_varint cap 0x1e

/-- Encodes one frame into a buffer of `cap` bytes. -/
def encode (frame : Frame) (cap : Nat) : Except Error Bytes :=
  match write_frame cap frame [] with
  | (.ok _, out) => .ok out
  | (.error e, _) => .error e

/-! ## Lengths -/

/-- A writer that succeeds adds at least so many bytes. -/
def Adds {α : Type} (n : Nat) (w : Method Bytes Error α) : Prop :=
  ∀ out a out', w out = (.ok a, out') → out.length + n ≤ out'.length

theorem Adds.zero {α : Type} {n : Nat} {w : Method Bytes Error α} (h : Adds n w) : Adds 0 w := by
  intro out a out' hrun
  have := h out a out' hrun
  omega

theorem adds_seq {α β : Type} {n : Nat} {w : Method Bytes Error α} {f : α → Method Bytes Error β}
    (hw : Adds 0 w) (hf : ∀ a, Adds n (f a)) : Adds n (w >>= f) := by
  intro out b out'' h
  obtain ⟨a, out', h₁, h₂⟩ := Method.bind_eq_ok h
  have := hw out a out' h₁
  have := hf a out' b out'' h₂
  omega

theorem adds_write_varint (cap value : Nat) : Adds 1 (write_varint cap value) := by
  intro out a out' h
  unfold write_varint encode_varint at h
  split at h
  · rename_i b hb
    cases h
    split at hb
    · cases hb
    · split at hb
      · cases hb
      · cases hb
        have := varint_len_pos value
        simp only [List.length_append, varint_bytes_length]
        omega
  · cases h

theorem adds_varint_seq {β : Type} {cap value n : Nat} {f : Unit → Method Bytes Error β}
    (hf : ∀ a, Adds n (f a)) : Adds (n + 1) (write_varint cap value >>= f) := by
  intro out b out'' h
  obtain ⟨a, out', h₁, h₂⟩ := Method.bind_eq_ok h
  have := adds_write_varint cap value out a out' h₁
  have := hf a out' b out'' h₂
  omega

theorem adds_write_bytes (cap : Nat) (data : Bytes) : Adds 0 (write_bytes cap data) := by
  intro out a out' h
  unfold write_bytes at h
  split at h
  · cases h
  · cases h
    simp

theorem adds_pure {α : Type} (a : α) : Adds 0 (pure a : Method Bytes Error α) := by
  intro out b out' h
  cases h
  exact Nat.le_refl _

theorem adds_lift {α : Type} (r : Except Error α) : Adds 0 (Method.lift r : Method Bytes Error α) := by
  intro out b out' h
  cases h
  exact Nat.le_refl _

theorem adds_ack (cap : Nat) (ack : AckFrame) : Adds 3 (write_frame cap (.Ack ack)) := by
  refine adds_varint_seq fun _ => adds_varint_seq fun _ => adds_varint_seq fun _ => ?_
  refine adds_seq (adds_lift _) fun count => ?_
  refine adds_seq (adds_write_varint _ _).zero fun _ => adds_seq (adds_write_varint _ _).zero fun _ => ?_
  refine adds_seq (adds_write_bytes _ _) fun _ => ?_
  split
  · exact adds_pure ()
  · exact (adds_varint_seq fun _ => adds_varint_seq fun _ => adds_write_varint _ _).zero

theorem adds_crypto (cap : Nat) (f : CryptoFrame) : Adds 3 (write_frame cap (.Crypto f)) := by
  refine adds_varint_seq fun _ => adds_varint_seq fun _ => adds_varint_seq fun _ => ?_
  exact adds_write_bytes _ _

theorem adds_connection_close (cap : Nat) (f : ConnectionCloseFrame) :
    Adds 3 (write_frame cap (.ConnectionClose f)) := by
  refine adds_varint_seq fun _ => adds_varint_seq fun _ => ?_
  dsimp only
  split
  · exact adds_varint_seq fun _ => adds_write_bytes _ _
  · refine adds_varint_seq fun _ => ?_
    exact (adds_varint_seq fun _ => adds_write_bytes _ _).zero

theorem encode_length {frame : Frame} {cap n : Nat} {b : Bytes} (h : Adds n (write_frame cap frame))
    (hencode : encode frame cap = .ok b) : n ≤ b.length := by
  unfold encode at hencode
  split at hencode
  · rename_i heq
    cases hencode
    simpa using h [] _ _ heq
  · cases hencode

end milli_http.frame
