-- The frame codec (h2/frame.rs) and the parser inside `process_recv` (h2/connection.rs) are
-- written apart. The parser does with a frame what its decoded fields say and refuses what the
-- codec refuses, but for a padded DATA frame without a payload at the end of the buffer.
import MilliHttp.H2.FrameCodec

open bytes method
open method.Method (require_bind_run bind_run get_run get_bind_run)

namespace milli_http.h2

open hpack milli_http.h2.codec

variable {L : Limits} {buf : Bytes} {hdr : H2FrameHeader} {payload : Bytes} {frame : codec.H2Frame}

namespace H2Connection

/-! ## What a decoded frame asks for -/

/-- A fragment begins the header block of its stream. -/
def take_block (stream_id : Nat) (fragment : Bytes) (end_stream end_headers : Bool) :
    Method (H2Connection L) Error Unit := do
  Method.modify (modify_stream stream_id (·.begin_block))
  Method.require (fragment.length ≤ L.HDRBUF) (.Http2 .EnhanceYourCalm)
  Method.modify (modify_stream stream_id (·.store_block fragment end_headers end_stream))

/-- A header block begins, on a stream of ours or on one the peer may open. -/
def take_headers (stream_id : Nat) (fragment : Bytes) (end_stream end_headers : Bool) :
    Method (H2Connection L) Error Unit := do
  let c ← Method.get
  if c.is_closed_stream stream_id then do
    Method.require (end_headers = true) (.Http2 .CompressionError)
    decode_dropped fragment
  else do
    Method.require (c.streams.any (·.id == stream_id) = true ∨ c.may_open stream_id = true)
      (.Http2 .ProtocolError)
    Method.modify (see_peer_stream stream_id)
    let c ← Method.get
    Method.modify fun c => (c.ensure_stream stream_id).2
    Method.require ((c.ensure_stream stream_id).1 = true) (.Http2 .ProtocolError)
    take_block stream_id fragment end_stream end_headers
    Method.modify fun c =>
      let c :=
        if end_headers then push_event (.Headers stream_id) c
        else { c with continuation_stream_id := some stream_id }
      if end_stream then push_event (.Finished stream_id) c else c

/-- A header block goes on. -/
def take_continuation (stream_id : Nat) (fragment : Bytes) (end_headers : Bool) :
    Method (H2Connection L) Error Unit := do
  Method.modify fun c => { c with
    continuation_stream_id := if end_headers then none else c.continuation_stream_id }
  let c ← Method.get
  match c.get_stream stream_id with
  | none => pure ()
  | some stream => do
    Method.require (stream.headers_data.length + fragment.length ≤ L.HDRBUF)
      (.Http2 .EnhanceYourCalm)
    Method.modify (modify_stream stream_id (·.append_block fragment end_headers))
    Method.modify fun c => if end_headers then push_event (.Headers stream_id) c else c

/-- The settings of the peer, or the acknowledgement of ours. -/
def take_settings (ack : Bool) (params : Bytes) : Method (H2Connection L) Error Unit :=
  if ack then do
    Method.require (params.length = 0) (.Http2 .FrameSizeError)
    Method.modify fun c =>
      let c := { c with settings_ack_received := true }
      if c.peer_settings_received ∧ c.state = .WaitingSettings then c.activate else c
  else apply_settings params

/-- A send window grows. -/
def take_window_update (stream_id increment : Nat) : Method (H2Connection L) Error Unit := do
  Method.require (increment ≠ 0) (.Http2 .ProtocolError)
  if stream_id = 0 then
    Method.on H2Connection.conn_send_fc (fun conn_send_fc c => { c with conn_send_fc })
      (FlowController.replenish increment)
  else do
    let c ← Method.get
    match c.get_stream stream_id with
    | none => pure ()
    | some stream => do
      Method.require (stream.send_window + increment ≤ 0x7fffffff) (.Http2 .FlowControlError)
      Method.modify (modify_stream stream_id (·.shift_window increment))

/-- A stream is reset. -/
def take_rst_stream (stream_id error_code : Nat) : Method (H2Connection L) Error Unit := do
  let c ← Method.get
  let buffered := ((c.get_stream stream_id).map (·.data_buf.length)).getD 0
  Method.modify (abandon_partial_data stream_id)
  Method.modify (modify_stream stream_id (·.reset_by_peer))
  Method.modify (send_window_update 0 buffered)
  Method.modify (push_event (.StreamReset stream_id error_code))

/-- What a frame other than DATA asks for. -/
def take_whole : codec.H2Frame → Method (H2Connection L) Error Unit
  | .Headers stream_id fragment end_stream end_headers _ => do
    Method.require (stream_id ≠ 0) (.Http2 .ProtocolError)
    take_headers stream_id fragment end_stream end_headers
  | .Settings ack params => take_settings ack params
  | .WindowUpdate stream_id increment => take_window_update stream_id increment
  | .Ping data ack => if ack then pure () else queue_frame 32 (.Ping data true)
  | .GoAway last_stream_id error_code _ =>
    Method.modify fun c => push_event (.GoAway last_stream_id error_code) { c with state := .Closing }
  | .RstStream stream_id error_code => take_rst_stream stream_id error_code
  | .Continuation stream_id fragment end_headers => do
    Method.require (stream_id ≠ 0) (.Http2 .ProtocolError)
    take_continuation stream_id fragment end_headers
  | .Data .. | .Priority .. | .PushPromise .. | .Unknown .. => pure ()

/-- The bytes in front of the data of a DATA frame of `total` bytes: a tenth one if it is padded. -/
def data_start (payload : Bytes) (total : Nat) : Nat := 9 + min (total - 9 - payload.length) 1

/-- A DATA frame begins: its data is next in the buffer, then its padding. -/
def take_data (stream_id : Nat) (payload : Bytes) (end_stream : Bool) (total : Nat) :
    Method (H2Connection L) Error Progress := do
  Method.require (stream_id ≠ 0) (.Http2 .ProtocolError)
  let c ← Method.get
  Method.require (¬ (c.settings_ack_received ∧
    (c.live_stream stream_id).any fun s => (payload.length : Int) > s.recv_window))
    (.Http2 .FlowControlError)
  Method.on H2Connection.conn_recv_fc (fun conn_recv_fc c => { c with conn_recv_fc })
    (FlowController.consume payload.length)
  Method.modify (drain_recv (data_start payload total))
  Method.modify fun c => { c with partial_data := some {
    stream_id
    end_stream
    data_remaining := payload.length
    pad_remaining := total - data_start payload total - payload.length
    deliver := (c.live_stream stream_id).isSome } }
  pure .Continue

/-- Whether a frame continues the header block of a stream. -/
def continues (expected : Nat) : codec.H2Frame → Bool
  | .Continuation stream_id _ _ => stream_id == expected
  | _ => false

/-- DATA begins, other frames are taken whole. -/
def take_admitted (frame : codec.H2Frame) (total : Nat) : Method (H2Connection L) Error Progress :=
  match frame with
  | .Data stream_id payload end_stream => take_data stream_id payload end_stream total
  | frame => do
    Method.require (total ≤ L.BUF) (.Http2 .FrameSizeError)
    take_whole frame
    Method.modify (drain_recv total)
    pure .Continue

/-- What the connection does with a decoded frame of `total` bytes. -/
def take_frame (frame : codec.H2Frame) (total : Nat) : Method (H2Connection L) Error Progress := do
  let c ← Method.get
  Method.require (total - 9 ≤ c.local_settings.max_frame_size) (.Http2 .FrameSizeError)
  Method.require (∀ expected ∈ c.continuation_stream_id, continues expected frame = true)
    (.Http2 .ProtocolError)
  take_admitted frame total

/-! ## The law -/

/-- The data of a DATA frame is what the buffer holds behind its header. -/
def DataInPlace (buf : Bytes) (total : Nat) : codec.H2Frame → Prop
  | .Data _ payload _ => (buf.drop (data_start payload total)).take payload.length = payload
  | _ => True

/-- The parser does with the frame at the front of the buffer what the codec decodes of it, and
refuses it where the codec does. -/
def Agrees (c : H2Connection L) : Prop :=
  match decode_frame c.io.recv_buf with
  | .ok (frame, total) => process_frame c = take_frame frame total c ∧
      DataInPlace c.io.recv_buf total frame
  | .err _ => ∃ e, (process_recv c).1 = .error e
  | .panic => False

/-- The frame types whose payload the parser reads. -/
def Parsed : FrameType → Prop
  | .Data | .Headers | .RstStream | .Settings | .Ping | .GoAway | .WindowUpdate | .Continuation =>
    True
  | .Priority | .PushPromise | .Unknown _ => False

/-- The receive loop is at a whole frame of a type it parses. -/
structure AtFrame (c : H2Connection L) : Prop where
  idle : c.partial_data = none
  prefaced : ¬(c.role = .Server ∧ c.preface_validated = false)
  header : 9 ≤ c.io.recv_buf.length
  complete : 9 + (h2.decode_frame_header c.io.recv_buf).length ≤ c.io.recv_buf.length
  parsed : Parsed (h2.decode_frame_header c.io.recv_buf).frame_type

/-- A padded DATA frame without a payload, which ends the buffer and is not refused before its
padding is looked at. -/
structure BarePadded (c : H2Connection L) : Prop where
  type : (h2.decode_frame_header c.io.recv_buf).frame_type = .Data
  padded : (h2.decode_frame_header c.io.recv_buf).has FLAG_PADDED = true
  empty : (h2.decode_frame_header c.io.recv_buf).length = 0
  last : c.io.recv_buf.length = 9
  stream : (h2.decode_frame_header c.io.recv_buf).stream_id ≠ 0
  admits : c.Admits (h2.decode_frame_header c.io.recv_buf)

/-! ## Payloads -/

open Outcome

theorem ofExcept_eq_err {α : Type} {r : Except Error α} {e : Error} (h : ofExcept r = .err e) :
    r = .error e := by
  cases r with
  | ok a => cases h
  | error e' =>
    cases h
    rfl

theorem strip_padding_eq (payload : Bytes) (hdr : H2FrameHeader) :
    (do
      let (data, _) ← codec.strip_padding payload hdr.flags
      pure data : Outcome Error Bytes) =
      .ofExcept (h2.strip_padding payload (hdr.has FLAG_PADDED)) := by
  unfold codec.strip_padding h2.strip_padding
  by_cases hpadded : hdr.flags &&& FLAG_PADDED = 0
  · have hflag : ¬hdr.has FLAG_PADDED = true := by simp [H2FrameHeader.has, hpadded]
    rw [if_neg (not_not.mpr hpadded), if_neg hflag]
    rfl
  · have hflag : hdr.has FLAG_PADDED = true := by simpa [H2FrameHeader.has] using hpadded
    rw [if_pos hpadded, if_pos hflag]
    cases payload with
    | nil => rfl
    | cons pad_len rest =>
      have hindex : (index (pad_len :: rest) 0 : Outcome Error UInt8) = .ok pad_len := rfl
      rw [if_neg (List.cons_ne_nil _ _), hindex, ok_bind]
      dsimp only
      by_cases hlong : pad_len.toNat ≥ (pad_len :: rest).length
      · rw [if_pos hlong, if_pos hlong]
        rfl
      · have hlen : (pad_len :: rest).length - pad_len.toNat - 1 = rest.length - pad_len.toNat := by
          rw [List.length_cons]
          omega
        rw [if_neg hlong, if_neg hlong, slice_of_le (by omega) (by omega), ok_bind, hlen]
        rfl

theorem headers_fragment_eq (hdr : H2FrameHeader) (payload : Bytes) :
    (do
      let (data, _) ← codec.strip_padding payload hdr.flags
      let (_, fragment) ← headers_payload data hdr.flags
      pure fragment : Outcome Error Bytes) = .ofExcept (headers_fragment hdr payload) := by
  have hstrip := strip_padding_eq payload hdr
  have hsafe := strip_padding_safe payload hdr.flags
  unfold headers_fragment
  rcases hs : codec.strip_padding payload hdr.flags with ⟨data, pad_len⟩ | e | _
  · rw [hs, ok_bind] at hstrip
    rw [ofExcept_eq_ok hstrip.symm, ok_bind, except_ok_bind]
    dsimp only
    unfold headers_payload
    by_cases hpri : hdr.flags &&& FLAG_PRIORITY = 0
    · have hflag : ¬hdr.has FLAG_PRIORITY = true := by simp [H2FrameHeader.has, hpri]
      rw [if_neg (not_not.mpr hpri), if_neg hflag]
      rfl
    · have hflag : hdr.has FLAG_PRIORITY = true := by simpa [H2FrameHeader.has] using hpri
      rw [if_pos hpri, if_pos hflag]
      by_cases hlen : data.length < 5
      · rw [if_pos hlen, if_pos hlen]
        rfl
      · obtain ⟨p, hp⟩ := read_priority_of_le data (by omega)
        rw [if_neg hlen, if_neg hlen, hp, ok_bind, sliceFrom_of_le (by omega), ok_bind]
        rfl
  · rw [hs, err_bind] at hstrip
    rw [ofExcept_eq_err hstrip.symm]
    rfl
  · exact absurd hs hsafe

/-- A HEADERS payload the codec decodes has the fragment the parser finds, one it refuses has
none. -/
theorem headers_parsed (hdr : H2FrameHeader) (payload : Bytes) (htype : hdr.frame_type = .Headers) :
    (∃ fragment priority, decode_payload hdr payload = .ok (.Headers hdr.stream_id fragment
        (hdr.has FLAG_END_STREAM) (hdr.has FLAG_END_HEADERS) priority) ∧
      headers_fragment hdr payload = .ok fragment) ∨
    ∃ e, decode_payload hdr payload = .err e ∧ headers_fragment hdr payload = .error e := by
  have hfragment := headers_fragment_eq hdr payload
  have hsafe := strip_padding_safe payload hdr.flags
  unfold decode_payload
  rw [htype]
  dsimp only
  rcases hs : codec.strip_padding payload hdr.flags with ⟨data, pad_len⟩ | e | _
  · have hsafe' := headers_payload_safe data hdr.flags
    rw [hs, ok_bind] at hfragment
    rw [ok_bind]
    dsimp only at hfragment ⊢
    rcases hp : headers_payload data hdr.flags with ⟨priority, fragment⟩ | e | _
    · rw [hp, ok_bind] at hfragment
      exact .inl ⟨fragment, priority, rfl, ofExcept_eq_ok hfragment.symm⟩
    · rw [hp, err_bind] at hfragment
      exact .inr ⟨e, rfl, ofExcept_eq_err hfragment.symm⟩
    · exact absurd hp hsafe'
  · rw [hs, err_bind] at hfragment
    exact .inr ⟨e, rfl, ofExcept_eq_err hfragment.symm⟩
  · exact absurd hs hsafe

/-! ## Whole frames -/

theorem require_true {p : Prop} [Decidable p] (h : p) (e : Error)
    (f : Unit → Method (H2Connection L) Error Unit) : (Method.require p e >>= f) = f () := by
  funext c
  rw [require_bind_run, if_pos h]

theorem require_false {p : Prop} [Decidable p] (h : ¬p) (e : Error)
    (f : Unit → Method (H2Connection L) Error Unit) (c : H2Connection L) :
    ∃ e', ((Method.require p e >>= f) c).1 = .error e' := by
  rw [require_bind_run, if_neg h]
  exact ⟨e, rfl⟩

/-- Four bytes read as the parser reads them. -/
theorem read_u32_eq (h : 4 ≤ buf.length) : read_u32 buf 0 = .ok (beNat (buf.take 4)) := by
  match buf, h with
  | b0 :: b1 :: b2 :: b3 :: rest, _ => rfl

theorem read_u31_eq (h : 4 ≤ buf.length) : read_u31 buf 0 = .ok (beNat (buf.take 4) % 2 ^ 31) := by
  match buf, h with
  | b0 :: b1 :: b2 :: b3 :: rest, _ =>
    have hval : read_u31 (b0 :: b1 :: b2 :: b3 :: rest) 0 = .ok (beNat [b0 &&& 0x7f, b1, b2, b3]) :=
      rfl
    rw [hval, beNat_masked]
    rfl

theorem read_code_eq (h : 8 ≤ buf.length) : read_u32 buf 4 = .ok (beNat ((buf.drop 4).take 4)) := by
  match buf, h with
  | a0 :: a1 :: a2 :: a3 :: b0 :: b1 :: b2 :: b3 :: rest, _ => rfl

/-- The two readings of a payload: both take the frame's fields, or both refuse it. -/
def SameReading (L : Limits) (hdr : H2FrameHeader) (payload : Bytes) : Prop :=
  (∃ frame, decode_payload hdr payload = .ok frame ∧
    (handle_frame hdr payload : Method (H2Connection L) Error Unit) = take_whole frame) ∨
  (∃ e, decode_payload hdr payload = .err e) ∧
    ∀ c : H2Connection L, ∃ e, (handle_frame hdr payload c).1 = .error e

theorem same_reading (hlen : payload.length = hdr.length)
    (hparsed : Parsed hdr.frame_type) (hdata : hdr.frame_type ≠ .Data) :
    SameReading L hdr payload := by
  unfold SameReading
  cases htype : hdr.frame_type with
  | Data => exact absurd htype hdata
  | Headers =>
    have hreads := headers_parsed hdr payload htype
    unfold handle_frame handle_headers
    rw [htype]
    dsimp only
    rcases hreads with ⟨fragment, priority, hok, hfragment⟩ | ⟨e, he, hfragment⟩
    · rw [hfragment]
      exact .inl ⟨_, hok, rfl⟩
    · refine .inr ⟨⟨e, he⟩, fun c => ?_⟩
      rw [hfragment, require_bind_run]
      split
      · exact ⟨e, rfl⟩
      · exact ⟨_, rfl⟩
  | Priority => rw [htype] at hparsed; exact hparsed.elim
  | RstStream =>
    unfold decode_payload handle_frame handle_rst_stream
    rw [htype]
    dsimp only
    by_cases hid : hdr.stream_id = 0
    · rw [if_pos hid]
      exact .inr ⟨⟨_, rfl⟩, require_false (not_not.mpr hid) _ _⟩
    rw [if_neg hid, require_true hid]
    by_cases hfour : payload.length = 4
    · rw [if_neg (not_not.mpr hfour), require_true (by omega), read_u32_eq (by omega)]
      exact .inl ⟨_, rfl, rfl⟩
    · rw [if_pos hfour]
      exact .inr ⟨⟨_, rfl⟩, require_false (by omega) _ _⟩
  | Settings =>
    unfold decode_payload handle_frame handle_settings
    rw [htype]
    dsimp only
    by_cases hid : hdr.stream_id = 0
    · rw [if_neg (not_not.mpr hid), require_true hid, ← hlen]
      exact .inl ⟨_, rfl, rfl⟩
    · rw [if_pos hid]
      exact .inr ⟨⟨_, rfl⟩, require_false hid _ _⟩
  | PushPromise => rw [htype] at hparsed; exact hparsed.elim
  | Ping =>
    unfold decode_payload handle_frame handle_ping
    rw [htype]
    dsimp only
    by_cases hid : hdr.stream_id = 0
    · rw [if_neg (not_not.mpr hid), require_true hid]
      by_cases height : payload.length = 8
      · rw [if_neg (not_not.mpr height), require_true (by omega), List.take_of_length_le (by omega)]
        exact .inl ⟨_, rfl, rfl⟩
      · rw [if_pos height]
        exact .inr ⟨⟨_, rfl⟩, require_false (by omega) _ _⟩
    · rw [if_pos hid]
      exact .inr ⟨⟨_, rfl⟩, require_false hid _ _⟩
  | GoAway =>
    unfold decode_payload handle_frame handle_goaway
    rw [htype]
    dsimp only
    by_cases hid : hdr.stream_id = 0
    · rw [if_neg (not_not.mpr hid), require_true hid]
      by_cases hshort : payload.length < 8
      · rw [if_pos hshort]
        exact .inr ⟨⟨_, rfl⟩, require_false (by omega) _ _⟩
      · rw [if_neg hshort, require_true (by omega), read_u31_eq (by omega), ok_bind,
          read_code_eq (by omega), ok_bind, sliceFrom_of_le (by omega)]
        exact .inl ⟨_, rfl, rfl⟩
    · rw [if_pos hid]
      exact .inr ⟨⟨_, rfl⟩, require_false hid _ _⟩
  | WindowUpdate =>
    unfold decode_payload handle_frame handle_window_update
    rw [htype]
    dsimp only
    by_cases hfour : payload.length = 4
    · rw [if_neg (not_not.mpr hfour), require_true (by omega), read_u31_eq (by omega)]
      exact .inl ⟨_, rfl, rfl⟩
    · rw [if_pos hfour]
      exact .inr ⟨⟨_, rfl⟩, require_false (by omega) _ _⟩
  | Continuation =>
    unfold decode_payload handle_frame
    rw [htype]
    exact .inl ⟨_, rfl, rfl⟩
  | Unknown byte => rw [htype] at hparsed; exact hparsed.elim

theorem SameReading.decoded
    (h : SameReading L hdr payload) (hok : decode_payload hdr payload = .ok frame) :
    (handle_frame hdr payload : Method (H2Connection L) Error Unit) = take_whole frame := by
  rcases h with ⟨frame', hok', htake⟩ | ⟨⟨e, he⟩, -⟩
  · rw [hok] at hok'
    cases hok'
    exact htake
  · rw [hok] at he
    cases he

theorem SameReading.refused {e : Error}
    (h : SameReading L hdr payload) (herr : decode_payload hdr payload = .err e)
    (c : H2Connection L) : ∃ e, (handle_frame hdr payload c).1 = .error e := by
  rcases h with ⟨frame', hok', -⟩ | ⟨-, hrefused⟩
  · rw [herr] at hok'
    cases hok'
  · exact hrefused c

/-! ## DATA frames -/

/-- Behind the nine bytes of its header, the pad length is the first byte of the payload. -/
theorem pad_length_eq {n : Nat} {b : UInt8} {rest : Bytes}
    (h : (buf.drop 9).take n = b :: rest) : buf.getD 9 0 = b ∧
      (buf.drop 10).take rest.length = rest := by
  have hdrop : ∃ more, buf.drop 9 = b :: rest ++ more := ⟨(buf.drop 9).drop n, by
    rw [← h, List.take_append_drop]⟩
  obtain ⟨more, hmore⟩ := hdrop
  constructor
  · have hget : (buf.drop 9)[0]? = some b := by rw [hmore]; rfl
    rw [List.getElem?_drop] at hget
    rw [List.getD_eq_getElem?_getD, hget]
    rfl
  · have hten : buf.drop 10 = rest ++ more := by
      rw [← List.drop_drop (i := 1) (j := 9), hmore]
      rfl
    rw [hten, List.take_left]

/-- A DATA frame the codec decodes has the data the parser delivers, with the padding it skips;
one it refuses has no lengths. -/
theorem data_parsed (htype : hdr.frame_type = .Data) (hlen : 9 + hdr.length ≤ buf.length) :
    (∃ data, decode_payload hdr ((buf.drop 9).take hdr.length) =
        .ok (.Data hdr.stream_id data (hdr.has FLAG_END_STREAM)) ∧
      data_start data (9 + hdr.length) = data_header_len hdr ∧
      data_header_len hdr ≤ buf.length ∧
      data_lengths hdr (buf.getD 9 0) =
        .ok (data.length, 9 + hdr.length - data_header_len hdr - data.length) ∧
      (buf.drop (data_header_len hdr)).take data.length = data) ∨
    ∃ e, decode_payload hdr ((buf.drop 9).take hdr.length) = .err e ∧
      data_lengths hdr (buf.getD 9 0) = .error e ∧ hdr.has FLAG_PADDED = true := by
  have hpl : ((buf.drop 9).take hdr.length).length = hdr.length := by
    rw [List.length_take, List.length_drop]
    omega
  have hstrip := strip_padding_eq ((buf.drop 9).take hdr.length) hdr
  have hdecode : decode_payload hdr ((buf.drop 9).take hdr.length) = (do
      let data ← (.ofExcept (h2.strip_padding ((buf.drop 9).take hdr.length)
        (hdr.has FLAG_PADDED)) : Outcome Error Bytes)
      .ok (.Data hdr.stream_id data (hdr.has FLAG_END_STREAM))) := by
    rw [← hstrip]
    unfold decode_payload
    rw [htype]
    dsimp only
    cases codec.strip_padding ((buf.drop 9).take hdr.length) hdr.flags <;> rfl
  rw [hdecode]
  unfold data_lengths data_header_len h2.strip_padding data_start
  by_cases hpadded : hdr.has FLAG_PADDED = true
  · simp only [if_pos hpadded]
    cases hp : (buf.drop 9).take hdr.length with
    | nil =>
      rw [hp, List.length_nil] at hpl
      rw [if_pos hpl.symm]
      exact .inr ⟨_, rfl, rfl, hpadded⟩
    | cons b rest =>
      obtain ⟨hget, hrest⟩ := pad_length_eq hp
      rw [hp, List.length_cons] at hpl
      rw [if_neg (by omega), hget]
      dsimp only
      rw [List.length_cons, hpl]
      by_cases hlong : b.toNat ≥ hdr.length
      · rw [if_pos hlong, if_pos hlong]
        exact .inr ⟨_, rfl, rfl, hpadded⟩
      · rw [if_neg hlong, if_neg hlong]
        refine .inl ⟨_, rfl, ?_⟩
        have hdata : (rest.take (rest.length - b.toNat)).length = hdr.length - 1 - b.toNat := by
          rw [List.length_take]
          omega
        rw [hdata]
        refine ⟨by omega, by omega, ?_, ?_⟩
        · congr 2
          omega
        · rw [← hrest, List.take_take, List.length_take, List.length_drop]
          congr 1
          omega
  · simp only [if_neg hpadded]
    refine .inl ⟨_, rfl, ?_⟩
    rw [hpl]
    refine ⟨by omega, by omega, ?_, rfl⟩
    congr 2
    omega

theorem begin_data_decoded {c : H2Connection L} {data : Bytes}
    (hstart : data_start data (9 + hdr.length) = data_header_len hdr)
    (hthere : data_header_len hdr ≤ c.io.recv_buf.length)
    (hlengths : data_lengths hdr (c.io.recv_buf.getD 9 0) =
      .ok (data.length, 9 + hdr.length - data_header_len hdr - data.length)) :
    begin_data hdr c = take_data hdr.stream_id data (hdr.has FLAG_END_STREAM) (9 + hdr.length) c := by
  unfold begin_data take_data
  rw [require_bind_run, require_bind_run]
  split
  · rw [bind_run, get_run, bind_run, get_run]
    dsimp only
    rw [show (if hdr.has FLAG_PADDED = true then 10 else 9) = data_header_len hdr from rfl,
      if_neg (by omega), bind_run, Method.lift_run, hlengths, hstart]
  · rfl

/-! ## The receive loop at a frame -/

/-- The type of a decoded frame. -/
def kind : codec.H2Frame → FrameType
  | .Data .. => .Data
  | .Headers .. => .Headers
  | .Priority .. => .Priority
  | .RstStream .. => .RstStream
  | .Settings .. => .Settings
  | .PushPromise .. => .PushPromise
  | .Ping .. => .Ping
  | .GoAway .. => .GoAway
  | .WindowUpdate .. => .WindowUpdate
  | .Continuation .. => .Continuation
  | .Unknown frame_type .. => .Unknown frame_type

/-- A reading that gives only frames of a type. -/
def Gives (ty : FrameType) (r : Outcome Error codec.H2Frame) : Prop :=
  ∀ frame, r = .ok frame → ty = kind frame

section Gives

variable {ty : FrameType}

theorem gives_ok (h : ty = kind frame) : Gives ty (.ok frame) := by
  rintro _ ⟨⟩
  exact h

theorem gives_err (e : Error) : Gives ty (.err e) := nofun

theorem gives_bind {α : Type} {r : Outcome Error α} {f : α → Outcome Error codec.H2Frame}
    (h : ∀ a, Gives ty (f a)) : Gives ty (r >>= f) := by
  intro frame hr
  obtain ⟨a, -, ha⟩ := Outcome.bind_eq_ok hr
  exact h a frame ha

theorem gives_ite {p : Prop} [Decidable p] {r r' : Outcome Error codec.H2Frame} (h : Gives ty r)
    (h' : Gives ty r') : Gives ty (if p then r else r') := by
  split
  · exact h
  · exact h'

end Gives

theorem decode_payload_kind (hdr : H2FrameHeader) (payload : Bytes) :
    Gives hdr.frame_type (decode_payload hdr payload) := by
  unfold decode_payload
  cases hdr.frame_type with
  | Data => exact gives_bind fun ⟨_, _⟩ => gives_ok rfl
  | Headers => exact gives_bind fun ⟨_, _⟩ => gives_bind fun ⟨_, _⟩ => gives_ok rfl
  | Priority =>
    exact gives_ite (gives_err _) (gives_ite (gives_err _) (gives_bind fun _ => gives_ok rfl))
  | RstStream =>
    exact gives_ite (gives_err _) (gives_ite (gives_err _) (gives_bind fun _ => gives_ok rfl))
  | Settings => exact gives_ite (gives_err _) (gives_ok rfl)
  | PushPromise =>
    exact gives_bind fun ⟨_, _⟩ =>
      gives_ite (gives_err _) (gives_bind fun _ => gives_bind fun _ => gives_ok rfl)
  | Ping => exact gives_ite (gives_err _) (gives_ite (gives_err _) (gives_ok rfl))
  | GoAway =>
    exact gives_ite (gives_err _) (gives_ite (gives_err _)
      (gives_bind fun _ => gives_bind fun _ => gives_bind fun _ => gives_ok rfl))
  | WindowUpdate => exact gives_ite (gives_err _) (gives_bind fun _ => gives_ok rfl)
  | Continuation => exact gives_ok rfl
  | Unknown _ => exact gives_ok rfl

/-- A decoded frame continues a header block exactly if its header does. -/
theorem continues_iff (h : decode_payload hdr payload = .ok frame) (expected : Nat) :
    continues expected frame = true ↔
      hdr.frame_type = .Continuation ∧ hdr.stream_id = expected := by
  have hkind := decode_payload_kind hdr payload frame h
  cases frame with
  | Continuation stream_id fragment end_headers =>
    unfold decode_payload at h
    rw [hkind] at h
    obtain ⟨hid, -⟩ := codec.H2Frame.Continuation.inj (Outcome.ok.inj h)
    simp only [continues, hkind, kind, hid, beq_iff_eq, true_and]
  | _ => simp [continues, hkind, kind]

variable {c : H2Connection L}

theorem decode_frame_at (h : AtFrame c) : decode_frame c.io.recv_buf = (do
    let frame ← decode_payload (h2.decode_frame_header c.io.recv_buf)
      ((c.io.recv_buf.drop 9).take (h2.decode_frame_header c.io.recv_buf).length)
    pure (frame, 9 + (h2.decode_frame_header c.io.recv_buf).length)) := by
  have hcomplete := h.complete
  unfold decode_frame
  rw [decode_frame_header_eq h.header, ok_bind]
  dsimp only
  rw [if_neg (by omega), slice_of_le (by omega) hcomplete, ok_bind, Nat.add_sub_cancel_left]

/-- The loop comes to the frame's header. -/
theorem process_frame_at (h : AtFrame c) :
    process_frame c = process_header (h2.decode_frame_header c.io.recv_buf) c := by
  have hheader := h.header
  unfold process_frame
  rw [get_bind_run]
  rw [if_neg (by rw [h.idle]; simp), if_neg (by omega)]

theorem process_whole_at (h : AtFrame c) :
    process_whole (h2.decode_frame_header c.io.recv_buf) c = (do
      Method.require (9 + (h2.decode_frame_header c.io.recv_buf).length ≤ L.BUF)
        (.Http2 .FrameSizeError)
      handle_frame (h2.decode_frame_header c.io.recv_buf)
        ((c.io.recv_buf.drop 9).take (h2.decode_frame_header c.io.recv_buf).length)
      Method.modify (drain_recv (9 + (h2.decode_frame_header c.io.recv_buf).length))
      pure .Continue : Method (H2Connection L) Error Progress) c := by
  have hcomplete := h.complete
  unfold process_whole
  rw [require_bind_run, require_bind_run]
  split
  · rw [get_bind_run]
    rw [if_neg (by omega)]
  · rfl

/-- With no preface to wait for, a call goes to the frames. -/
theorem process_recv_frames (h : AtFrame c) : process_recv c = (do
    process_frames (L := L) c.rounds
    Method.modify reap : Method (H2Connection L) Error Unit) c := by
  unfold process_recv
  rw [bind_run, get_run]
  dsimp only
  rw [if_neg h.prefaced, bind_run, get_run]
  dsimp only
  rw [if_neg h.prefaced]

theorem process_recv_error (h : AtFrame c) {e : Error} (herr : (process_frame c).1 = .error e) :
    (process_recv c).1 = .error e := by
  have hfuel : c.rounds = (c.io.recv_buf.length + 1) + 1 := rfl
  rw [process_recv_frames h, bind_run, hfuel, process_frames, bind_run]
  rcases hframe : process_frame c with ⟨e' | p, c'⟩
  · rw [hframe] at herr
    obtain rfl : e' = e := Except.error.inj herr
    rfl
  · rw [hframe] at herr
    cases herr

/-- Frames other than DATA are the ones taken whole. -/
theorem take_admitted_whole
    (hdata : hdr.frame_type ≠ .Data) (h : decode_payload hdr payload = .ok frame) (total : Nat) :
    (take_admitted frame total : Method (H2Connection L) Error Progress) = (do
      Method.require (total ≤ L.BUF) (.Http2 .FrameSizeError)
      take_whole frame
      Method.modify (drain_recv total)
      pure .Continue) ∧ ∀ buf, DataInPlace buf total frame := by
  cases frame with
  | Data stream_id data end_stream => exact absurd (decode_payload_kind hdr payload _ h) hdata
  | _ => exact ⟨rfl, fun _ => trivial⟩

/-- What the codec decodes, the parser acts on. -/
theorem process_frame_decoded (h : AtFrame c)
    (hframe : decode_payload (h2.decode_frame_header c.io.recv_buf)
      ((c.io.recv_buf.drop 9).take (h2.decode_frame_header c.io.recv_buf).length) = .ok frame) :
    process_frame c = take_frame frame (9 + (h2.decode_frame_header c.io.recv_buf).length) c ∧
      DataInPlace c.io.recv_buf (9 + (h2.decode_frame_header c.io.recv_buf).length) frame := by
  rw [process_frame_at h]
  have hcomplete := h.complete
  have hwhole := process_whole_at h
  have hparsed := h.parsed
  generalize h2.decode_frame_header c.io.recv_buf = hdr at *
  have hlen : ((c.io.recv_buf.drop 9).take hdr.length).length = hdr.length := by
    rw [List.length_take, List.length_drop]
    omega
  have hrest : (if hdr.frame_type = .Data then begin_data hdr else process_whole hdr) c =
      take_admitted frame (9 + hdr.length) c ∧ DataInPlace c.io.recv_buf (9 + hdr.length) frame := by
    by_cases hdata : hdr.frame_type = .Data
    · rw [if_pos hdata]
      rcases data_parsed hdata hcomplete with ⟨data, hok, hstart, hthere, hlengths, hplace⟩ | ⟨e, he, -⟩
      · rw [hframe] at hok
        cases hok
        refine ⟨begin_data_decoded hstart hthere hlengths, ?_⟩
        show (c.io.recv_buf.drop (data_start data (9 + hdr.length))).take data.length = data
        rw [hstart]
        exact hplace
      · rw [hframe] at he
        cases he
    · obtain ⟨htake, hplace⟩ := take_admitted_whole (L := L) hdata hframe (9 + hdr.length)
      rw [if_neg hdata, hwhole, htake, (same_reading hlen hparsed hdata).decoded hframe]
      exact ⟨rfl, hplace _⟩
  refine ⟨?_, hrest.2⟩
  unfold process_header take_frame
  rw [bind_run, get_run, get_bind_run]
  simp only [require_bind_run, Nat.add_sub_cancel_left, continues_iff hframe, hrest.1]

/-- What the codec refuses, the parser refuses, but for a padded frame without a payload. -/
theorem process_frame_refused (h : AtFrame c) (hbare : ¬BarePadded c) {e : Error}
    (herr : decode_payload (h2.decode_frame_header c.io.recv_buf)
      ((c.io.recv_buf.drop 9).take (h2.decode_frame_header c.io.recv_buf).length) = .err e) :
    ∃ e, (process_frame c).1 = .error e := by
  rw [process_frame_at h]
  have hcomplete := h.complete
  have hwhole := process_whole_at h
  have hparsed := h.parsed
  have hbare' : ∀ hdr, h2.decode_frame_header c.io.recv_buf = hdr → hdr.frame_type = .Data →
      hdr.has FLAG_PADDED = true → c.io.recv_buf.length < 10 → hdr.stream_id ≠ 0 →
      ¬c.Admits hdr := by
    rintro hdr rfl htype hpadded hshort hstream hadmits
    have hlen : (h2.decode_frame_header c.io.recv_buf).length = 0 := by omega
    exact hbare ⟨htype, hpadded, hlen, by omega, hstream, hadmits⟩
  generalize h2.decode_frame_header c.io.recv_buf = hdr at *
  have hlen : ((c.io.recv_buf.drop 9).take hdr.length).length = hdr.length := by
    rw [List.length_take, List.length_drop]
    omega
  unfold process_header
  rw [get_bind_run]
  rw [require_bind_run]
  split
  · rw [require_bind_run]
    split
    · rename_i hadmits
      by_cases hdata : hdr.frame_type = .Data
      · rw [if_pos hdata]
        rcases data_parsed hdata hcomplete with ⟨data, hok, -⟩ | ⟨e', -, hlengths, hpadded⟩
        · rw [herr] at hok
          cases hok
        · unfold begin_data
          rw [require_bind_run]
          split
          · rename_i hstream
            have hlong : ¬c.io.recv_buf.length < 10 := fun hshort =>
              hbare' hdr rfl hdata hpadded hshort hstream hadmits
            rw [get_bind_run]
            rw [if_neg hlong, bind_run, Method.lift_run, hlengths]
            exact ⟨_, rfl⟩
          · exact ⟨_, rfl⟩
      · rw [if_neg hdata, hwhole, require_bind_run]
        split
        · obtain ⟨e', he'⟩ := (same_reading hlen hparsed hdata).refused herr c
          rw [bind_run]
          rcases hrun : handle_frame hdr ((c.io.recv_buf.drop 9).take hdr.length) c with ⟨_ | _, c'⟩
          · exact ⟨_, rfl⟩
          · rw [hrun] at he'
            cases he'
        · exact ⟨_, rfl⟩
    · exact ⟨_, rfl⟩
  · exact ⟨_, rfl⟩

/-- At the padded frame without a payload the loop waits for the pad length. -/
theorem process_frame_waits (h : AtFrame c) (hbare : BarePadded c) :
    process_frame c = (.ok .Break, c) := by
  have hpadded := hbare.padded
  have hlast := hbare.last
  have hempty := hbare.empty
  have hadmits : ∀ expected ∈ c.continuation_stream_id,
      (h2.decode_frame_header c.io.recv_buf).frame_type = .Continuation ∧
        (h2.decode_frame_header c.io.recv_buf).stream_id = expected := hbare.admits
  rw [process_frame_at h]
  unfold process_header
  rw [get_bind_run]
  rw [require_bind_run, if_pos (by omega), require_bind_run, if_pos hadmits,
    if_pos hbare.type]
  unfold begin_data
  rw [require_bind_run, if_pos hbare.stream, get_bind_run]
  rw [hpadded, if_pos rfl, if_pos (by omega)]
  rfl

/-- A call that waits at its first frame succeeds. -/
theorem process_recv_waits (h : AtFrame c) (hwait : process_frame c = (.ok .Break, c)) :
    (process_recv c).1 = .ok () := by
  rw [process_recv_frames h, bind_run]
  have hfuel : c.rounds = (c.io.recv_buf.length + 1) + 1 := rfl
  rw [hfuel, process_frames, bind_run, hwait]
  rfl

theorem bare_padded_refused (h : AtFrame c) (hbare : BarePadded c) :
    decode_frame c.io.recv_buf = .err (.BufferTooSmall 1) := by
  have hpadded : (h2.decode_frame_header c.io.recv_buf).flags &&& FLAG_PADDED ≠ 0 := by
    simpa [H2FrameHeader.has] using hbare.padded
  rw [decode_frame_at h, hbare.empty, List.take_zero]
  unfold decode_payload codec.strip_padding
  rw [hbare.type]
  dsimp only
  rw [if_pos hpadded, if_pos rfl]
  rfl

/-- At a whole frame the two readings agree, but for one that is padded and has no payload. -/
theorem agrees_iff (h : AtFrame c) : Agrees c ↔ ¬BarePadded c := by
  constructor
  · intro hagrees hbare
    unfold Agrees at hagrees
    rw [bare_padded_refused h hbare] at hagrees
    obtain ⟨e, he⟩ := hagrees
    rw [process_recv_waits h (process_frame_waits h hbare)] at he
    cases he
  · intro hbare
    unfold Agrees
    rw [decode_frame_at h]
    rcases hframe : decode_payload (h2.decode_frame_header c.io.recv_buf)
      ((c.io.recv_buf.drop 9).take (h2.decode_frame_header c.io.recv_buf).length) with frame | e | _
    · exact process_frame_decoded h hframe
    · obtain ⟨e', he'⟩ := process_frame_refused h hbare hframe
      exact ⟨e', process_recv_error h he'⟩
    · exact absurd hframe (decode_payload_safe _ _)

end H2Connection

open H2Connection

/-- The codec reads back what it writes and never reads outside the buffer. The parser takes the
same from every whole frame as the codec, and refuses what it refuses, but for a padded DATA frame
without a payload that ends the buffer. -/
theorem frames_are_parsed_as_decoded (L : Limits) :
    (∀ (frame : codec.H2Frame) (cap : Nat) (bs more : Bytes), Fits frame →
      codec.encode_frame frame cap = .ok bs → decode_frame (bs ++ more) = .ok (frame, bs.length)) ∧
    (∀ buf : Bytes, (decode_frame buf).Safe) ∧
    ∀ c : H2Connection L, AtFrame c → (Agrees c ↔ ¬BarePadded c) :=
  ⟨fun _ _ _ more hfits hencode => decode_encode_frame hfits hencode more, decode_frame_safe,
    fun _ h => agrees_iff h⟩

/-! ## Padded frames -/

/-- A client of four streams. -/
def client_of_four : Limits where
  MAX_STREAMS := 4
  HDRBUF := 64
  DATABUF := 64
  BUF := 256

/-- DATA of two bytes with one of padding, on stream 1. -/
def padded_data : Bytes := [0, 0, 4, 0x0, 0x8, 0, 0, 0, 1, 1, 0x61, 0x62, 0]

/-- The parser does with it what the codec decodes. -/
theorem padded_data_is_parsed_as_decoded :
    let c := (H2Connection.new client_of_four .Client).receive padded_data
    decode_frame c.io.recv_buf = .ok (.Data 1 (ascii "ab") false, 13) ∧ AtFrame c ∧ Agrees c := by
  have hat : AtFrame ((H2Connection.new client_of_four .Client).receive padded_data) :=
    ⟨rfl, by decide, by decide, by decide, trivial⟩
  refine ⟨by decide, hat, ((frames_are_parsed_as_decoded client_of_four).2.2 _ hat).mpr fun hbare => ?_⟩
  exact absurd hbare.last (by decide)

/-- DATA with the PADDED flag and no payload, on stream 1. -/
def bare_padded : Bytes := [0, 0, 0, 0x0, 0x8, 0, 0, 0, 1]

/-- The codec refuses the frame, a client that is fed it keeps it and waits. -/
theorem bare_padded_is_not_refused :
    decode_frame bare_padded = .err (.BufferTooSmall 1) ∧
    (feed_data bare_padded (H2Connection.new client_of_four .Client)).1 = .ok () ∧
    (feed_data bare_padded (H2Connection.new client_of_four .Client)).2.io.recv_buf = bare_padded ∧
    ∃ c : H2Connection client_of_four, AtFrame c ∧ ¬Agrees c := by
  refine ⟨by decide, by decide, by decide,
    (H2Connection.new client_of_four .Client).receive bare_padded, ?_, ?_⟩
  · exact ⟨rfl, by decide, by decide, by decide, trivial⟩
  · intro hagrees
    have hcodec : decode_frame ((H2Connection.new client_of_four .Client).receive
        bare_padded).io.recv_buf = .err (.BufferTooSmall 1) := by decide
    unfold Agrees at hagrees
    rw [hcodec] at hagrees
    obtain ⟨e, he⟩ := hagrees
    cases he

end milli_http.h2
