-- The HTTP/2 frame codec (h2/frame.rs) in full: every frame that can be written reads back,
-- whatever comes behind it, and no byte string makes the decoder read outside of it.
import MilliHttp.H2.BodyDelivery
import MilliHttp.PacketCodec

open bytes

namespace milli_http.h2.codec

/-! ## Frames -/

/-- Stream priority. -/
structure H2Priority where
  exclusive : Bool
  dependency : Nat
  weight : UInt8
  deriving DecidableEq, Repr

/-- A decoded frame. -/
inductive H2Frame where
  | Data (stream_id : Nat) (payload : Bytes) (end_stream : Bool)
  | Headers (stream_id : Nat) (fragment : Bytes) (end_stream end_headers : Bool)
      (priority : Option H2Priority)
  | Priority (stream_id : Nat) (priority : H2Priority)
  | RstStream (stream_id error_code : Nat)
  | Settings (ack : Bool) (params : Bytes)
  | PushPromise (stream_id promised_id : Nat) (fragment : Bytes) (end_headers : Bool)
  | Ping (data : Bytes) (ack : Bool)
  | GoAway (last_stream_id error_code : Nat) (debug : Bytes)
  | WindowUpdate (stream_id increment : Nat)
  | Continuation (stream_id : Nat) (fragment : Bytes) (end_headers : Bool)
  | Unknown (frame_type : UInt8) (stream_id : Nat) (flags : UInt8) (payload : Bytes)
  deriving DecidableEq, Repr

/-! ## Decoding -/

/-- `u32::from_be_bytes` of the four bytes at `pos`. -/
def read_u32 (buf : Bytes) (pos : Nat) : Outcome Error Nat := do
  let b0 ← index buf pos
  let b1 ← index buf (pos + 1)
  let b2 ← index buf (pos + 2)
  let b3 ← index buf (pos + 3)
  pure (beNat [b0, b1, b2, b3])

/-- As `read_u32`, without the reserved top bit. -/
def read_u31 (buf : Bytes) (pos : Nat) : Outcome Error Nat := do
  let b0 ← index buf pos
  let b1 ← index buf (pos + 1)
  let b2 ← index buf (pos + 2)
  let b3 ← index buf (pos + 3)
  pure (beNat [b0 &&& 0x7f, b1, b2, b3])

/-- Decodes a 9-byte frame header. -/
def decode_frame_header (buf : Bytes) : Outcome Error H2FrameHeader :=
  if buf.length < 9 then .err (.BufferTooSmall 9)
  else do
    let b0 ← index buf 0
    let b1 ← index buf 1
    let b2 ← index buf 2
    let frame_type ← index buf 3
    let flags ← index buf 4
    let stream_id ← read_u31 buf 5
    pure { length := beNat [b0, b1, b2], frame_type := .of_byte frame_type, flags, stream_id }

/-- Strips the padding if the PADDED flag is set. Returns the data and the padding's length. -/
def strip_padding (payload : Bytes) (flags : UInt8) : Outcome Error (Bytes × Nat) :=
  if flags &&& FLAG_PADDED ≠ 0 then
    if payload = [] then .err (.BufferTooSmall 1)
    else do
      let pad_len ← index payload 0
      if pad_len.toNat ≥ payload.length then .err .InvalidState
      else do
        let data ← slice payload 1 (payload.length - pad_len.toNat)
        pure (data, pad_len.toNat)
  else .ok (payload, 0)

/-- The priority at the front of `data`. -/
def read_priority (data : Bytes) : Outcome Error H2Priority := do
  let b0 ← index data 0
  let dependency ← read_u31 data 0
  let weight ← index data 4
  pure { exclusive := b0 &&& 0x80 ≠ 0, dependency, weight }

/-- The priority, if the flag is set, and the fragment behind it. -/
def headers_payload (data : Bytes) (flags : UInt8) :
    Outcome Error (Option H2Priority × Bytes) :=
  if flags &&& FLAG_PRIORITY ≠ 0 then
    if data.length < 5 then .err (.BufferTooSmall 5)
    else do
      let priority ← read_priority data
      let fragment ← sliceFrom data 5
      pure (some priority, fragment)
  else .ok (none, data)

/-- The frame of a header and its payload. -/
def decode_payload (hdr : H2FrameHeader) (payload : Bytes) : Outcome Error H2Frame :=
  match hdr.frame_type with
  | .Data => do
    let (data, _) ← strip_padding payload hdr.flags
    pure (.Data hdr.stream_id data (hdr.has FLAG_END_STREAM))
  | .Headers => do
    let (data, _) ← strip_padding payload hdr.flags
    let (priority, fragment) ← headers_payload data hdr.flags
    pure (.Headers hdr.stream_id fragment (hdr.has FLAG_END_STREAM) (hdr.has FLAG_END_HEADERS)
      priority)
  | .Priority =>
    if hdr.stream_id = 0 then .err .InvalidState
    else if payload.length ≠ 5 then .err .InvalidState
    else do
      let priority ← read_priority payload
      pure (.Priority hdr.stream_id priority)
  | .RstStream =>
    if hdr.stream_id = 0 then .err .InvalidState
    else if payload.length ≠ 4 then .err .InvalidState
    else do
      let error_code ← read_u32 payload 0
      pure (.RstStream hdr.stream_id error_code)
  | .Settings =>
    if hdr.stream_id ≠ 0 then .err .InvalidState
    else .ok (.Settings (hdr.has FLAG_ACK) payload)
  | .PushPromise => do
    let (data, _) ← strip_padding payload hdr.flags
    if data.length < 4 then .err (.BufferTooSmall 4)
    else do
      let promised_id ← read_u31 data 0
      let fragment ← sliceFrom data 4
      pure (.PushPromise hdr.stream_id promised_id fragment (hdr.has FLAG_END_HEADERS))
  | .Ping =>
    if hdr.stream_id ≠ 0 then .err .InvalidState
    else if payload.length ≠ 8 then .err .InvalidState
    else .ok (.Ping payload (hdr.has FLAG_ACK))
  | .GoAway =>
    if hdr.stream_id ≠ 0 then .err .InvalidState
    else if payload.length < 8 then .err (.BufferTooSmall 8)
    else do
      let last_stream_id ← read_u31 payload 0
      let error_code ← read_u32 payload 4
      let debug ← sliceFrom payload 8
      pure (.GoAway last_stream_id error_code debug)
  | .WindowUpdate =>
    if payload.length ≠ 4 then .err .InvalidState
    else do
      let increment ← read_u31 payload 0
      pure (.WindowUpdate hdr.stream_id increment)
  | .Continuation => .ok (.Continuation hdr.stream_id payload (hdr.has FLAG_END_HEADERS))
  | .Unknown frame_type => .ok (.Unknown frame_type hdr.stream_id hdr.flags payload)

/-- Decodes the frame at the front of a buffer: the frame and the bytes it took. -/
def decode_frame (buf : Bytes) : Outcome Error (H2Frame × Nat) := do
  let hdr ← decode_frame_header buf
  let total := 9 + hdr.length
  if buf.length < total then .err (.BufferTooSmall total)
  else do
    let payload ← slice buf 9 total
    let frame ← decode_payload hdr payload
    pure (frame, total)

/-! ## Encoding -/

/-- The five bytes of a priority. -/
def priority_bytes (p : H2Priority) : Bytes :=
  toBe 4 (if p.exclusive then p.dependency ||| 0x80000000 else p.dependency) ++ [p.weight]

namespace H2Frame

/-- The header and the payload of a frame that can be written. -/
def parts : H2Frame → Option (H2FrameHeader × Bytes)
  | .Data stream_id payload end_stream =>
    some ({ length := payload.length, frame_type := .Data, stream_id
            flags := if end_stream then FLAG_END_STREAM else 0 }, payload)
  | .Headers stream_id fragment end_stream end_headers priority =>
    let payload := (priority.map priority_bytes).getD [] ++ fragment
    some ({ length := payload.length, frame_type := .Headers, stream_id
            flags := (if end_stream then FLAG_END_STREAM else 0) |||
              (if end_headers then FLAG_END_HEADERS else 0) |||
              (if priority.isSome then FLAG_PRIORITY else 0) }, payload)
  | .Priority stream_id priority =>
    some ({ length := 5, frame_type := .Priority, stream_id, flags := 0 }, priority_bytes priority)
  | .RstStream stream_id error_code =>
    some ({ length := 4, frame_type := .RstStream, stream_id, flags := 0 }, toBe 4 error_code)
  | .Settings ack params =>
    some ({ length := params.length, frame_type := .Settings, stream_id := 0
            flags := if ack then FLAG_ACK else 0 }, params)
  | .PushPromise stream_id promised_id fragment end_headers =>
    let payload := toBe 4 (promised_id % 2 ^ 31) ++ fragment
    some ({ length := payload.length, frame_type := .PushPromise, stream_id
            flags := if end_headers then FLAG_END_HEADERS else 0 }, payload)
  | .Ping data ack =>
    some ({ length := 8, frame_type := .Ping, stream_id := 0
            flags := if ack then FLAG_ACK else 0 }, data)
  | .GoAway last_stream_id error_code debug =>
    let payload := toBe 4 (last_stream_id % 2 ^ 31) ++ toBe 4 error_code ++ debug
    some ({ length := payload.length, frame_type := .GoAway, stream_id := 0, flags := 0 }, payload)
  | .WindowUpdate stream_id increment =>
    some ({ length := 4, frame_type := .WindowUpdate, stream_id, flags := 0 },
      toBe 4 (increment % 2 ^ 31))
  | .Continuation stream_id fragment end_headers =>
    some ({ length := fragment.length, frame_type := .Continuation, stream_id
            flags := if end_headers then FLAG_END_HEADERS else 0 }, fragment)
  | .Unknown .. => none

end H2Frame

/-- Encodes a frame into a buffer of `cap` bytes. An unknown frame writes nothing. -/
def encode_frame (frame : H2Frame) (cap : Nat) : Except Error Bytes :=
  match frame.parts with
  | none => .ok []
  | some (hdr, payload) =>
    if cap < 9 + payload.length then .error (.BufferTooSmall (9 + payload.length))
    else do
      let header ← encode_frame_header hdr
      .ok (header ++ payload)

/-! ## Reads in bounds -/

open Outcome

theorem read_u32_of_le (buf : Bytes) (pos : Nat) (h : pos + 4 ≤ buf.length) :
    ∃ n, read_u32 buf pos = .ok n := by
  unfold read_u32
  rw [index_of_lt (by omega), ok_bind, index_of_lt (by omega), ok_bind, index_of_lt (by omega),
    ok_bind, index_of_lt (by omega), ok_bind]
  exact ⟨_, rfl⟩

theorem read_u31_of_le (buf : Bytes) (pos : Nat) (h : pos + 4 ≤ buf.length) :
    ∃ n, read_u31 buf pos = .ok n := by
  unfold read_u31
  rw [index_of_lt (by omega), ok_bind, index_of_lt (by omega), ok_bind, index_of_lt (by omega),
    ok_bind, index_of_lt (by omega), ok_bind]
  exact ⟨_, rfl⟩

theorem decode_frame_header_safe (buf : Bytes) : (decode_frame_header buf).Safe := by
  unfold decode_frame_header
  split
  · exact safe_err _
  · obtain ⟨n, hn⟩ := read_u31_of_le buf 5 (by omega)
    rw [index_of_lt (by omega), ok_bind, index_of_lt (by omega), ok_bind, index_of_lt (by omega),
      ok_bind, index_of_lt (by omega), ok_bind, index_of_lt (by omega), ok_bind, hn, ok_bind]
    exact safe_ok _

theorem strip_padding_safe (payload : Bytes) (flags : UInt8) :
    (strip_padding payload flags).Safe := by
  unfold strip_padding
  split
  · split
    · exact safe_err _
    · rename_i hne
      have hpos : 0 < payload.length := List.length_pos_of_ne_nil hne
      rw [index_of_lt hpos, ok_bind]
      split
      · exact safe_err _
      · rw [slice_of_le (by omega) (by omega), ok_bind]
        exact safe_ok _
  · exact safe_ok _

theorem read_priority_of_le (data : Bytes) (h : 5 ≤ data.length) :
    ∃ p, read_priority data = .ok p := by
  obtain ⟨n, hn⟩ := read_u31_of_le data 0 (by omega)
  unfold read_priority
  rw [index_of_lt (by omega), ok_bind, hn, ok_bind, index_of_lt (by omega), ok_bind]
  exact ⟨_, rfl⟩

theorem headers_payload_safe (data : Bytes) (flags : UInt8) :
    (headers_payload data flags).Safe := by
  unfold headers_payload
  split
  · split
    · exact safe_err _
    · obtain ⟨p, hp⟩ := read_priority_of_le data (by omega)
      rw [hp, ok_bind, sliceFrom_of_le (by omega), ok_bind]
      exact safe_ok _
  · exact safe_ok _

theorem decode_payload_safe (hdr : H2FrameHeader) (payload : Bytes) :
    (decode_payload hdr payload).Safe := by
  unfold decode_payload
  cases hdr.frame_type with
  | Data => exact safe_bind (strip_padding_safe _ _) fun _ _ => safe_ok _
  | Headers =>
    exact safe_bind (strip_padding_safe _ _) fun _ _ =>
      safe_bind (headers_payload_safe _ _) fun _ _ => safe_ok _
  | Priority =>
    dsimp only
    split
    · exact safe_err _
    · split
      · exact safe_err _
      · obtain ⟨p, hp⟩ := read_priority_of_le payload (by omega)
        rw [hp, ok_bind]
        exact safe_ok _
  | RstStream =>
    dsimp only
    split
    · exact safe_err _
    · split
      · exact safe_err _
      · obtain ⟨n, hn⟩ := read_u32_of_le payload 0 (by omega)
        rw [hn, ok_bind]
        exact safe_ok _
  | Settings =>
    dsimp only
    split
    · exact safe_err _
    · exact safe_ok _
  | PushPromise =>
    refine safe_bind (strip_padding_safe _ _) fun r _ => ?_
    obtain ⟨data, pad_len⟩ := r
    dsimp only
    split
    · exact safe_err _
    · obtain ⟨n, hn⟩ := read_u31_of_le data 0 (by omega)
      rw [hn, ok_bind, sliceFrom_of_le (by omega), ok_bind]
      exact safe_ok _
  | Ping =>
    dsimp only
    split
    · exact safe_err _
    · split
      · exact safe_err _
      · exact safe_ok _
  | GoAway =>
    dsimp only
    split
    · exact safe_err _
    · split
      · exact safe_err _
      · obtain ⟨n, hn⟩ := read_u31_of_le payload 0 (by omega)
        obtain ⟨e, he⟩ := read_u32_of_le payload 4 (by omega)
        rw [hn, ok_bind, he, ok_bind, sliceFrom_of_le (by omega), ok_bind]
        exact safe_ok _
  | WindowUpdate =>
    dsimp only
    split
    · exact safe_err _
    · obtain ⟨n, hn⟩ := read_u31_of_le payload 0 (by omega)
      rw [hn, ok_bind]
      exact safe_ok _
  | Continuation => exact safe_ok _
  | Unknown frame_type => exact safe_ok _

/-- Decoding never reads outside the buffer. -/
theorem decode_frame_safe (buf : Bytes) : (decode_frame buf).Safe := by
  unfold decode_frame
  refine safe_bind (decode_frame_header_safe buf) fun hdr _ => ?_
  dsimp only
  split
  · exact safe_err _
  · rw [slice_of_le (by omega) (by omega), ok_bind]
    exact safe_bind (decode_payload_safe _ _) fun _ _ => safe_ok _

/-! ## Numbers -/

/-- Masking the top bit reads a number without it. -/
theorem beNat_masked (b0 b1 b2 b3 : UInt8) :
    beNat [b0 &&& 0x7f, b1, b2, b3] = beNat [b0, b1, b2, b3] % 2 ^ 31 := by
  have hmask : (b0 &&& 0x7f).toNat = b0.toNat % 128 := by
    rw [UInt8.toNat_and]
    exact Nat.and_two_pow_sub_one_eq_mod b0.toNat 7
  have h1 := b1.toNat_lt
  have h2 := b2.toNat_lt
  have h3 := b3.toNat_lt
  simp only [beNat_cons, hmask, List.length_cons, List.length_nil]
  have hnil : beNat [] = 0 := rfl
  rw [hnil]
  omega

theorem four_bytes {n : Nat} (more : Bytes) : ∃ b0 b1 b2 b3, toBe 4 n = [b0, b1, b2, b3] ∧
    toBe 4 n ++ more = b0 :: b1 :: b2 :: b3 :: more := by
  exact ⟨_, _, _, _, rfl, rfl⟩

theorem read_u32_toBe (n : Nat) (more : Bytes) : read_u32 (toBe 4 n ++ more) 0 = .ok (n % 2 ^ 32) := by
  obtain ⟨b0, b1, b2, b3, heq, happ⟩ := four_bytes (n := n) more
  rw [happ]
  have hval : read_u32 (b0 :: b1 :: b2 :: b3 :: more) 0 = .ok (beNat [b0, b1, b2, b3]) := rfl
  rw [hval, ← heq, beNat_toBe]
  rfl

theorem read_u31_toBe (n : Nat) (more : Bytes) : read_u31 (toBe 4 n ++ more) 0 = .ok (n % 2 ^ 31) := by
  obtain ⟨b0, b1, b2, b3, heq, happ⟩ := four_bytes (n := n) more
  rw [happ]
  have hval : read_u31 (b0 :: b1 :: b2 :: b3 :: more) 0 = .ok (beNat [b0 &&& 0x7f, b1, b2, b3]) :=
    rfl
  rw [hval, beNat_masked, ← heq, beNat_toBe]
  congr 1
  omega

theorem read_u32_behind (m n : Nat) (more : Bytes) :
    read_u32 (toBe 4 m ++ (toBe 4 n ++ more)) 4 = .ok (n % 2 ^ 32) := by
  obtain ⟨a0, a1, a2, a3, ha, -⟩ := four_bytes (n := m) []
  have hval : read_u32 ([a0, a1, a2, a3] ++ (toBe 4 n ++ more)) 4 = read_u32 (toBe 4 n ++ more) 0 :=
    rfl
  rw [ha, hval, read_u32_toBe]

/-- The checked reading of a header is the plain one. -/
theorem decode_frame_header_eq {buf : Bytes} (h : 9 ≤ buf.length) :
    decode_frame_header buf = .ok (h2.decode_frame_header buf) := by
  match buf, h with
  | b0 :: b1 :: b2 :: b3 :: b4 :: b5 :: b6 :: b7 :: b8 :: rest, _ =>
    have hread : read_u31 (b0 :: b1 :: b2 :: b3 :: b4 :: b5 :: b6 :: b7 :: b8 :: rest) 5 =
        .ok (beNat [b5 &&& 0x7f, b6, b7, b8]) := rfl
    unfold decode_frame_header
    rw [if_neg (by simp)]
    rw [index_of_lt (by simp), ok_bind, index_of_lt (by simp), ok_bind, index_of_lt (by simp),
      ok_bind, index_of_lt (by simp), ok_bind, index_of_lt (by simp), ok_bind, hread, ok_bind,
      beNat_masked]
    rfl

/-! ## Round trips -/

theorem decode_frame_parts {hdr : H2FrameHeader} {header payload : Bytes}
    (hheader : encode_frame_header hdr = .ok header) (hlen : hdr.length = payload.length)
    (hsize : payload.length < 2 ^ 24)
    (htype : FrameType.of_byte hdr.frame_type.to_byte = hdr.frame_type) (more : Bytes) :
    decode_frame (header ++ payload ++ more) = (do
      let frame ← decode_payload hdr payload
      pure (frame, 9 + payload.length)) := by
  unfold encode_frame_header at hheader
  split at hheader
  · cases hheader
  rename_i hid
  cases hheader
  obtain ⟨a0, a1, a2, ha⟩ : ∃ a0 a1 a2, toBe 3 hdr.length = [a0, a1, a2] := ⟨_, _, _, rfl⟩
  obtain ⟨c0, c1, c2, c3, hc, -⟩ := four_bytes (n := hdr.stream_id) []
  have hlength : beNat [a0, a1, a2] = hdr.length := by
    rw [← ha, beNat_toBe]
    exact Nat.mod_eq_of_lt (by omega)
  have hid : beNat [c0, c1, c2, c3] % 2 ^ 31 = hdr.stream_id := by
    rw [← hc, beNat_toBe]
    omega
  rw [ha, hc]
  have hread : decode_frame_header ([a0, a1, a2] ++ [hdr.frame_type.to_byte, hdr.flags] ++
      [c0, c1, c2, c3] ++ payload ++ more) = .ok hdr := by
    rw [decode_frame_header_eq (by simp only [List.length_append, List.length_cons]; omega)]
    have hplain : h2.decode_frame_header ([a0, a1, a2] ++ [hdr.frame_type.to_byte, hdr.flags] ++
        [c0, c1, c2, c3] ++ payload ++ more) =
          { length := beNat [a0, a1, a2], frame_type := .of_byte hdr.frame_type.to_byte
            flags := hdr.flags, stream_id := beNat [c0, c1, c2, c3] % 2 ^ 31 } := rfl
    rw [hplain, hlength, hid, htype]
  have hslice : (slice ([a0, a1, a2] ++ [hdr.frame_type.to_byte, hdr.flags] ++ [c0, c1, c2, c3] ++
      payload ++ more) 9 (9 + payload.length) : Outcome Error Bytes) = .ok payload :=
    packet.slice_middle _ _ _ rfl rfl
  unfold decode_frame
  rw [hread, ok_bind]
  dsimp only
  have hfits : 9 + payload.length ≤ ([a0, a1, a2] ++ [hdr.frame_type.to_byte, hdr.flags] ++
      [c0, c1, c2, c3] ++ payload ++ more).length := by
    simp only [List.length_append, List.length_cons, List.length_nil]
    omega
  rw [hlen, if_neg (Nat.not_lt.mpr hfits), hslice, ok_bind]

/-- A priority whose dependency leaves room for the exclusive bit reads back. -/
theorem read_priority_bytes {p : H2Priority} (h : p.dependency < 2 ^ 31) (more : Bytes) :
    read_priority (priority_bytes p ++ more) = .ok p := by
  obtain ⟨value, hvalue, hlow, hbit⟩ : ∃ value,
      (if p.exclusive then p.dependency ||| 0x80000000 else p.dependency) = value ∧
        value % 2 ^ 31 = p.dependency ∧ (128 ≤ value / 256 ^ 3 % 256 ↔ p.exclusive = true) := by
    refine ⟨_, rfl, ?_, ?_⟩
    · cases p.exclusive with
      | false => exact Nat.mod_eq_of_lt h
      | true =>
        have hor := Nat.two_pow_add_eq_or_of_lt h 1
        rw [if_pos rfl, Nat.or_comm, ← hor]
        omega
    · cases p.exclusive with
      | false =>
        simp only [Bool.false_eq_true, if_false, iff_false]
        omega
      | true =>
        have hor := Nat.two_pow_add_eq_or_of_lt h 1
        rw [if_pos rfl, Nat.or_comm, ← hor]
        simp only [iff_true]
        omega
  have hbytes : priority_bytes p ++ more = toBe 4 value ++ (p.weight :: more) := by
    rw [priority_bytes, hvalue, List.append_assoc]
    rfl
  have hfirst : (toBe 4 value ++ (p.weight :: more))[0]? = some (UInt8.ofNat (value / 256 ^ 3)) := rfl
  have hweight : (toBe 4 value ++ (p.weight :: more))[4]? = some p.weight := rfl
  rw [hbytes]
  unfold read_priority
  rw [packet.index_of_getElem? hfirst, ok_bind, read_u31_toBe, ok_bind,
    packet.index_of_getElem? hweight, ok_bind, hlow]
  have hexclusive : decide (UInt8.ofNat (value / 256 ^ 3) &&& 0x80 ≠ 0) = p.exclusive := by
    rw [Bool.eq_iff_iff, decide_eq_true_eq, ← hbit, (hpack.first_byte _).1, UInt8.toNat_ofNat']
  rw [hexclusive]
  rfl

theorem read_priority_only {p : H2Priority} (h : p.dependency < 2 ^ 31) :
    read_priority (priority_bytes p) = .ok p := by
  have hread := read_priority_bytes h []
  rwa [List.append_nil] at hread

@[simp] theorem priority_bytes_length (p : H2Priority) : (priority_bytes p).length = 5 := by
  rw [priority_bytes, List.length_append, toBe_length]
  rfl

theorem strip_padding_plain {payload : Bytes} {flags : UInt8} (h : flags &&& FLAG_PADDED = 0) :
    strip_padding payload flags = .ok (payload, 0) := by
  rw [strip_padding, if_neg (not_not.mpr h)]

/-- The flags an encoder sets are the ones a decoder finds. -/
theorem end_stream_flag (b : Bool) : (if b then FLAG_END_STREAM else 0) &&& FLAG_PADDED = 0 ∧
    ((if b then FLAG_END_STREAM else 0) &&& FLAG_END_STREAM != 0) = b := by
  cases b <;> decide

theorem end_headers_flag (b : Bool) : (if b then FLAG_END_HEADERS else 0) &&& FLAG_PADDED = 0 ∧
    ((if b then FLAG_END_HEADERS else 0) &&& FLAG_END_HEADERS != 0) = b := by
  cases b <;> decide

theorem ack_flag (b : Bool) : ((if b then FLAG_ACK else 0) &&& FLAG_ACK != 0) = b := by
  cases b <;> decide

/-- The three flags of a HEADERS frame. -/
def headers_flags (end_stream end_headers priority : Bool) : UInt8 :=
  (if end_stream then FLAG_END_STREAM else 0) ||| (if end_headers then FLAG_END_HEADERS else 0) |||
    (if priority then FLAG_PRIORITY else 0)

theorem headers_flags_read (end_stream end_headers priority : Bool) :
    headers_flags end_stream end_headers priority &&& FLAG_PADDED = 0 ∧
    (headers_flags end_stream end_headers priority &&& FLAG_END_STREAM != 0) = end_stream ∧
    (headers_flags end_stream end_headers priority &&& FLAG_END_HEADERS != 0) = end_headers ∧
    (headers_flags end_stream end_headers priority &&& FLAG_PRIORITY ≠ 0 ↔ priority = true) := by
  cases end_stream <;> cases end_headers <;> cases priority <;> decide

theorem headers_payload_parts {priority : Option H2Priority} {flags : UInt8} (fragment : Bytes)
    (hflags : flags &&& FLAG_PRIORITY ≠ 0 ↔ priority.isSome = true)
    (h : ∀ p ∈ priority, p.dependency < 2 ^ 31) :
    headers_payload ((priority.map priority_bytes).getD [] ++ fragment) flags =
      .ok (priority, fragment) := by
  unfold headers_payload
  cases priority with
  | none =>
    have hnot : ¬flags &&& FLAG_PRIORITY ≠ 0 := fun hset => by cases hflags.mp hset
    rw [if_neg hnot]
    rfl
  | some p =>
    have hread := read_priority_bytes (h p rfl) fragment
    have hdrop : (priority_bytes p ++ fragment).drop 5 = fragment := List.drop_left' (by simp)
    rw [if_pos (hflags.mpr rfl), Option.map_some, Option.getD_some, if_neg (by simp), hread, ok_bind,
      sliceFrom_of_le (by simp), ok_bind, hdrop]
    rfl

/-- A frame the codec can write: its numbers fit their fields, PRIORITY and RST_STREAM are on a
stream, a PING has eight bytes. -/
def Fits : H2Frame → Prop
  | .Data stream_id payload _ => stream_id < 2 ^ 31 ∧ payload.length < 2 ^ 24
  | .Headers stream_id fragment _ _ priority =>
    stream_id < 2 ^ 31 ∧ (∀ p ∈ priority, p.dependency < 2 ^ 31) ∧
      (if priority.isSome then 5 else 0) + fragment.length < 2 ^ 24
  | .Priority stream_id p => 0 < stream_id ∧ stream_id < 2 ^ 31 ∧ p.dependency < 2 ^ 31
  | .RstStream stream_id error_code => 0 < stream_id ∧ stream_id < 2 ^ 31 ∧ error_code < 2 ^ 32
  | .Settings _ params => params.length < 2 ^ 24
  | .PushPromise stream_id promised_id fragment _ =>
    stream_id < 2 ^ 31 ∧ promised_id < 2 ^ 31 ∧ 4 + fragment.length < 2 ^ 24
  | .Ping data _ => data.length = 8
  | .GoAway last_stream_id error_code debug =>
    last_stream_id < 2 ^ 31 ∧ error_code < 2 ^ 32 ∧ 8 + debug.length < 2 ^ 24
  | .WindowUpdate stream_id increment => stream_id < 2 ^ 31 ∧ increment < 2 ^ 31
  | .Continuation stream_id fragment _ => stream_id < 2 ^ 31 ∧ fragment.length < 2 ^ 24
  | .Unknown .. => False

theorem decode_payload_parts {frame : H2Frame} (h : Fits frame) {hdr : H2FrameHeader}
    {payload : Bytes} (hparts : frame.parts = some (hdr, payload)) :
    decode_payload hdr payload = .ok frame ∧ hdr.length = payload.length ∧
      payload.length < 2 ^ 24 ∧ FrameType.of_byte hdr.frame_type.to_byte = hdr.frame_type := by
  cases frame with
  | Data stream_id data end_stream =>
    cases hparts
    refine ⟨?_, rfl, h.2, rfl⟩
    obtain ⟨hpad, hend⟩ := end_stream_flag end_stream
    unfold decode_payload H2FrameHeader.has
    dsimp only
    rw [strip_padding_plain hpad, ok_bind, hend]
    rfl
  | Headers stream_id fragment end_stream end_headers priority =>
    cases hparts
    obtain ⟨hpad, hend, hheaders, hpri⟩ :=
      headers_flags_read end_stream end_headers priority.isSome
    refine ⟨?_, rfl, ?_, rfl⟩
    · have hread := headers_payload_parts fragment hpri h.2.1
      rw [headers_flags] at hpad hend hheaders hread
      unfold decode_payload H2FrameHeader.has
      dsimp only
      rw [strip_padding_plain hpad, ok_bind, hend, hheaders]
      dsimp only
      rw [hread, ok_bind]
      rfl
    · have hsize := h.2.2
      cases priority with
      | none => simpa using hsize
      | some p => simpa using hsize
  | Priority stream_id p =>
    cases hparts
    refine ⟨?_, by simp, by simp, rfl⟩
    unfold decode_payload
    dsimp only
    rw [if_neg (Nat.pos_iff_ne_zero.mp h.1), if_neg (by simp), read_priority_only h.2.2, ok_bind]
    rfl
  | RstStream stream_id error_code =>
    cases hparts
    refine ⟨?_, rfl, by simp, rfl⟩
    have hread := read_u32_toBe error_code []
    rw [List.append_nil, Nat.mod_eq_of_lt h.2.2] at hread
    unfold decode_payload
    dsimp only
    rw [if_neg (Nat.pos_iff_ne_zero.mp h.1), if_neg (by simp), hread, ok_bind]
    rfl
  | Settings ack params =>
    cases hparts
    refine ⟨?_, rfl, h, rfl⟩
    unfold decode_payload H2FrameHeader.has
    dsimp only
    rw [if_neg (by simp), ack_flag]
  | PushPromise stream_id promised_id fragment end_headers =>
    cases hparts
    obtain ⟨hpad, hend⟩ := end_headers_flag end_headers
    refine ⟨?_, rfl, ?_, rfl⟩
    · have hread := read_u31_toBe (promised_id % 2 ^ 31) fragment
      have hdrop : (toBe 4 (promised_id % 2 ^ 31) ++ fragment).drop 4 = fragment :=
        List.drop_left' (by simp)
      rw [Nat.mod_mod, Nat.mod_eq_of_lt h.2.1] at hread
      rw [Nat.mod_eq_of_lt h.2.1] at hdrop
      unfold decode_payload H2FrameHeader.has
      dsimp only
      rw [strip_padding_plain hpad, ok_bind, hend]
      dsimp only
      rw [Nat.mod_eq_of_lt h.2.1, if_neg (by simp), hread, ok_bind, sliceFrom_of_le (by simp),
        ok_bind, hdrop]
      rfl
    · simpa using h.2.2
  | Ping payload ack =>
    cases hparts
    have hlen : payload.length = 8 := h
    refine ⟨?_, hlen.symm, by omega, rfl⟩
    unfold decode_payload H2FrameHeader.has
    dsimp only
    rw [if_neg (by simp), if_neg (not_not.mpr hlen), ack_flag]
  | GoAway last_stream_id error_code debug =>
    cases hparts
    refine ⟨?_, rfl, ?_, rfl⟩
    · have hid := read_u31_toBe (last_stream_id % 2 ^ 31) (toBe 4 error_code ++ debug)
      have hcode := read_u32_behind last_stream_id error_code debug
      have hdrop : (toBe 4 last_stream_id ++ (toBe 4 error_code ++ debug)).drop 8 = debug := by
        rw [← List.append_assoc]
        exact List.drop_left' (by simp)
      rw [Nat.mod_mod, Nat.mod_eq_of_lt h.1] at hid
      rw [Nat.mod_eq_of_lt h.2.1] at hcode
      unfold decode_payload
      dsimp only
      rw [Nat.mod_eq_of_lt h.1, List.append_assoc, if_neg (by simp), if_neg (by simp; omega), hid,
        ok_bind, hcode, ok_bind, sliceFrom_of_le (by simp; omega), ok_bind, hdrop]
      rfl
    · have hsize := h.2.2
      simp only [List.length_append, toBe_length]
      omega
  | WindowUpdate stream_id increment =>
    cases hparts
    refine ⟨?_, rfl, by simp, rfl⟩
    have hread := read_u31_toBe increment []
    rw [List.append_nil, Nat.mod_eq_of_lt h.2] at hread
    unfold decode_payload
    dsimp only
    rw [Nat.mod_eq_of_lt h.2, if_neg (by simp), hread, ok_bind]
    rfl
  | Continuation stream_id fragment end_headers =>
    cases hparts
    refine ⟨?_, rfl, h.2, rfl⟩
    unfold decode_payload H2FrameHeader.has
    dsimp only
    rw [(end_headers_flag end_headers).2]
  | Unknown frame_type stream_id flags payload => exact h.elim

/-- What the encoder writes of a frame decodes to the frame, whatever is behind it. -/
theorem decode_encode_frame {frame : H2Frame} (h : Fits frame) {cap : Nat} {bs : Bytes}
    (hencode : encode_frame frame cap = .ok bs) (more : Bytes) :
    decode_frame (bs ++ more) = .ok (frame, bs.length) := by
  unfold encode_frame at hencode
  split at hencode
  · rename_i hnone
    cases frame <;> first | exact h.elim | cases hnone
  · rename_i hdr payload hparts
    split at hencode
    · cases hencode
    · obtain ⟨header, hheader, hencode⟩ := except_bind_eq_ok hencode
      cases hencode
      obtain ⟨hpayload, hlen, hsize, htype⟩ := decode_payload_parts h hparts
      have hheader_len : header.length = 9 := by
        unfold encode_frame_header at hheader
        split at hheader
        · cases hheader
        · cases hheader
          simp
      rw [decode_frame_parts hheader hlen hsize htype, hpayload, ok_bind, List.length_append,
        hheader_len]
      rfl

end milli_http.h2.codec
