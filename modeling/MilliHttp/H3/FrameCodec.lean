-- The codec of HTTP/3 frames (h3/frame.rs): what is written reads back with anything behind it and
-- no part of it reads at all, every slice is in bounds, and the loops over frames end.
import MilliHttp.H3.Frame

open bytes

namespace milli_http.h3

open varint Outcome

/-! ## The other encoders -/

/-- A frame whose payload is one varint. -/
def encode_varint_payload_frame (frame_type value cap : Nat) : Except Error Bytes := do
  let payload_size := varint_len value
  let needed := varint_len frame_type + varint_len payload_size + payload_size
  if cap < needed then .error (.BufferTooSmall needed)
  else do
    let frame_type ← encode_varint frame_type cap
    let len ← encode_varint payload_size (cap - frame_type.length)
    let value ← encode_varint value (cap - frame_type.length - len.length)
    .ok (frame_type ++ len ++ value)

def encode_push_promise_frame (push_id : Nat) (header_block : Bytes) (cap : Nat) :
    Except Error Bytes := do
  let payload_len := varint_len push_id + header_block.length
  let needed := varint_len H3_FRAME_PUSH_PROMISE + varint_len payload_len + payload_len
  if cap < needed then .error (.BufferTooSmall needed)
  else do
    let frame_type ← encode_varint H3_FRAME_PUSH_PROMISE cap
    let len ← encode_varint payload_len (cap - frame_type.length)
    let push_id ← encode_varint push_id (cap - frame_type.length - len.length)
    .ok (frame_type ++ len ++ push_id ++ header_block)

/-- Encodes a frame into `cap` bytes; an unknown one is only ever received. -/
def encode_h3_frame (frame : H3Frame) (cap : Nat) : Except Error Bytes :=
  match frame with
  | .Data data => encode_simple_frame H3_FRAME_DATA data cap
  | .Headers data => encode_simple_frame H3_FRAME_HEADERS data cap
  | .CancelPush push_id => encode_varint_payload_frame H3_FRAME_CANCEL_PUSH push_id cap
  | .Settings settings => encode_settings_frame settings cap
  | .PushPromise push_id header_block => encode_push_promise_frame push_id header_block cap
  | .GoAway stream_id => encode_varint_payload_frame H3_FRAME_GOAWAY stream_id cap
  | .MaxPushId push_id => encode_varint_payload_frame H3_FRAME_MAX_PUSH_ID push_id cap
  | .Unknown _ => .ok []

/-! ## Reading with the slices of the source -/

namespace checked

/-- `decode_varint` with its indexing; a length other than the four is unreachable. -/
def decode_varint (buf : Bytes) : Outcome Error (Nat × Nat) :=
  if buf = [] then .err (.BufferTooSmall 1)
  else do
    let first ← index buf 0
    let len := 2 ^ (first >>> 6).toNat
    if buf.length < len then .err (.BufferTooSmall len)
    else if len = 1 ∨ len = 2 ∨ len = 4 ∨ len = 8 then do
      let tail ← slice buf 1 len
      .ok (beNat ((first &&& 0x3f) :: tail), len)
    else .panic

/-- A varint whose errors become another one. -/
def varint_or (e : Error) (buf : Bytes) : Outcome Error (Nat × Nat) :=
  match decode_varint buf with
  | .err _ => .err e
  | x => x

def read_settings : Nat → Bytes → H3Settings → Outcome Error H3Settings
  | 0, _, settings => .ok settings
  | fuel + 1, payload, settings =>
    if payload = [] then .ok settings
    else do
      let (id, id_len) ← varint_or (.Http3 .SettingsError) payload
      let payload ← sliceFrom payload id_len
      let (value, val_len) ← varint_or (.Http3 .SettingsError) payload
      let payload ← sliceFrom payload val_len
      read_settings fuel payload (settings.set id value)

def decode_id (payload : Bytes) : Outcome Error Nat := do
  let (id, id_len) ← varint_or (.Http3 .FrameError) payload
  if id_len ≠ payload.length then .err (.Http3 .FrameError) else .ok id

def decode_payload (frame_type : Nat) (payload : Bytes) : Outcome Error H3Frame :=
  if frame_type = H3_FRAME_DATA then .ok (.Data payload)
  else if frame_type = H3_FRAME_HEADERS then .ok (.Headers payload)
  else if frame_type = H3_FRAME_CANCEL_PUSH then do
    let id ← decode_id payload
    .ok (.CancelPush id)
  else if frame_type = H3_FRAME_SETTINGS then do
    let settings ← read_settings payload.length payload {}
    .ok (.Settings settings)
  else if frame_type = H3_FRAME_PUSH_PROMISE then do
    let (push_id, id_len) ← varint_or (.Http3 .FrameError) payload
    let header_block ← sliceFrom payload id_len
    .ok (.PushPromise push_id header_block)
  else if frame_type = H3_FRAME_GOAWAY then do
    let id ← decode_id payload
    .ok (.GoAway id)
  else if frame_type = H3_FRAME_MAX_PUSH_ID then do
    let id ← decode_id payload
    .ok (.MaxPushId id)
  else .ok (.Unknown frame_type)

/-- `decode_h3_frame` with its slices. -/
def decode_h3_frame (buf : Bytes) : Outcome Error (H3Frame × Nat) := do
  let (frame_type, type_len) ← decode_varint buf
  let rest ← sliceFrom buf type_len
  let (payload_len, len_len) ← decode_varint rest
  let header_len := type_len + len_len
  let rest ← sliceFrom buf header_len
  if rest.length < payload_len then .err (.BufferTooSmall (header_len + payload_len))
  else do
    let payload ← slice rest 0 payload_len
    let frame ← decode_payload frame_type payload
    .ok (frame, header_len + payload_len)

/-! ## No slice is out of bounds -/

variable {buf payload : Bytes}

theorem decode_varint_eq (buf : Bytes) :
    decode_varint buf = .ofExcept (varint.decode_varint buf) := by
  cases buf with
  | nil => rfl
  | cons first rest =>
    have hbits : (first >>> 6).toNat ≤ 3 := by
      have hfirst := first.toNat_lt
      have hshift : (6 : UInt8).toNat % 8 = 6 := rfl
      rw [UInt8.toNat_shiftRight, hshift, Nat.shiftRight_eq_div_pow]
      omega
    have hlens : 2 ^ (first >>> 6).toNat = 1 ∨ 2 ^ (first >>> 6).toNat = 2 ∨
        2 ^ (first >>> 6).toNat = 4 ∨ 2 ^ (first >>> 6).toNat = 8 := by
      have hall : ∀ n : Fin 4, 2 ^ n.val = 1 ∨ 2 ^ n.val = 2 ∨ 2 ^ n.val = 4 ∨ 2 ^ n.val = 8 := by
        decide
      exact hall ⟨_, Nat.lt_succ_of_le hbits⟩
    have hpos := Nat.two_pow_pos (first >>> 6).toNat
    rw [decode_varint, if_neg (List.cons_ne_nil _ _), index_of_lt (by simp), ok_bind,
      varint.decode_varint]
    dsimp only [List.getElem_cons_zero]
    rw [if_pos hlens]
    split
    · rfl
    · rw [slice_of_le (by omega) (by omega)]
      rfl

theorem varint_or_eq (e : Error) (buf : Bytes) :
    varint_or e buf = .ofExcept ((varint.decode_varint buf).mapError fun _ => e) := by
  rw [varint_or, decode_varint_eq]
  cases varint.decode_varint buf <;> rfl

theorem of_mapError {e : Error} {r : Nat × Nat}
    (h : ((varint.decode_varint buf).mapError fun _ => e) = .ok r) :
    varint.decode_varint buf = .ok r := by
  cases hx : varint.decode_varint buf with
  | ok r' =>
    rw [hx] at h
    cases h
    rfl
  | error e' =>
    rw [hx] at h
    cases h

theorem read_settings_eq (fuel : Nat) (payload : Bytes) (settings : H3Settings) :
    read_settings fuel payload settings = .ofExcept (h3.read_settings fuel payload settings) := by
  induction fuel generalizing payload settings with
  | zero => rfl
  | succ fuel ih =>
    rw [read_settings, h3.read_settings]
    split
    · rfl
    rw [varint_or_eq]
    cases hid : (varint.decode_varint payload).mapError fun _ => Error.Http3 .SettingsError with
    | error e => rfl
    | ok r =>
      obtain ⟨id, id_len⟩ := r
      have hin := (decode_varint_consumed (of_mapError hid)).2
      rw [ofExcept_ok, ok_bind, except_ok_bind]
      dsimp only
      rw [sliceFrom_of_le hin, ok_bind, varint_or_eq]
      cases hvalue : (varint.decode_varint (payload.drop id_len)).mapError
          fun _ => Error.Http3 .SettingsError with
      | error e => rfl
      | ok r =>
        obtain ⟨value, val_len⟩ := r
        have hin' := (decode_varint_consumed (of_mapError hvalue)).2
        rw [ofExcept_ok, ok_bind, except_ok_bind]
        dsimp only
        rw [sliceFrom_of_le hin', ok_bind, ih]

theorem decode_id_eq (payload : Bytes) :
    decode_id payload = .ofExcept (h3.decode_id payload) := by
  rw [decode_id, h3.decode_id, varint_or_eq]
  cases (varint.decode_varint payload).mapError fun _ => Error.Http3 .FrameError with
  | error e => rfl
  | ok r =>
    rw [ofExcept_ok, ok_bind, except_ok_bind]
    dsimp only
    split <;> rfl

theorem ofExcept_map {α β : Type} (x : Except Error α) (f : α → β) :
    (ofExcept x >>= fun a => .ok (f a)) = .ofExcept (x.map f) := by
  cases x <;> rfl

theorem decode_payload_eq (frame_type : Nat) (payload : Bytes) :
    decode_payload frame_type payload = .ofExcept (h3.decode_payload frame_type payload) := by
  have hid : ∀ f : Nat → H3Frame, (decode_id payload >>= fun id => .ok (f id)) =
      ofExcept ((h3.decode_id payload).map f) := fun f => by
    rw [decode_id_eq, ofExcept_map]
  unfold decode_payload h3.decode_payload
  split
  · rfl
  split
  · rfl
  split
  · exact hid _
  split
  · rw [read_settings_eq, ofExcept_map]
    rfl
  split
  · rw [varint_or_eq]
    cases hpush : (varint.decode_varint payload).mapError fun _ => Error.Http3 .FrameError with
    | error e => rfl
    | ok r =>
      rw [ofExcept_ok, ok_bind, except_ok_bind]
      dsimp only
      rw [sliceFrom_of_le (decode_varint_consumed (of_mapError hpush)).2]
      rfl
  split
  · exact hid _
  split
  · exact hid _
  · rfl

/-- Every slice the decoder takes is in bounds. -/
theorem decode_h3_frame_eq (buf : Bytes) :
    decode_h3_frame buf = .ofExcept (h3.decode_h3_frame buf) := by
  rw [decode_h3_frame, h3.decode_h3_frame, decode_varint_eq]
  cases htype : varint.decode_varint buf with
  | error e => rfl
  | ok r =>
    obtain ⟨frame_type, type_len⟩ := r
    have hin := (decode_varint_consumed htype).2
    rw [ofExcept_ok, ok_bind, except_ok_bind]
    dsimp only
    rw [sliceFrom_of_le hin, ok_bind, decode_varint_eq]
    cases hlen : varint.decode_varint (buf.drop type_len) with
    | error e => rfl
    | ok r =>
      obtain ⟨payload_len, len_len⟩ := r
      have hin' := (decode_varint_consumed hlen).2
      rw [List.length_drop] at hin'
      rw [ofExcept_ok, ok_bind, except_ok_bind]
      dsimp only
      rw [sliceFrom_of_le (by omega), ok_bind]
      split
      · rfl
      next hfits =>
        rw [slice_of_le (Nat.zero_le _) (by omega), ok_bind, decode_payload_eq,
          List.drop_zero, Nat.sub_zero]
        generalize (buf.drop (type_len + len_len)).take payload_len = payload
        cases h3.decode_payload frame_type payload <;> rfl

end checked

/-! ## Round trips -/

/-- The bytes of a frame: its type, the length of its payload, and the payload. -/
def frame_bytes (frame_type : Nat) (payload : Bytes) : Bytes :=
  varint_bytes frame_type ++ varint_bytes payload.length ++ payload

variable {frame : H3Frame} {frame_type cap n : Nat} {payload bs : Bytes}

theorem encode_varint_eq {value : Nat} (h : encode_varint value cap = .ok bs) :
    bs = varint_bytes value ∧ value ≤ MAX_VARINT := by
  unfold encode_varint at h
  split at h
  · cases h
  split at h
  · cases h
  · cases h
    exact ⟨rfl, by omega⟩

/-- A frame of a known type reads back as what its payload reads as. -/
theorem decode_frame_bytes (htype : frame_type ≤ MAX_VARINT) (hlen : payload.length ≤ MAX_VARINT)
    (hpayload : decode_payload frame_type payload = .ok frame) (more : Bytes) :
    decode_h3_frame (frame_bytes frame_type payload ++ more) =
      .ok (frame, (frame_bytes frame_type payload).length) := by
  have htype_len := varint_bytes_length frame_type
  have hlen_len := varint_bytes_length payload.length
  have hparts : frame_bytes frame_type payload ++ more =
      varint_bytes frame_type ++ (varint_bytes payload.length ++ (payload ++ more)) := by
    simp only [frame_bytes, List.append_assoc]
  have hbehind : (frame_bytes frame_type payload ++ more).drop
      (varint_len frame_type + varint_len payload.length) = payload ++ more := by
    rw [hparts, ← List.drop_drop, List.drop_left' htype_len, List.drop_left' hlen_len]
  refine decode_h3_frame_eq_ok.mpr ⟨frame_type, varint_len frame_type, payload.length,
    varint_len payload.length, ?_, ?_, ?_, ?_, ?_⟩
  · rw [hparts]
    exact decode_varint_bytes htype _
  · rw [hparts, List.drop_left' htype_len]
    exact decode_varint_bytes hlen _
  · rw [hbehind, List.length_append]
    omega
  · rw [hbehind, List.take_left' rfl]
    exact hpayload
  · simp only [frame_bytes, List.length_append, varint_bytes_length]

/-- The bytes of an encoder whose payload is a byte string. -/
theorem encode_simple_frame_eq (h : encode_simple_frame frame_type payload cap = .ok bs) :
    bs = frame_bytes frame_type payload ∧ payload.length ≤ MAX_VARINT := by
  unfold encode_simple_frame at h
  dsimp only at h
  split at h
  · cases h
  obtain ⟨a, ha, h⟩ := except_bind_eq_ok h
  obtain ⟨b, hb, h⟩ := except_bind_eq_ok h
  cases h
  obtain ⟨rfl, -⟩ := encode_varint_eq ha
  obtain ⟨rfl, hlen⟩ := encode_varint_eq hb
  exact ⟨rfl, hlen⟩

theorem encode_varint_payload_frame_eq {value : Nat}
    (h : encode_varint_payload_frame frame_type value cap = .ok bs) :
    bs = frame_bytes frame_type (varint_bytes value) ∧ value ≤ MAX_VARINT := by
  unfold encode_varint_payload_frame at h
  dsimp only at h
  split at h
  · cases h
  obtain ⟨a, ha, h⟩ := except_bind_eq_ok h
  obtain ⟨b, hb, h⟩ := except_bind_eq_ok h
  obtain ⟨c, hc, h⟩ := except_bind_eq_ok h
  cases h
  obtain ⟨rfl, -⟩ := encode_varint_eq ha
  obtain ⟨rfl, -⟩ := encode_varint_eq hb
  obtain ⟨rfl, hvalue⟩ := encode_varint_eq hc
  refine ⟨?_, hvalue⟩
  rw [frame_bytes, varint_bytes_length]

theorem encode_push_promise_frame_eq {push_id : Nat} {header_block : Bytes}
    (h : encode_push_promise_frame push_id header_block cap = .ok bs) :
    bs = frame_bytes H3_FRAME_PUSH_PROMISE (varint_bytes push_id ++ header_block) ∧
      push_id ≤ MAX_VARINT ∧ varint_len push_id + header_block.length ≤ MAX_VARINT := by
  unfold encode_push_promise_frame at h
  dsimp only at h
  split at h
  · cases h
  obtain ⟨a, ha, h⟩ := except_bind_eq_ok h
  obtain ⟨b, hb, h⟩ := except_bind_eq_ok h
  obtain ⟨c, hc, h⟩ := except_bind_eq_ok h
  cases h
  obtain ⟨rfl, -⟩ := encode_varint_eq ha
  obtain ⟨rfl, hlen⟩ := encode_varint_eq hb
  obtain ⟨rfl, hid⟩ := encode_varint_eq hc
  refine ⟨?_, hid, hlen⟩
  rw [frame_bytes, List.length_append, varint_bytes_length]
  simp only [List.append_assoc]

/-- A payload of one varint reads back. -/
theorem decode_id_bytes {value : Nat} (h : value ≤ MAX_VARINT) :
    decode_id (varint_bytes value) = .ok value := by
  have hread := decode_varint_bytes h []
  rw [List.append_nil] at hread
  rw [decode_id, hread]
  dsimp only [Except.mapError]
  rw [except_ok_bind]
  dsimp only
  rw [varint_bytes_length]
  exact if_neg fun hne => hne rfl

/-! ## Settings -/

/-- The pairs of a SETTINGS frame. -/
def pair_bytes (pairs : List (Nat × Nat)) : Bytes :=
  (pairs.map fun s => varint_bytes s.1 ++ varint_bytes s.2).flatten

def PairsFit (pairs : List (Nat × Nat)) : Prop :=
  ∀ s ∈ pairs, s.1 ≤ MAX_VARINT ∧ s.2 ≤ MAX_VARINT

theorem pair_bytes_cons (id value : Nat) (rest : List (Nat × Nat)) :
    pair_bytes ((id, value) :: rest) =
      varint_bytes id ++ (varint_bytes value ++ pair_bytes rest) := by
  simp [pair_bytes]

theorem pair_bytes_length (pairs : List (Nat × Nat)) :
    pairs.length ≤ (pair_bytes pairs).length := by
  induction pairs with
  | nil => exact Nat.le_refl _
  | cons s rest ih =>
    have := varint_len_pos s.1
    rw [pair_bytes_cons, List.length_append, List.length_append, varint_bytes_length,
      List.length_cons]
    omega

theorem read_pairs {fuel : Nat} {pairs : List (Nat × Nat)} (settings : H3Settings)
    (hfuel : pairs.length ≤ fuel) (hfit : PairsFit pairs) :
    read_settings fuel (pair_bytes pairs) settings =
      .ok (pairs.foldl (fun settings s => settings.set s.1 s.2) settings) := by
  induction pairs generalizing fuel settings with
  | nil => cases fuel <;> rfl
  | cons s rest ih =>
    obtain ⟨id, value⟩ := s
    obtain ⟨fuel, rfl⟩ : ∃ n, fuel = n + 1 := ⟨fuel - 1, by rw [List.length_cons] at hfuel; omega⟩
    obtain ⟨hid, hvalue⟩ := hfit _ List.mem_cons_self
    have hne : pair_bytes ((id, value) :: rest) ≠ [] := by
      rw [← List.length_pos_iff]
      exact Nat.lt_of_lt_of_le (Nat.succ_pos _) (pair_bytes_length ((id, value) :: rest))
    rw [read_settings, if_neg hne, pair_bytes_cons, decode_varint_bytes hid]
    dsimp only [Except.mapError]
    rw [except_ok_bind]
    dsimp only
    rw [List.drop_left' (varint_bytes_length id), decode_varint_bytes hvalue]
    dsimp only
    rw [except_ok_bind]
    dsimp only
    rw [List.drop_left' (varint_bytes_length value)]
    exact ih _ (by rw [List.length_cons] at hfuel; omega)
      fun s hs => hfit s (List.mem_cons_of_mem _ hs)

/-- What a frame of these settings names. -/
def pairs_of (settings : H3Settings) : List (Nat × Nat) :=
  let pair (id : Nat) (value : Option Nat) := (value.map fun v => (id, v)).toList
  pair SETTINGS_MAX_FIELD_SECTION_SIZE settings.max_field_section_size ++
    pair SETTINGS_QPACK_MAX_TABLE_CAPACITY settings.qpack_max_table_capacity ++
    pair SETTINGS_QPACK_BLOCKED_STREAMS settings.qpack_blocked_streams

theorem settings_of_pairs (settings : H3Settings) :
    (pairs_of settings).foldl (fun settings s => settings.set s.1 s.2) {} = settings := by
  obtain ⟨size, table, blocked⟩ := settings
  cases size <;> cases table <;> cases blocked <;> rfl

theorem encode_setting_eq {id offset : Nat} {value : Option Nat}
    (h : encode_setting id value offset cap = .ok bs) :
    bs = pair_bytes (value.map fun v => (id, v)).toList ∧
      PairsFit (value.map fun v => (id, v)).toList := by
  cases value with
  | none =>
    cases h
    exact ⟨rfl, by simp [PairsFit]⟩
  | some v =>
    unfold encode_setting at h
    obtain ⟨a, ha, h⟩ := except_bind_eq_ok h
    obtain ⟨b, hb, h⟩ := except_bind_eq_ok h
    cases h
    obtain ⟨rfl, hid⟩ := encode_varint_eq ha
    obtain ⟨rfl, hvalue⟩ := encode_varint_eq hb
    refine ⟨?_, ?_⟩
    · rw [Option.map_some, Option.toList_some, pair_bytes_cons]
      simp [pair_bytes]
    · intro s hs
      rw [Option.map_some, Option.toList_some, List.mem_singleton] at hs
      rw [hs]
      exact ⟨hid, hvalue⟩

theorem pair_bytes_append (xs ys : List (Nat × Nat)) :
    pair_bytes (xs ++ ys) = pair_bytes xs ++ pair_bytes ys := by
  rw [pair_bytes, List.map_append, List.flatten_append, pair_bytes, pair_bytes]

theorem settings_payload_len_eq (settings : H3Settings) :
    settings_payload_len settings = (pair_bytes (pairs_of settings)).length := by
  obtain ⟨size, table, blocked⟩ := settings
  cases size <;> cases table <;> cases blocked <;>
    simp [settings_payload_len, pairs_of, pair_bytes, Nat.add_assoc]

theorem encode_settings_frame_eq {settings : H3Settings}
    (h : encode_settings_frame settings cap = .ok bs) :
    bs = frame_bytes H3_FRAME_SETTINGS (pair_bytes (pairs_of settings)) ∧
      PairsFit (pairs_of settings) ∧ (pair_bytes (pairs_of settings)).length ≤ MAX_VARINT := by
  unfold encode_settings_frame at h
  dsimp only at h
  split at h
  · cases h
  obtain ⟨a, ha, h⟩ := except_bind_eq_ok h
  obtain ⟨b, hb, h⟩ := except_bind_eq_ok h
  obtain ⟨c, hc, h⟩ := except_bind_eq_ok h
  obtain ⟨d, hd, h⟩ := except_bind_eq_ok h
  obtain ⟨e, he, h⟩ := except_bind_eq_ok h
  cases h
  obtain ⟨rfl, -⟩ := encode_varint_eq ha
  obtain ⟨rfl, hlen⟩ := encode_varint_eq hb
  obtain ⟨rfl, hsize⟩ := encode_setting_eq hc
  obtain ⟨rfl, htable⟩ := encode_setting_eq hd
  obtain ⟨rfl, hblocked⟩ := encode_setting_eq he
  rw [settings_payload_len_eq] at hlen ⊢
  refine ⟨?_, fun s hs => ?_, hlen⟩
  · rw [frame_bytes, pairs_of]
    simp only [pair_bytes_append, List.append_assoc]
  · rw [pairs_of, List.mem_append, List.mem_append] at hs
    rcases hs with (hs | hs) | hs
    · exact hsize s hs
    · exact htable s hs
    · exact hblocked s hs

/-! ## Every frame -/

/-- What an encoder wrote is a frame of a known type whose payload reads as the frame. -/
theorem encode_h3_frame_eq (hknown : ∀ t, frame ≠ .Unknown t)
    (h : encode_h3_frame frame cap = .ok bs) :
    ∃ frame_type payload, bs = frame_bytes frame_type payload ∧ frame_type ≤ MAX_VARINT ∧
      payload.length ≤ MAX_VARINT ∧ decode_payload frame_type payload = .ok frame := by
  have hone : ∀ {value : Nat}, (varint_bytes value).length ≤ MAX_VARINT := fun {value} => by
    have := varint_len_le value
    rw [varint_bytes_length]
    exact Nat.le_trans this (by decide)
  cases frame with
  | Data data =>
    obtain ⟨hbs, hlen⟩ := encode_simple_frame_eq h
    exact ⟨_, _, hbs, by decide, hlen, rfl⟩
  | Headers data =>
    obtain ⟨hbs, hlen⟩ := encode_simple_frame_eq h
    exact ⟨_, _, hbs, by decide, hlen, rfl⟩
  | CancelPush push_id =>
    obtain ⟨hbs, hid⟩ := encode_varint_payload_frame_eq h
    refine ⟨_, _, hbs, by decide, hone, ?_⟩
    exact congrArg (Except.map H3Frame.CancelPush) (decode_id_bytes hid)
  | Settings settings =>
    obtain ⟨hbs, hfit, hlen⟩ := encode_settings_frame_eq h
    refine ⟨_, _, hbs, by decide, hlen, ?_⟩
    have hread : decode_settings (pair_bytes (pairs_of settings)) = .ok settings := by
      rw [decode_settings, read_pairs {} (pair_bytes_length _) hfit, settings_of_pairs]
    exact congrArg (Except.map H3Frame.Settings) hread
  | PushPromise push_id header_block =>
    obtain ⟨hbs, hid, hlen⟩ := encode_push_promise_frame_eq h
    refine ⟨_, _, hbs, by decide, ?_, ?_⟩
    · rw [List.length_append, varint_bytes_length]
      exact hlen
    · rw [decode_payload, if_neg (by decide), if_neg (by decide), if_neg (by decide),
        if_neg (by decide), if_pos rfl, decode_varint_bytes hid]
      dsimp only [Except.mapError]
      rw [except_ok_bind]
      dsimp only
      rw [List.drop_left' (varint_bytes_length push_id)]
  | GoAway stream_id =>
    obtain ⟨hbs, hid⟩ := encode_varint_payload_frame_eq h
    refine ⟨_, _, hbs, by decide, hone, ?_⟩
    exact congrArg (Except.map H3Frame.GoAway) (decode_id_bytes hid)
  | MaxPushId push_id =>
    obtain ⟨hbs, hid⟩ := encode_varint_payload_frame_eq h
    refine ⟨_, _, hbs, by decide, hone, ?_⟩
    exact congrArg (Except.map H3Frame.MaxPushId) (decode_id_bytes hid)
  | Unknown t => exact absurd rfl (hknown t)

/-- A frame comes back from its bytes with anything behind them. -/
theorem frame_round_trip (hknown : ∀ t, frame ≠ .Unknown t) (h : encode_h3_frame frame cap = .ok bs)
    (more : Bytes) : decode_h3_frame (bs ++ more) = .ok (frame, bs.length) := by
  obtain ⟨frame_type, payload, rfl, htype, hlen, hpayload⟩ := encode_h3_frame_eq hknown h
  exact decode_frame_bytes htype hlen hpayload more

/-- The front of a frame is not one: a frame that read there would read the same in the whole. -/
theorem decode_front {p : Bytes} (hknown : ∀ t, frame ≠ .Unknown t)
    (h : encode_h3_frame frame cap = .ok bs) (hp : p <+: bs) (hne : p ≠ bs) :
    ∃ e, decode_h3_frame p = .error e := by
  cases hread : decode_h3_frame p with
  | error e => exact ⟨e, rfl⟩
  | ok r =>
    obtain ⟨frame', consumed⟩ := r
    obtain ⟨rest, rfl⟩ := hp
    have hwhole := frame_round_trip hknown h []
    rw [List.append_nil, decode_h3_frame_append hread rest] at hwhole
    obtain ⟨-, hconsumed⟩ := Prod.mk.inj (Except.ok.inj hwhole)
    have hin := (decode_h3_frame_consumed hread).2
    have hrest : rest = [] := by
      rw [List.length_append] at hconsumed
      exact List.eq_nil_of_length_eq_zero (by omega)
    rw [hrest, List.append_nil] at hne
    exact absurd rfl hne

/-! ## The loops over frames -/

/-- `while offset < data.len()`: the turns of the loop from an offset on, and the frames it hands
on, up to its end. -/
inductive FrameLoop (data : Bytes) : Nat → List H3Frame → Prop
  | done {offset : Nat} (h : data.length ≤ offset) : FrameLoop data offset []
  | stop {offset : Nat} {e : Error} (h : offset < data.length)
    (he : decode_h3_frame (data.drop offset) = .error e) : FrameLoop data offset []
  | next {offset consumed : Nat} {frame : H3Frame} {frames : List H3Frame}
    (h : offset < data.length)
    (hd : decode_h3_frame (data.drop offset) = .ok (frame, consumed))
    (hrest : FrameLoop data (offset + consumed) frames) : FrameLoop data offset (frame :: frames)

/-- The loop ends: every turn takes at least a byte. -/
theorem frame_loop_ends (data : Bytes) (offset : Nat) :
    FrameLoop data offset (decode_frames (data.drop offset)).1 := by
  induction hn : data.length - offset using Nat.strongRecOn generalizing offset with
  | ind n ih =>
    rcases Nat.lt_or_ge offset data.length with hlt | hge
    · cases hd : decode_h3_frame (data.drop offset) with
      | error e =>
        rw [decode_frames_of_error hd]
        exact .stop hlt hd
      | ok r =>
        obtain ⟨frame, consumed⟩ := r
        have hconsumed := decode_h3_frame_consumed hd
        rw [decode_frames_of_ok hd, List.drop_drop]
        exact .next hlt hd (ih _ (by omega) _ rfl)
    · rw [List.drop_of_length_le hge, decode_frames_nil]
      exact .done hge

/-- What is encoded reads back whole and not in part; what is decoded is within its buffer, and
the loops of the control stream and of request streams end with the frames they hand on. -/
theorem h3_frames_decode_exactly :
    (∀ frame cap bs, (∀ t, frame ≠ .Unknown t) → encode_h3_frame frame cap = .ok bs →
        (∀ more, decode_h3_frame (bs ++ more) = .ok (frame, bs.length)) ∧
          ∀ p, p <+: bs → p ≠ bs → ∃ e, decode_h3_frame p = .error e) ∧
      (∀ buf, checked.decode_h3_frame buf = .ofExcept (decode_h3_frame buf) ∧
        checked.decode_h3_frame buf ≠ .panic ∧
        ∀ frame consumed, decode_h3_frame buf = .ok (frame, consumed) →
          1 ≤ consumed ∧ consumed ≤ buf.length) ∧
      ∀ data, FrameLoop data 0 (decode_frames data).1 := by
  refine ⟨fun frame cap bs hknown h => ⟨frame_round_trip hknown h, fun p => decode_front hknown h⟩,
    fun buf => ⟨checked.decode_h3_frame_eq buf, ?_, fun frame consumed h => ?_⟩,
    fun data => frame_loop_ends data 0⟩
  · rw [checked.decode_h3_frame_eq]
    exact Outcome.safe_ofExcept _
  · exact decode_h3_frame_consumed h

end milli_http.h3
