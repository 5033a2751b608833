-- What a round of the receive loop does, said once: the round is read off the state before it,
-- and every frame handler has its outcomes listed.
import MilliHttp.H2.Steps

open bytes method
open method.Method (require_bind_run get_bind_run bind_run on_run modify_bind_run)

namespace milli_http.h2

open hpack

variable {L : Limits} {c : H2Connection L} {hdr : H2FrameHeader} {payload : Bytes}
  {r : Except Error Unit}

namespace H2Connection

/-! ## Rounds -/

/-- What the next round of the receive loop finds: a DATA frame in progress, too few bytes, a
frame it refuses by its header, a DATA frame to begin, or a whole frame of another kind. -/
inductive Round where
  | pump
  | wait
  | refuse (e : Error)
  | data (hdr : H2FrameHeader) (data_total pad_total : Nat)
  | frame (hdr : H2FrameHeader) (payload : Bytes)
  deriving DecidableEq, Repr

/-- Whether a DATA frame is larger than what its stream may still receive. -/
def exceeds_window (c : H2Connection L) (stream_id data_total : Nat) : Bool :=
  c.settings_ack_received &&
    (c.live_stream stream_id).any fun s => decide ((data_total : Int) > s.recv_window)

/-- The bytes in front of the payload of a DATA frame. -/
def data_header_len (hdr : H2FrameHeader) : Nat := if hdr.has FLAG_PADDED then 10 else 9

/-- The round of a DATA header. -/
def data_round (hdr : H2FrameHeader) (c : H2Connection L) : Round :=
  if hdr.stream_id = 0 then .refuse (.Http2 .ProtocolError)
  else if c.io.recv_buf.length < data_header_len hdr then .wait
  else
    match data_lengths hdr (c.io.recv_buf.getD 9 0) with
    | .error e => .refuse e
    | .ok (data_total, pad_total) =>
      if c.exceeds_window hdr.stream_id data_total then .refuse (.Http2 .FlowControlError)
      else
        match FlowController.consume data_total c.conn_recv_fc with
        | (.error e, _) => .refuse e
        | (.ok _, _) => .data hdr data_total pad_total

/-- The round of any other header. -/
def whole_round (hdr : H2FrameHeader) (c : H2Connection L) : Round :=
  if L.BUF < 9 + hdr.length then .refuse (.Http2 .FrameSizeError)
  else if c.io.recv_buf.length < 9 + hdr.length then .wait
  else .frame hdr ((c.io.recv_buf.drop 9).take hdr.length)

/-- A header block in progress lets only its own CONTINUATION through. -/
def Admits (c : H2Connection L) (hdr : H2FrameHeader) : Prop :=
  ∀ expected ∈ c.continuation_stream_id, hdr.frame_type = .Continuation ∧ hdr.stream_id = expected

instance (c : H2Connection L) (hdr : H2FrameHeader) : Decidable (c.Admits hdr) :=
  inferInstanceAs (Decidable (∀ _ ∈ _, _))

/-- The next round. -/
def round (c : H2Connection L) : Round :=
  if c.partial_data.isSome then .pump
  else if c.io.recv_buf.length < 9 then .wait
  else
    let hdr := decode_frame_header c.io.recv_buf
    if c.local_settings.max_frame_size < hdr.length then .refuse (.Http2 .FrameSizeError)
    else if ¬ c.Admits hdr then .refuse (.Http2 .ProtocolError)
    else if hdr.frame_type = .Data then c.data_round hdr
    else c.whole_round hdr

/-- A DATA frame begins. -/
def start_data (hdr : H2FrameHeader) (data_total pad_total : Nat) (c : H2Connection L) :
    H2Connection L :=
  { c with
    io := c.io.drain_recv (data_header_len hdr)
    conn_recv_fc := { window := c.conn_recv_fc.window - data_total }
    partial_data := some {
      stream_id := hdr.stream_id
      end_stream := hdr.has FLAG_END_STREAM
      data_remaining := data_total
      pad_remaining := pad_total
      deliver := (c.live_stream hdr.stream_id).isSome } }

/-- A round, from what it finds. -/
def take_round : Round → Method (H2Connection L) Error Progress
  | .pump => fun c =>
    (.ok (if c.pump_partial_data.partial_data.isSome then .Break else .Continue),
      c.pump_partial_data)
  | .wait => pure .Break
  | .refuse e => Method.fail e
  | .data hdr data_total pad_total => do
    Method.modify (start_data hdr data_total pad_total)
    pure .Continue
  | .frame hdr payload => do
    handle_frame hdr payload
    Method.modify (drain_recv (9 + hdr.length))
    pure .Continue

theorem consume_ok {n : Nat} {fc fc' : FlowController} {u : Unit}
    (h : FlowController.consume n fc = (.ok u, fc')) :
    (n : Int) ≤ fc.window ∧ fc' = { window := fc.window - n } := by
  unfold FlowController.consume at h
  split at h
  · cases h
  · split at h
    · cases h
    · cases h
      exact ⟨by omega, rfl⟩

theorem consume_error {n : Nat} {fc fc' : FlowController} {e : Error}
    (h : FlowController.consume n fc = (.error e, fc')) : fc' = fc := by
  unfold FlowController.consume at h
  split at h
  · cases h
    rfl
  · split at h
    · cases h
      rfl
    · cases h

theorem begin_data_eq (hdr : H2FrameHeader) (c : H2Connection L) :
    begin_data hdr c = take_round (c.data_round hdr) c := by
  unfold begin_data data_round
  rw [require_bind_run]
  by_cases hid : hdr.stream_id = 0
  · rw [if_neg (not_not.mpr hid), if_pos hid]
    rfl
  rw [if_pos hid, if_neg hid, get_bind_run]
  rw [show (if hdr.has FLAG_PADDED = true then 10 else 9) = data_header_len hdr from rfl]
  by_cases hlen : c.io.recv_buf.length < data_header_len hdr
  · rw [if_pos hlen, if_pos hlen]
    rfl
  rw [if_neg hlen, if_neg hlen, bind_run, Method.lift_run]
  rcases data_lengths hdr (c.io.recv_buf.getD 9 0) with e | ⟨data_total, pad_total⟩
  · rfl
  dsimp only
  rw [require_bind_run]
  by_cases hwin : c.exceeds_window hdr.stream_id data_total = true
  · rw [if_pos hwin, if_neg (by simpa [exceeds_window] using hwin)]
    rfl
  rw [if_neg hwin, if_pos (by simpa [exceeds_window] using hwin), bind_run, on_run]
  rcases hfc : FlowController.consume data_total c.conn_recv_fc with ⟨e | u, fc⟩
  · dsimp only
    rw [consume_error hfc]
    rfl
  · dsimp only
    rw [(consume_ok hfc).2]
    rfl

theorem process_whole_eq (hdr : H2FrameHeader) (c : H2Connection L) :
    process_whole hdr c = take_round (c.whole_round hdr) c := by
  unfold process_whole whole_round
  rw [require_bind_run]
  by_cases hbuf : L.BUF < 9 + hdr.length
  · rw [if_neg (by omega), if_pos hbuf]
    rfl
  rw [if_pos (by omega), if_neg hbuf, get_bind_run]
  split <;> rfl

theorem process_frame_eq (c : H2Connection L) : process_frame c = take_round c.round c := by
  unfold process_frame round
  rw [get_bind_run]
  split
  · rfl
  split
  · rfl
  unfold process_header
  rw [get_bind_run]
  rw [require_bind_run]
  by_cases hsize : c.local_settings.max_frame_size < (decode_frame_header c.io.recv_buf).length
  · rw [if_neg (by omega), if_pos hsize]
    rfl
  rw [if_pos (by omega), if_neg hsize, require_bind_run]
  by_cases hlatch : c.Admits (decode_frame_header c.io.recv_buf)
  · rw [if_neg (not_not.mpr hlatch)]
    refine (if_pos hlatch).trans ?_
    split
    · exact begin_data_eq _ c
    · exact process_whole_eq _ c
  · rw [if_pos hlatch]
    exact if_neg hlatch

/-- A whole frame is handled, and taken off the buffer unless it failed. -/
theorem take_frame_run (hdr : H2FrameHeader) (payload : Bytes) (c : H2Connection L) :
    take_round (.frame hdr payload) c =
      match handle_frame hdr payload c with
      | (.ok _, c') => (.ok .Continue, c'.drain_recv (9 + hdr.length))
      | (.error e, c') => (.error e, c') := by
  refine (bind_run _ _ _).trans ?_
  rcases handle_frame hdr payload c with ⟨_ | _, c'⟩ <;> rfl

/-- Of the preface, bytes are taken off the buffer or not. -/
theorem validate_client_preface_cases (c : H2Connection L) :
    (validate_client_preface c).2 = c ∨ ∃ n preface_bytes_seen preface_validated,
      (validate_client_preface c).2 =
        { c.drain_recv n with preface_bytes_seen, preface_validated } := by
  unfold validate_client_preface
  rw [get_bind_run]
  rw [require_bind_run]
  split
  · exact .inr ⟨_, _, _, rfl⟩
  · exact .inl rfl

/-- What stands when a DATA frame begins. -/
structure BeginsData (c : H2Connection L) (hdr : H2FrameHeader) (data_total pad_total : Nat) :
    Prop where
  idle : c.partial_data = none
  latch : c.continuation_stream_id = none
  stream_id : hdr.stream_id ≠ 0
  lengths : data_lengths hdr (c.io.recv_buf.getD 9 0) = .ok (data_total, pad_total)
  fits : (data_total : Int) ≤ c.conn_recv_fc.window

/-- What stands when a whole frame is there. -/
structure TakesFrame (c : H2Connection L) (hdr : H2FrameHeader) (payload : Bytes) : Prop where
  idle : c.partial_data = none
  admits : c.Admits hdr
  not_data : hdr.frame_type ≠ .Data
  length : payload.length = hdr.length

theorem data_round_data {hdr hdr' : H2FrameHeader} {data_total pad_total : Nat}
    (h : c.data_round hdr' = .data hdr data_total pad_total) :
    hdr = hdr' ∧ hdr.stream_id ≠ 0 ∧
      data_lengths hdr (c.io.recv_buf.getD 9 0) = .ok (data_total, pad_total) ∧
      (data_total : Int) ≤ c.conn_recv_fc.window := by
  unfold data_round at h
  split at h
  · cases h
  split at h
  · cases h
  split at h
  · cases h
  next hlengths =>
    split at h
    · cases h
    split at h
    · cases h
    next hfc =>
      cases h
      exact ⟨rfl, ‹_›, hlengths, (consume_ok hfc).1⟩

theorem round_data {data_total pad_total : Nat}
    (h : c.round = .data hdr data_total pad_total) : BeginsData c hdr data_total pad_total := by
  unfold round at h
  split at h
  · cases h
  next hidle =>
    split at h
    · cases h
    dsimp only at h
    split at h
    · cases h
    split at h
    · cases h
    next hadmits =>
      split at h
      next htype =>
        obtain ⟨rfl, hid, hlengths, hfits⟩ := data_round_data h
        refine ⟨by simpa using hidle, ?_, hid, hlengths, hfits⟩
        -- Only CONTINUATION passes a header block in progress.
        rcases hlatch : c.continuation_stream_id with _ | expected
        · rfl
        · have hcont := (not_not.mp hadmits expected hlatch).1
          rw [htype] at hcont
          cases hcont
      · unfold whole_round at h
        split at h
        · cases h
        · split at h <;> cases h

theorem round_frame (h : c.round = .frame hdr payload) : TakesFrame c hdr payload := by
  unfold round at h
  split at h
  · cases h
  next hidle =>
    split at h
    · cases h
    dsimp only at h
    split at h
    · cases h
    split at h
    · cases h
    next hadmits =>
      split at h
      · unfold data_round at h
        split at h
        · cases h
        split at h
        · cases h
        split at h
        · cases h
        split at h
        · cases h
        split at h <;> cases h
      next htype =>
        unfold whole_round at h
        split at h
        · cases h
        split at h
        · cases h
        next hlen =>
          cases h
          refine ⟨by simpa using hidle, not_not.mp hadmits, htype, ?_⟩
          rw [List.length_take, List.length_drop]
          omega

/-! ## Deferred frames -/

/-- What sending its deferred frames changes of a stream. -/
structure Settles (s s' : H2Stream) : Prop where
  same : s' = { s with
    recv_window := s'.recv_window
    pending_recv_credit := s'.pending_recv_credit
    pending_rst := s'.pending_rst }
  credit : s'.pending_recv_credit ≤ s.pending_recv_credit

theorem Settles.refl (s : H2Stream) : Settles s s := ⟨rfl, Nat.le_refl _⟩

theorem Settles.trans {s₁ s₂ s₃ : H2Stream} (h₁ : Settles s₁ s₂) (h₂ : Settles s₂ s₃) :
    Settles s₁ s₃ := by
  refine ⟨?_, Nat.le_trans h₂.credit h₁.credit⟩
  rw [h₂.same, h₁.same]

/-- The frames streams owe: their credit, and their resets. -/
def Owed (streams : List H2Stream) (frame : H2Frame) : Prop :=
  ∃ s ∈ streams, (0 < s.pending_recv_credit ∧ frame = .WindowUpdate s.id s.pending_recv_credit) ∨
    ∃ error_code, frame = .RstStream s.id error_code

theorem try_queue_cases (BUF : Nat) (frame : H2Frame) (io : H2Io) :
    try_queue BUF frame io = (false, io) ∨
      ∃ data, try_queue BUF frame io =
        (true, { io with send_buf := io.send_buf ++ data, queued := io.queued ++ [frame] }) := by
  unfold try_queue H2Io.queue_frame
  rcases encode_frame frame 16 with e | data
  · exact .inl rfl
  · dsimp only
    by_cases hfull : io.send_buf.length + data.length > BUF
    · rw [if_pos hfull]
      exact .inl rfl
    · rw [if_neg hfull]
      exact .inr ⟨data, rfl⟩

theorem flush_credit_settles (BUF : Nat) (s : H2Stream) (io : H2Io) :
    Settles s (flush_credit BUF s io).1 ∧ ∃ sent bytes, (∀ f ∈ sent, Owed [s] f) ∧
      (flush_credit BUF s io).2 = { io with
        send_buf := io.send_buf ++ bytes, queued := io.queued ++ sent } := by
  unfold flush_credit
  split
  next hpos =>
    rcases try_queue_cases BUF (.WindowUpdate s.id s.pending_recv_credit) io with h | ⟨data, h⟩
    · rw [h]
      exact ⟨.refl s, [], [], by simp, by simp⟩
    · rw [h]
      refine ⟨⟨rfl, Nat.zero_le _⟩, [_], data, ?_, rfl⟩
      rw [List.forall_mem_singleton]
      exact ⟨s, List.mem_singleton_self s, .inl ⟨hpos, rfl⟩⟩
  · exact ⟨.refl s, [], [], by simp, by simp⟩

theorem flush_rst_settles (BUF : Nat) (s : H2Stream) (io : H2Io) :
    Settles s (flush_rst BUF s io).1 ∧ ∃ sent bytes, (∀ f ∈ sent, ∃ code, f = .RstStream s.id code) ∧
      (flush_rst BUF s io).2 = { io with
        send_buf := io.send_buf ++ bytes, queued := io.queued ++ sent } := by
  unfold flush_rst
  split
  · exact ⟨.refl s, [], [], by simp, by simp⟩
  next error_code _ =>
    rcases try_queue_cases BUF (.RstStream s.id error_code) io with h | ⟨data, h⟩
    · rw [h]
      exact ⟨.refl s, [], [], by simp, by simp⟩
    · rw [h]
      refine ⟨⟨rfl, Nat.le_refl _⟩, [_], data, ?_, rfl⟩
      rw [List.forall_mem_singleton]
      exact ⟨error_code, rfl⟩

theorem flush_streams_settles (BUF : Nat) (l : List H2Stream) (io : H2Io) :
    List.Forall₂ Settles l (flush_streams BUF l io).1 ∧ ∃ sent bytes, (∀ f ∈ sent, Owed l f) ∧
      (flush_streams BUF l io).2 = { io with
        send_buf := io.send_buf ++ bytes, queued := io.queued ++ sent } := by
  induction l generalizing io with
  | nil => exact ⟨.nil, [], [], by simp, by simp [flush_streams]⟩
  | cons s rest ih =>
    obtain ⟨hs₁, sent₁, bytes₁, howed₁, hq₁⟩ := flush_credit_settles BUF s io
    obtain ⟨hs₂, sent₂, bytes₂, howed₂, hq₂⟩ :=
      flush_rst_settles BUF (flush_credit BUF s io).1 (flush_credit BUF s io).2
    obtain ⟨hs₃, sent₃, bytes₃, howed₃, hq₃⟩ :=
      ih (flush_rst BUF (flush_credit BUF s io).1 (flush_credit BUF s io).2).2
    refine ⟨.cons (hs₁.trans hs₂) hs₃, sent₁ ++ sent₂ ++ sent₃, bytes₁ ++ bytes₂ ++ bytes₃, ?_, ?_⟩
    · -- The reset is sent under the identifier of the stream that was there before.
      intro f hf
      rcases List.mem_append.mp hf with hf | hf
      · rcases List.mem_append.mp hf with hf | hf
        · obtain ⟨t, ht, h⟩ := howed₁ f hf
          exact ⟨t, List.mem_cons.mpr (.inl (List.mem_singleton.mp ht)), h⟩
        · obtain ⟨code, rfl⟩ := howed₂ f hf
          refine ⟨s, List.mem_cons_self, .inr ⟨code, ?_⟩⟩
          rw [hs₁.same]
      · obtain ⟨t, ht, h⟩ := howed₃ f hf
        exact ⟨t, List.mem_cons_of_mem _ ht, h⟩
    · simp only [flush_streams]
      rw [hq₃, hq₂, hq₁]
      simp

theorem queue_frame_cases (cap : Nat) (frame : H2Frame) (c : H2Connection L) :
    (∃ e, queue_frame cap frame c = (.error e, c)) ∨
      ∃ data, queue_frame cap frame c = (.ok (), { c with io := { c.io with
        send_buf := c.io.send_buf ++ data, queued := c.io.queued ++ [frame] } }) := by
  unfold queue_frame on_io
  rw [on_run]
  unfold H2Io.queue_frame
  rcases encode_frame frame cap with e | data
  · exact .inl ⟨e, rfl⟩
  · dsimp only
    by_cases hfull : c.io.send_buf.length + data.length > L.BUF
    · rw [if_pos hfull]
      exact .inl ⟨_, rfl⟩
    · rw [if_neg hfull]
      exact .inr ⟨data, rfl⟩

/-- The streams send what they owe. -/
def settle_streams (c : H2Connection L) : H2Connection L :=
  { c with
    streams := (flush_streams L.BUF c.streams c.io).1
    io := (flush_streams L.BUF c.streams c.io).2 }

theorem flush_window_updates_eq (c : H2Connection L) :
    c.flush_window_updates = c.flush_conn_credit.settle_streams := rfl

section Settled

variable {l l' : List H2Stream}

theorem map_settled {β : Type} {part : H2Stream → β} (h : List.Forall₂ Settles l l')
    (hpart : ∀ s s', Settles s s' → part s' = part s) : l'.map part = l.map part := by
  induction h with
  | nil => rfl
  | cons hs _ ih => rw [List.map_cons, List.map_cons, ih, hpart _ _ hs]

theorem forall_settled {P : H2Stream → Prop} (h : List.Forall₂ Settles l l')
    (hP : ∀ s s', Settles s s' → P s → P s') (hl : ∀ s ∈ l, P s) : ∀ s ∈ l', P s := by
  induction h with
  | nil => exact hl
  | cons hs _ ih =>
    obtain ⟨hhead, htail⟩ := List.forall_mem_cons.mp hl
    exact List.forall_mem_cons.mpr ⟨hP _ _ hs hhead, ih htail⟩

end Settled

/-- A stream without the bookkeeping of its credit. -/
def uncredited (s : H2Stream) : H2Stream :=
  { s with recv_window := 0, pending_recv_credit := 0, pending_rst := none }

/-- The frames the bookkeeping of credit may send. -/
def sends_credit : H2Frame → Bool
  | .WindowUpdate _ _ | .RstStream _ _ => true
  | _ => false

/-- The connections differ by the bookkeeping of credit. -/
structure Recredited (c c' : H2Connection L) : Prop where
  streams : c'.streams.map uncredited = c.streams.map uncredited
  rest : ∃ sent bytes, (∀ f ∈ sent, sends_credit f = true) ∧
    c' = { c with
      streams := c'.streams
      conn_recv_fc := c'.conn_recv_fc
      pending_conn_credit := c'.pending_conn_credit
      io := { c.io with send_buf := c.io.send_buf ++ bytes, queued := c.io.queued ++ sent } }

theorem Recredited.refl (c : H2Connection L) : Recredited c c := by
  refine ⟨rfl, [], [], by simp, ?_⟩
  rw [List.append_nil, List.append_nil]

theorem Recredited.trans {c₁ c₂ c₃ : H2Connection L} (h₁ : Recredited c₁ c₂)
    (h₂ : Recredited c₂ c₃) : Recredited c₁ c₃ := by
  obtain ⟨hs₁, sent₁, bytes₁, hsent₁, heq₁⟩ := h₁
  obtain ⟨hs₂, sent₂, bytes₂, hsent₂, heq₂⟩ := h₂
  refine ⟨hs₂.trans hs₁, sent₁ ++ sent₂, bytes₁ ++ bytes₂,
    List.forall_mem_append.mpr ⟨hsent₁, hsent₂⟩, ?_⟩
  rw [heq₂, heq₁]
  simp

theorem recredited_flush (c : H2Connection L) : Recredited c c.flush_window_updates := by
  have hconn : Recredited c c.flush_conn_credit := by
    unfold flush_conn_credit
    split
    · rcases try_queue_cases L.BUF (.WindowUpdate 0 c.pending_conn_credit) c.io with hq | ⟨data, hq⟩
      · rw [hq]
        exact .refl c
      · rw [hq]
        exact ⟨rfl, [_], data, by simp [sends_credit], rfl⟩
    · exact .refl c
  have hstreams : ∀ c : H2Connection L, Recredited c c.settle_streams := by
    intro c
    obtain ⟨hsettle, sent, bytes, howed, hqueued⟩ := flush_streams_settles L.BUF c.streams c.io
    refine ⟨map_settled hsettle fun s s' hs => by rw [hs.same]; rfl, sent, bytes, ?_, ?_⟩
    · intro f hf
      obtain ⟨s, -, ⟨-, rfl⟩ | ⟨code, rfl⟩⟩ := howed f hf <;> rfl
    · unfold settle_streams
      rw [hqueued]
  rw [flush_window_updates_eq]
  exact hconn.trans (hstreams _)

theorem recredited_send_window_update (stream_id increment : Nat) (c : H2Connection L) :
    Recredited c (c.send_window_update stream_id increment) := by
  unfold send_window_update
  split
  · exact .refl c
  · refine Recredited.trans ?_ (recredited_flush _)
    split
    · exact ⟨rfl, [], [], by simp, by rw [List.append_nil, List.append_nil]⟩
    · exact ⟨keyed.map_modify fun _ => rfl, [], [], by simp,
        by rw [List.append_nil, List.append_nil]; rfl⟩

/-- A frame goes into the send buffer, or bytes that are none. -/
theorem append_frame_cases (frame : H2Frame) (c : H2Connection L) :
    (∃ e bytes, append_frame frame c = (.error e, c.append bytes)) ∨
      ∃ bytes, append_frame frame c = (.ok (), { c.append bytes with
        io := { (c.append bytes).io with queued := c.io.queued ++ [frame] } }) := by
  unfold append_frame
  dsimp only
  rcases encode_frame_header frame.parts.1 with e | header
  · exact .inl ⟨e, _, rfl⟩
  · refine .inr ⟨header ++ frame.parts.2, ?_⟩
    simp [append]

theorem append_data_cases (stream_id : Nat) (payload : Bytes) (end_stream : Bool)
    (c : H2Connection L) :
    (∃ e bytes, append_data stream_id payload end_stream c = (.error e, c.append bytes)) ∨
      ∃ bytes, append_data stream_id payload end_stream c = (.ok (), { c.append bytes with
        io := { (c.append bytes).io with
          queued := c.io.queued ++ [.Data stream_id payload end_stream] } }) := by
  unfold append_data
  rcases encode_frame_header (H2Frame.Data stream_id payload end_stream).parts.1 with e | header
  · exact .inl ⟨e, _, rfl⟩
  · exact append_frame_cases _ c

/-- Encoding a header block leaves at most bytes of no frame behind. -/
theorem encode_block_cases (headers : List Header) (c : H2Connection L) :
    (encode_block headers c).2 = c ∨ ∃ bytes, (encode_block headers c).2 = c.append bytes := by
  unfold encode_block
  dsimp only
  split
  · split
    · exact .inl rfl
    · exact .inl rfl
  · split
    · exact .inl rfl
    · exact .inr ⟨_, rfl⟩
  · exact .inl rfl

/-! ## The DATA frame in progress -/

theorem flush_conn_credit_partial_data (pd : Option PartialData) (c : H2Connection L) :
    ({ c with partial_data := pd } : H2Connection L).flush_conn_credit =
      { c.flush_conn_credit with partial_data := pd } := by
  unfold flush_conn_credit
  by_cases hpending : c.pending_conn_credit > 0
  · rw [if_pos hpending, if_pos hpending]
    rcases try_queue_cases L.BUF (.WindowUpdate 0 c.pending_conn_credit) c.io with hq | ⟨data, hq⟩
    · rw [hq]
    · rw [hq]
  · rw [if_neg hpending, if_neg hpending]

/-- Credit is given without a look at the DATA frame in progress. -/
theorem send_window_update_partial_data (n : Nat) (pd : Option PartialData) (c : H2Connection L) :
    ({ c with partial_data := pd } : H2Connection L).send_window_update 0 n =
      { c.send_window_update 0 n with partial_data := pd } := by
  unfold send_window_update
  by_cases hn : n = 0
  · rw [if_pos hn, if_pos hn]
  · rw [if_neg hn, if_neg hn, if_pos rfl, if_pos rfl]
    dsimp only
    rw [flush_window_updates_eq, flush_window_updates_eq]
    exact congrArg settle_streams (flush_conn_credit_partial_data pd
      { c with pending_conn_credit := saturating_add c.pending_conn_credit n })

theorem send_window_update_keeps_partial_data (n : Nat) (c : H2Connection L) :
    (c.send_window_update 0 n).partial_data = c.partial_data := by
  have h := congrArg H2Connection.partial_data (send_window_update_partial_data n c.partial_data c)
  exact h

/-- While a DATA frame is pumped, the connection has none in progress. -/
theorem pump_payload_partial_data (pd : PartialData) (c : H2Connection L) :
    (pump_payload pd c).2.partial_data = c.partial_data := by
  unfold pump_payload
  split
  · rfl
  split
  · split
    · unfold deliver_data
      dsimp only
      split <;> rfl
    · exact send_window_update_keeps_partial_data _ _
  · exact send_window_update_keeps_partial_data _ _

theorem pump_padding_partial_data (pd : PartialData) (c : H2Connection L) :
    (pump_padding pd c).2.partial_data = c.partial_data := by
  unfold pump_padding
  split <;> rfl

/-- The payload of a DATA frame in progress: nothing happens, bytes are delivered to the stream,
or bytes nobody reads are credited. -/
theorem pump_payload_cases (pd : PartialData) (c : H2Connection L) :
    pump_payload pd c = (pd, c) ∨
    (∃ stream n, pd.deliver = true ∧ c.get_stream pd.stream_id = some stream ∧
      n ≤ pd.data_remaining ∧ n ≤ c.io.recv_buf.length ∧
      pump_payload pd c = ({ pd with data_remaining := pd.data_remaining - n },
        push_event (.Data pd.stream_id) ((c.modify_stream pd.stream_id
          (·.deliver (c.io.recv_buf.take n))).drain_recv n))) ∨
    (∃ n, (pd.deliver = false ∨ c.get_stream pd.stream_id = none) ∧
      n ≤ pd.data_remaining ∧ n ≤ c.io.recv_buf.length ∧
      pump_payload pd c =
        ({ pd with data_remaining := pd.data_remaining - n, deliver := false },
          (c.drain_recv n).send_window_update 0 n)) := by
  unfold pump_payload
  by_cases hidle : pd.data_remaining = 0 ∨ c.io.recv_buf = []
  · rw [if_pos hidle]
    exact .inl rfl
  rw [if_neg hidle]
  by_cases hdeliver : pd.deliver = true
  · rw [if_pos hdeliver]
    rcases hs : c.get_stream pd.stream_id with _ | stream
    · exact .inr (.inr ⟨min pd.data_remaining c.io.recv_buf.length, .inr rfl, Nat.min_le_left _ _,
        Nat.min_le_right _ _, rfl⟩)
    · unfold deliver_data
      dsimp only
      by_cases hfree : L.DATABUF - stream.data_buf.length = 0
      · rw [if_pos hfree]
        exact .inl rfl
      · rw [if_neg hfree]
        refine .inr (.inl ⟨stream, min (min pd.data_remaining c.io.recv_buf.length)
          (L.DATABUF - stream.data_buf.length), hdeliver, rfl, by omega, by omega, rfl⟩)
  · rw [if_neg hdeliver]
    have hfalse : pd.deliver = false := by simpa using hdeliver
    refine .inr (.inr ⟨min pd.data_remaining c.io.recv_buf.length, .inl hfalse, Nat.min_le_left _ _,
      Nat.min_le_right _ _, ?_⟩)
    unfold discard_data
    rw [← hfalse]

theorem pump_padding_cases (pd : PartialData) (c : H2Connection L) :
    ∃ n left, n ≤ c.io.recv_buf.length ∧
      pump_padding pd c = ({ pd with pad_remaining := left }, c.drain_recv n) := by
  unfold pump_padding
  split
  · exact ⟨min pd.pad_remaining c.io.recv_buf.length, _, Nat.min_le_right _ _, rfl⟩
  · exact ⟨0, pd.pad_remaining, Nat.zero_le _, rfl⟩

/-- A DATA frame in progress goes on: its payload, its padding, and perhaps its end. -/
theorem pump_partial_data_cases {pd : PartialData} (hpd : c.partial_data = some pd) :
    ∃ pd' c', pump_payload pd { c with partial_data := none } = (pd', c') ∧ ∃ n left,
      n ≤ c'.io.recv_buf.length ∧
      ((pd'.data_remaining = 0 ∧ left = 0 ∧
        c.pump_partial_data = finish_data { pd' with pad_remaining := left } (c'.drain_recv n)) ∨
      c.pump_partial_data = { c'.drain_recv n with
        partial_data := some { pd' with pad_remaining := left } }) := by
  rcases hrun : pump_payload pd { c with partial_data := none } with ⟨pd', c'⟩
  obtain ⟨n, left, hn, hpad⟩ := pump_padding_cases pd' c'
  refine ⟨pd', c', rfl, n, left, hn, ?_⟩
  unfold pump_partial_data
  rw [hpd]
  dsimp only
  rw [hrun]
  dsimp only
  rw [hpad]
  dsimp only
  split
  next hdone => exact .inl ⟨hdone.1, hdone.2, rfl⟩
  · exact .inr rfl

/-! ## A change of the initial window -/

theorem map_adjust_windows {β : Type} {part : H2Stream → β}
    (hpart : ∀ s delta, part (s.shift_window delta) = part s) (delta : Int) (l : List H2Stream) :
    (adjust_windows delta l).2.map part = l.map part := by
  induction l with
  | nil => rfl
  | cons s rest ih =>
    rw [adjust_windows]
    split
    · simp only [List.map_cons, ih, hpart]
    · rfl

/-- The streams are moved, up to the first that would overflow. -/
theorem forall_adjust_windows {P Q : H2Stream → Prop} {delta : Int} {l : List H2Stream}
    (hshift : ∀ s, InI32 (s.send_window + delta) → P s → Q (s.shift_window delta))
    (hkeep : ∀ s, P s → Q s) (hl : ∀ s ∈ l, P s) : ∀ s ∈ (adjust_windows delta l).2, Q s := by
  induction l with
  | nil => exact List.forall_mem_nil _
  | cons s rest ih =>
    obtain ⟨hs, hrest⟩ := List.forall_mem_cons.mp hl
    rw [adjust_windows]
    split
    next hin => exact List.forall_mem_cons.mpr ⟨hshift s hin hs, ih hrest⟩
    · exact fun t ht => hkeep t (hl t ht)

theorem adjust_windows_all {delta : Int} {l : List H2Stream}
    (hl : ∀ s ∈ l, InI32 (s.send_window + delta)) :
    adjust_windows delta l = (.ok (), l.map (·.shift_window delta)) := by
  induction l with
  | nil => rfl
  | cons s rest ih =>
    obtain ⟨hs, hrest⟩ := List.forall_mem_cons.mp hl
    rw [adjust_windows, if_pos hs, ih hrest]
    rfl

/-! ## Making room for a stream -/

/-- A new stream, at the end of the table. -/
def create_stream (stream_id : Nat) (c : H2Connection L) : H2Connection L :=
  { c with streams := c.streams ++ [H2Stream.new stream_id
    (as_i32 c.peer_settings.initial_window_size) (as_i32 c.local_settings.initial_window_size)] }

/-- A stream is there, there is no room for it, or it is made, perhaps in the place of closed
ones. -/
theorem ensure_stream_cases (stream_id : Nat) (c : H2Connection L) :
    ((∃ s, c.get_stream stream_id = some s) ∧ c.ensure_stream stream_id = (true, c)) ∨
      (c.get_stream stream_id = none ∧ c.ensure_stream stream_id = (false, c.reap)) ∨
      (c.get_stream stream_id = none ∧
        (c.ensure_stream stream_id = (true, c.create_stream stream_id) ∨
          c.ensure_stream stream_id = (true, c.reap.create_stream stream_id))) := by
  unfold ensure_stream
  rw [keyed.any_key H2Stream.id]
  rcases hs : keyed.find H2Stream.id stream_id c.streams with _ | s
  · refine .inr ?_
    rw [if_neg (by simp)]
    dsimp only
    by_cases hfull : c.streams.length ≥ L.MAX_STREAMS
    · rw [if_pos hfull]
      split
      · exact .inl ⟨hs, rfl⟩
      · exact .inr ⟨hs, .inr rfl⟩
    · rw [if_neg hfull, if_neg hfull]
      exact .inr ⟨hs, .inl rfl⟩
  · exact .inl ⟨⟨s, hs⟩, by simp⟩

/-! ## Frames of the peer -/

/-- A HEADERS frame: refused, a block nobody reads, no room, a block too large, or a block
stored. -/
theorem handle_headers_cases {c c' : H2Connection L} (h : handle_headers hdr payload c = (r, c')) :
    (∃ e, r = .error e ∧ c' = c) ∨
    (∃ fragment, headers_fragment hdr payload = .ok fragment ∧
      ((c.is_closed_stream hdr.stream_id = true ∧ hdr.has FLAG_END_HEADERS = true ∧
        r = (c.decoder.decode fragment).1 ∧
        c' = { c with decoder := (c.decoder.decode fragment).2.2 }) ∨
      (c.is_closed_stream hdr.stream_id = false ∧
        (c.streams.any (·.id == hdr.stream_id) = true ∨ c.may_open hdr.stream_id = true) ∧
        let ensured := (c.see_peer_stream hdr.stream_id).ensure_stream hdr.stream_id
        ((∃ e, r = .error e ∧ ensured.1 = false ∧ c' = ensured.2) ∨
        (∃ e, r = .error e ∧ ensured.1 = true ∧
          c' = ensured.2.modify_stream hdr.stream_id (·.begin_block)) ∨
        (r = .ok () ∧ ensured.1 = true ∧
          c' = announce_headers hdr ((ensured.2.modify_stream hdr.stream_id
            (·.begin_block)).modify_stream hdr.stream_id (·.store_block fragment
              (hdr.has FLAG_END_HEADERS) (hdr.has FLAG_END_STREAM)))))))) := by
  unfold handle_headers at h
  rw [require_bind_run] at h
  split at h
  case isFalse => cases h; exact .inl ⟨_, rfl, rfl⟩
  rw [bind_run, Method.lift_run] at h
  rcases hfrag : headers_fragment hdr payload with e | fragment
  · rw [hfrag] at h
    cases h
    exact .inl ⟨_, rfl, rfl⟩
  rw [hfrag] at h
  dsimp only at h
  rw [get_bind_run] at h
  by_cases hclosed : c.is_closed_stream hdr.stream_id = true
  · rw [if_pos hclosed, require_bind_run] at h
    split at h
    next hend =>
      refine .inr ⟨fragment, rfl, .inl ⟨hclosed, hend, ?_⟩⟩
      unfold decode_dropped at h
      rcases hdec : c.decoder.decode fragment with ⟨r', emitted, decoder⟩
      rw [hdec] at h
      cases h
      exact ⟨rfl, rfl⟩
    · cases h
      exact .inl ⟨_, rfl, rfl⟩
  rw [if_neg hclosed, require_bind_run] at h
  split at h
  case isFalse => cases h; exact .inl ⟨_, rfl, rfl⟩
  next hopen =>
    refine .inr ⟨fragment, rfl, .inr ⟨by simpa using hclosed, hopen, ?_⟩⟩
    dsimp only
    rw [modify_bind_run] at h
    rw [get_bind_run] at h
    rw [modify_bind_run] at h
    rw [require_bind_run] at h
    split at h
    case isFalse hensured =>
      cases h
      exact .inl ⟨_, rfl, by simpa using hensured, rfl⟩
    next hensured =>
      refine .inr ?_
      unfold store_headers at h
      rw [bind_run, modify_bind_run] at h
      rw [require_bind_run] at h
      by_cases hlen : fragment.length ≤ L.HDRBUF
      · rw [if_pos hlen] at h
        cases h
        exact .inr ⟨rfl, hensured, rfl⟩
      · rw [if_neg hlen] at h
        cases h
        exact .inl ⟨_, rfl, hensured, rfl⟩

/-- A CONTINUATION frame: refused, or the end of the block noted and the fragment stored if there
is a stream and room for it. -/
theorem handle_continuation_cases {c c' : H2Connection L}
    (h : handle_continuation hdr payload c = (r, c')) :
    (∃ e, r = .error e ∧ c' = c) ∨
    (c.get_stream hdr.stream_id = none ∧ r = .ok () ∧ c' = c.note_block_end hdr) ∨
    (∃ e stream, c.get_stream hdr.stream_id = some stream ∧ r = .error e ∧
      c' = c.note_block_end hdr) ∨
    (∃ stream, c.get_stream hdr.stream_id = some stream ∧ r = .ok () ∧
      c' = announce_block hdr ((c.note_block_end hdr).modify_stream hdr.stream_id
        (·.append_block payload (hdr.has FLAG_END_HEADERS)))) := by
  unfold handle_continuation at h
  rw [require_bind_run] at h
  split at h
  case isFalse => cases h; exact .inl ⟨_, rfl, rfl⟩
  rw [modify_bind_run] at h
  rw [get_bind_run] at h
  refine .inr ?_
  rw [show (c.note_block_end hdr).get_stream hdr.stream_id = c.get_stream hdr.stream_id from rfl] at h
  rcases hs : c.get_stream hdr.stream_id with _ | stream
  · rw [hs] at h
    cases h
    exact .inl ⟨rfl, rfl, rfl⟩
  · rw [hs] at h
    dsimp only at h
    rw [require_bind_run] at h
    split at h
    · cases h
      exact .inr (.inr ⟨stream, rfl, rfl, rfl⟩)
    · cases h
      exact .inr (.inl ⟨_, stream, rfl, rfl, rfl⟩)

/-- Room for the nine bytes of a SETTINGS acknowledgment. -/
theorem queue_settings_ack (c : H2Connection L) :
    (L.BUF < c.io.send_buf.length + 9 ∧ ∃ e, queue_frame 16 (.Settings true []) c = (.error e, c)) ∨
      (c.io.send_buf.length + 9 ≤ L.BUF ∧ ∃ data,
        queue_frame 16 (.Settings true []) c = (.ok (), { c with io := { c.io with
          send_buf := c.io.send_buf ++ data, queued := c.io.queued ++ [.Settings true []] } })) := by
  have hencode : encode_frame (.Settings true []) 16 = .ok [0, 0, 0, 4, 1, 0, 0, 0, 0] := rfl
  unfold queue_frame on_io
  rw [on_run]
  unfold H2Io.queue_frame
  rw [hencode]
  dsimp only
  by_cases hfull : c.io.send_buf.length + 9 > L.BUF
  · refine .inl ⟨hfull, ?_⟩
    rw [if_pos (by simpa using hfull)]
    exact ⟨_, rfl⟩
  · refine .inr ⟨by omega, ?_⟩
    rw [if_neg (by simpa using hfull)]
    exact ⟨_, rfl⟩

/-- A SETTINGS frame: refused, an acknowledgment, or the settings of the peer. These fail at a
parameter or for lack of room for the acknowledgment before the send windows are moved. -/
theorem handle_settings_cases {c c' : H2Connection L}
    (h : handle_settings hdr payload c = (r, c')) :
    (∃ e, r = .error e ∧ c' = c) ∨
    (hdr.has FLAG_ACK = true ∧ ∃ state events headers_phase_complete, c' = { c with
      settings_ack_received := true, state, events, headers_phase_complete }) ∨
    (hdr.stream_id = 0 ∧ hdr.has FLAG_ACK = false ∧
      ((∃ e, (H2Settings.apply_payload payload c.peer_settings).1 = .error e ∧ r = .error e ∧
        c' = { c with peer_settings := (H2Settings.apply_payload payload c.peer_settings).2 }) ∨
      ((H2Settings.apply_payload payload c.peer_settings).1 = .ok () ∧
        L.BUF < c.io.send_buf.length + 9 ∧ (∃ e, r = .error e) ∧
        c' = { c with
          peer_settings := (H2Settings.apply_payload payload c.peer_settings).2
          peer_settings_received := true }) ∨
      ((H2Settings.apply_payload payload c.peer_settings).1 = .ok () ∧
        c.io.send_buf.length + 9 ≤ L.BUF ∧ ∃ bytes state events headers_phase_complete,
        adjust_streams (as_i32 (H2Settings.apply_payload payload
            c.peer_settings).2.initial_window_size - as_i32 c.peer_settings.initial_window_size)
          { c with
            peer_settings := (H2Settings.apply_payload payload c.peer_settings).2
            peer_settings_received := true
            io := { c.io with
              send_buf := c.io.send_buf ++ bytes, queued := c.io.queued ++ [.Settings true []] }
            state, events, headers_phase_complete } = (r, c')))) := by
  unfold handle_settings at h
  rw [require_bind_run] at h
  split at h
  case isFalse => cases h; exact .inl ⟨_, rfl, rfl⟩
  next hid =>
    by_cases hack : hdr.has FLAG_ACK = true
    · rw [if_pos hack, require_bind_run] at h
      split at h
      · cases h
        refine .inr (.inl ⟨hack, ?_⟩)
        dsimp only
        split
        · exact ⟨_, _, _, rfl⟩
        · exact ⟨_, _, _, rfl⟩
      · cases h
        exact .inl ⟨_, rfl, rfl⟩
    · rw [if_neg hack] at h
      refine .inr (.inr ⟨hid, by simpa using hack, ?_⟩)
      unfold apply_settings at h
      rw [get_bind_run] at h
      rw [bind_run, on_run] at h
      rcases hres : H2Settings.apply_payload payload c.peer_settings with ⟨e | u, settings⟩
      · rw [hres] at h
        cases h
        exact .inl ⟨e, rfl, rfl, rfl⟩
      rw [hres] at h
      dsimp only at h
      rw [modify_bind_run] at h
      rw [bind_run] at h
      rcases queue_settings_ack { c with peer_settings := settings, peer_settings_received := true }
        with ⟨hfull, e, hq⟩ | ⟨hroom, data, hq⟩
      · rw [hq] at h
        cases h
        exact .inr (.inl ⟨rfl, hfull, ⟨e, rfl⟩, rfl⟩)
      · rw [hq] at h
        dsimp only at h
        rw [modify_bind_run] at h
        rw [get_bind_run] at h
        refine .inr (.inr ⟨rfl, hroom, ?_⟩)
        split at h
        · exact ⟨_, _, _, _, h⟩
        · exact ⟨_, _, _, _, h⟩

/-- A WINDOW_UPDATE frame: refused, for the connection, for a stream that is gone, or for a
stream. -/
theorem handle_window_update_cases {c c' : H2Connection L}
    (h : handle_window_update hdr payload c = (r, c')) :
    (∃ e, r = .error e ∧ c' = c) ∨
    (hdr.stream_id = 0 ∧ r = .ok () ∧ c.conn_send_fc.window + window_increment payload ≤ 0x7fffffff ∧
      c' = { c with conn_send_fc := { window := c.conn_send_fc.window + window_increment payload } }) ∨
    (hdr.stream_id ≠ 0 ∧ c.get_stream hdr.stream_id = none ∧ r = .ok () ∧ c' = c) ∨
    (hdr.stream_id ≠ 0 ∧ r = .ok () ∧ ∃ stream, c.get_stream hdr.stream_id = some stream ∧
      stream.send_window + window_increment payload ≤ 0x7fffffff ∧
      c' = c.modify_stream hdr.stream_id (·.shift_window (window_increment payload))) := by
  unfold handle_window_update at h
  rw [require_bind_run] at h
  split at h
  case isFalse => cases h; exact .inl ⟨_, rfl, rfl⟩
  rw [require_bind_run] at h
  split at h
  case isFalse => cases h; exact .inl ⟨_, rfl, rfl⟩
  by_cases hid : hdr.stream_id = 0
  · rw [if_pos hid, on_run] at h
    unfold FlowController.replenish at h
    by_cases hover : c.conn_send_fc.window + window_increment payload > 0x7fffffff
    · rw [if_pos hover] at h
      cases h
      exact .inl ⟨_, rfl, rfl⟩
    · rw [if_neg hover] at h
      cases h
      exact .inr (.inl ⟨hid, rfl, by omega, rfl⟩)
  rw [if_neg hid, get_bind_run] at h
  rcases hs : c.get_stream hdr.stream_id with _ | stream
  · rw [hs] at h
    cases h
    exact .inr (.inr (.inl ⟨hid, rfl, rfl, rfl⟩))
  · rw [hs] at h
    dsimp only at h
    rw [require_bind_run] at h
    split at h
    next hfits =>
      cases h
      exact .inr (.inr (.inr ⟨hid, rfl, stream, rfl, hfits, rfl⟩))
    · cases h
      exact .inl ⟨_, rfl, rfl⟩

theorem handle_ping_cases {c c' : H2Connection L} (h : handle_ping hdr payload c = (r, c')) :
    c' = c ∨ ∃ data, c' = { c with io := { c.io with
      send_buf := c.io.send_buf ++ data
      queued := c.io.queued ++ [.Ping (payload.take 8) true] } } := by
  unfold handle_ping at h
  rw [require_bind_run] at h
  split at h
  case isFalse => cases h; exact .inl rfl
  rw [require_bind_run] at h
  split at h
  case isFalse => cases h; exact .inl rfl
  split at h
  · cases h
    exact .inl rfl
  · rcases queue_frame_cases 32 (.Ping (payload.take 8) true) c with ⟨e, hq⟩ | ⟨data, hq⟩
    · rw [hq] at h
      cases h
      exact .inl rfl
    · rw [hq] at h
      cases h
      exact .inr ⟨data, rfl⟩

theorem handle_goaway_cases {c c' : H2Connection L} (h : handle_goaway hdr payload c = (r, c')) :
    c' = c ∨ ∃ events, c' = { c with state := .Closing, events } := by
  unfold handle_goaway at h
  rw [require_bind_run] at h
  split at h
  case isFalse => cases h; exact .inl rfl
  rw [require_bind_run] at h
  split at h
  case isFalse => cases h; exact .inl rfl
  cases h
  exact .inr ⟨_, rfl⟩

/-- A RST_STREAM frame: refused, or the stream is closed and its body credited. -/
theorem handle_rst_stream_cases {c c' : H2Connection L}
    (h : handle_rst_stream hdr payload c = (r, c')) :
    (∃ e, r = .error e ∧ c' = c) ∨
    (hdr.stream_id ≠ 0 ∧ r = .ok () ∧ ∃ buffered error_code, c' = push_event
      (.StreamReset hdr.stream_id error_code)
      (((c.abandon_partial_data hdr.stream_id).modify_stream hdr.stream_id
        (·.reset_by_peer)).send_window_update 0 buffered)) := by
  unfold handle_rst_stream at h
  rw [require_bind_run] at h
  split at h
  case isFalse => cases h; exact .inl ⟨_, rfl, rfl⟩
  next hid =>
    rw [require_bind_run] at h
    split at h
    case isFalse => cases h; exact .inl ⟨_, rfl, rfl⟩
    cases h
    exact .inr ⟨hid, rfl, _, _, rfl⟩

/-! ## Calls -/

theorem send_initial_settings_cases (c : H2Connection L) :
    (∃ e, send_initial_settings c = (.error e, c)) ∨
      ∃ data, send_initial_settings c = (.ok (), { c with
        io := { c.io with
          send_buf := c.io.send_buf ++ data
          queued := c.io.queued ++ [.Settings false c.local_settings.encode_params] }
        settings_sent := true }) := by
  unfold send_initial_settings
  rw [get_bind_run]
  rw [bind_run]
  rcases queue_frame_cases 128 (.Settings false c.local_settings.encode_params) c with
    ⟨e, hq⟩ | ⟨data, hq⟩
  · rw [hq]
    exact .inl ⟨e, rfl⟩
  · rw [hq]
    exact .inr ⟨data, rfl⟩

/-- Before the deferred frames, at most our SETTINGS go out. -/
theorem generate_output_cases (c : H2Connection L) :
    ∃ bytes sent settings_sent, (∀ f ∈ sent, f = .Settings false c.local_settings.encode_params) ∧
      c.generate_output = ({ c with
        io := { c.io with send_buf := c.io.send_buf ++ bytes, queued := c.io.queued ++ sent }
        settings_sent
        preface_sent := true } : H2Connection L).flush_window_updates := by
  unfold generate_output
  by_cases hsent : c.preface_sent = true
  · refine ⟨[], [], c.settings_sent, by simp, ?_⟩
    rw [if_pos hsent, List.append_nil, List.append_nil, ← hsent]
  rw [if_neg hsent]
  have hpreface : ∃ bytes, (if c.role = .Client then c.queue_preface else c) =
      { c with io := { c.io with send_buf := c.io.send_buf ++ bytes } } := by
    unfold queue_preface
    split
    · split
      · exact ⟨[], by rw [List.append_nil]⟩
      · exact ⟨_, rfl⟩
    · exact ⟨[], by rw [List.append_nil]⟩
  obtain ⟨bytes, hpreface⟩ := hpreface
  rw [hpreface]
  dsimp only
  rcases send_initial_settings_cases { c with io := { c.io with
    send_buf := c.io.send_buf ++ bytes } } with ⟨e, hq⟩ | ⟨data, hq⟩
  · rw [hq]
    exact ⟨bytes, [], c.settings_sent, by simp, by simp⟩
  · rw [hq]
    refine ⟨bytes ++ data, [_], true, List.forall_mem_singleton.mpr rfl, ?_⟩
    dsimp only
    rw [List.append_assoc]

theorem poll_output_cases (len : Nat) (c : H2Connection L) :
    ∃ send_offset send_buf, (c.poll_output len).2 = { c.generate_output with
      send_offset, io := { c.generate_output.io with send_buf } } := by
  unfold poll_output
  dsimp only
  split
  · exact ⟨_, _, rfl⟩
  · split
    · exact ⟨_, _, rfl⟩
    · exact ⟨_, _, rfl⟩

theorem send_goaway_cases (error_code : Nat) (c : H2Connection L) :
    (∃ e, send_goaway error_code c = (.error e, c)) ∨
      ∃ data, send_goaway error_code c = (.ok (), { c with
        io := { c.io with
          send_buf := c.io.send_buf ++ data
          queued := c.io.queued ++ [.GoAway c.last_peer_stream_id error_code] }
        goaway_sent := true
        state := .Closing }) := by
  unfold send_goaway
  rw [get_bind_run]
  rw [bind_run]
  rcases queue_frame_cases 32 (.GoAway c.last_peer_stream_id error_code) c with
    ⟨e, hq⟩ | ⟨data, hq⟩
  · rw [hq]
    exact .inl ⟨e, rfl⟩
  · rw [hq]
    exact .inr ⟨data, rfl⟩

/-- A timeout changes nothing but the state, the times, the events, and what GOAWAY sends. -/
theorem handle_timeout_cases (now : Nat) (c : H2Connection L) :
    ∃ state last_activity sent_since_tick goaway_sent events bytes sent,
      (∀ f ∈ sent, ∃ last_stream_id error_code, f = .GoAway last_stream_id error_code) ∧
      c.handle_timeout now = { c with
        state, last_activity, sent_since_tick, goaway_sent, events
        io := { c.io with send_buf := c.io.send_buf ++ bytes, queued := c.io.queued ++ sent } } := by
  have hout : ∀ c : H2Connection L, ∃ goaway_sent events bytes sent,
      (∀ f ∈ sent, ∃ last_stream_id error_code, f = .GoAway last_stream_id error_code) ∧
      c.time_out = { c with
        state := .Closed, goaway_sent, events
        io := { c.io with send_buf := c.io.send_buf ++ bytes, queued := c.io.queued ++ sent } } := by
    intro c
    unfold time_out
    rcases send_goaway_cases 0 c with ⟨e, hq⟩ | ⟨data, hq⟩
    · rw [hq]
      refine ⟨c.goaway_sent, (push_event .Timeout c).events, [], [], by simp, ?_⟩
      rw [List.append_nil, List.append_nil]
      rfl
    · rw [hq]
      exact ⟨_, _, data, [_], by simp, rfl⟩
  unfold handle_timeout
  split
  · refine ⟨c.state, c.last_activity, c.sent_since_tick, c.goaway_sent, c.events, [], [],
      by simp, ?_⟩
    rw [List.append_nil, List.append_nil]
  dsimp only
  generalize (if c.sent_since_tick = true then now else c.last_activity) = t
  obtain ⟨g, ev, sb, sent, hsent, heq⟩ :=
    hout { c with last_activity := t, sent_since_tick := false }
  split
  · rw [heq]
    exact ⟨_, _, _, _, _, _, sent, hsent, rfl⟩
  · split
    · rw [heq]
      exact ⟨_, _, _, _, _, _, sent, hsent, rfl⟩
    · refine ⟨c.state, t, false, c.goaway_sent, c.events, [], [], by simp, ?_⟩
      rw [List.append_nil, List.append_nil]

theorem recv_body_none {stream_id len : Nat}
    (hs : c.get_stream stream_id = none) : (recv_body stream_id len c).2 = c := by
  unfold recv_body
  rw [get_bind_run]
  rw [hs]
  rfl

/-- A read of a body: nothing is there, or bytes leave the buffer and are credited. -/
theorem recv_body_cases (stream_id len : Nat) {stream : H2Stream}
    (hs : c.get_stream stream_id = some stream) :
    (stream.data_buf = [] ∧ ((recv_body stream_id len c).2 = c ∨
      (recv_body stream_id len c).2 = c.modify_stream stream_id (·.body_read []))) ∨
    (stream.data_buf ≠ [] ∧ ∃ n, n ≤ stream.data_buf.length ∧
      (recv_body stream_id len c).2 =
        ((c.modify_stream stream_id (·.body_read (stream.data_buf.drop n))).send_window_update 0
          n).send_window_update stream_id n) := by
  unfold recv_body
  rw [get_bind_run]
  rw [hs, bind_run, Method.okOr_some_run]
  dsimp only
  by_cases hempty : stream.data_buf = []
  · refine .inl ⟨hempty, ?_⟩
    rw [if_pos hempty, require_bind_run]
    split
    · exact .inr rfl
    · exact .inl rfl
  · refine .inr ⟨hempty, min stream.data_buf.length len, Nat.min_le_left _ _, ?_⟩
    rw [if_neg hempty]
    rfl

theorem discard_body_none {stream_id error_code : Nat}
    (hs : c.get_stream stream_id = none) : (discard_body stream_id error_code c).2 = c := by
  unfold discard_body
  rw [get_bind_run]
  rw [hs]
  rfl

/-- A discarded body: the stream is closed and its unread bytes are credited. -/
theorem discard_body_cases (stream_id error_code : Nat) {stream : H2Stream}
    (hs : c.get_stream stream_id = some stream) :
    let discarded := ((c.abandon_partial_data stream_id).modify_stream stream_id
      (·.abandon error_code)).send_window_update 0 stream.data_buf.length
    (discard_body stream_id error_code c).2 = discarded ∨
      (discard_body stream_id error_code c).2 = discarded.flush_window_updates := by
  unfold discard_body
  rw [get_bind_run]
  rw [hs]
  by_cases hfin : stream.fin_received = true
  · refine .inl ?_
    rw [bind_run, Method.okOr_some_run]
    dsimp only
    rw [if_pos hfin]
    rfl
  · refine .inr ?_
    rw [bind_run, Method.okOr_some_run]
    dsimp only
    rw [if_neg hfin]
    rfl

/-- A read of headers runs the decoder, and takes the block if it could be decoded. -/
theorem recv_headers_cases (stream_id : Nat) (c : H2Connection L) :
    (c.recv_headers stream_id).2.2 = c ∨
      ∃ stream, c.get_stream stream_id = some stream ∧ stream.headers_received = true ∧
        ((∃ e, (c.decoder.decode stream.headers_data).1 = .error e ∧
          (c.recv_headers stream_id).2.2 =
            { c with decoder := (c.decoder.decode stream.headers_data).2.2 }) ∨
        ((c.decoder.decode stream.headers_data).1 = .ok () ∧
          (c.recv_headers stream_id).2.2 = modify_stream stream_id H2Stream.block_read
            { c with decoder := (c.decoder.decode stream.headers_data).2.2 })) := by
  unfold recv_headers
  rcases hs : c.get_stream stream_id with _ | stream
  · exact .inl rfl
  dsimp only
  by_cases hreceived : stream.headers_received = false
  · rw [if_pos hreceived]
    exact .inl rfl
  rw [if_neg hreceived]
  refine .inr ⟨stream, rfl, by simpa using hreceived, ?_⟩
  rcases c.decoder.decode stream.headers_data with ⟨_ | _, emitted, decoder⟩
  · exact .inl ⟨_, rfl, rfl⟩
  · exact .inr ⟨rfl, rfl⟩

/-- HEADERS of ours: no room for the stream, bytes that are no frame, or a frame. -/
theorem send_headers_cases (stream_id : Nat) (headers : List Header) (end_stream : Bool)
    (c : H2Connection L) :
    let ensured := c.ensure_stream stream_id
    (ensured.1 = false ∧ (send_headers stream_id headers end_stream c).2 = ensured.2) ∨
    (ensured.1 = true ∧ ∃ bytes, (send_headers stream_id headers end_stream c).2 =
      { ensured.2 with io := { ensured.2.io with send_buf := ensured.2.io.send_buf ++ bytes } }) ∨
    (ensured.1 = true ∧ ∃ bytes block, (send_headers stream_id headers end_stream c).2 =
      { ({ ensured.2 with io := { ensured.2.io with
            send_buf := ensured.2.io.send_buf ++ bytes
            queued := ensured.2.io.queued ++ [.Headers stream_id block end_stream] } } :
          H2Connection L).modify_stream stream_id (·.headers_sent end_stream) with
        sent_since_tick := true }) := by
  dsimp only
  unfold send_headers
  rw [get_bind_run]
  rw [modify_bind_run]
  rw [require_bind_run]
  by_cases hensured : (c.ensure_stream stream_id).1 = true
  swap
  · rw [if_neg hensured]
    exact .inl ⟨by simpa using hensured, rfl⟩
  rw [if_pos hensured]
  refine .inr ?_
  rw [get_bind_run]
  rw [require_bind_run]
  generalize (c.ensure_stream stream_id).2 = c₁
  split
  swap
  · exact .inl ⟨hensured, [], by rw [List.append_nil]⟩
  have hblock := encode_block_cases headers c₁
  rw [bind_run]
  rcases hrun : encode_block headers c₁ with ⟨e | block, c₂⟩
  · rw [hrun] at hblock
    refine .inl ⟨hensured, ?_⟩
    rcases hblock with rfl | ⟨bytes, rfl⟩
    · exact ⟨[], by rw [List.append_nil]⟩
    · exact ⟨_, rfl⟩
  rw [hrun] at hblock
  have hbuf : ∃ bytes, c₂ = { c₁ with io := { c₁.io with send_buf := c₁.io.send_buf ++ bytes } } := by
    rcases hblock with rfl | ⟨bytes, rfl⟩
    · exact ⟨[], by rw [List.append_nil]⟩
    · exact ⟨_, rfl⟩
  obtain ⟨zeros, rfl⟩ := hbuf
  dsimp only
  rw [bind_run]
  rcases append_frame_cases (.Headers stream_id block end_stream)
    { c₁ with io := { c₁.io with send_buf := c₁.io.send_buf ++ zeros } } with
    ⟨e, bytes, hq⟩ | ⟨bytes, hq⟩
  · rw [hq]
    refine .inl ⟨hensured, zeros ++ bytes, ?_⟩
    simp only [append, List.append_assoc]
  · rw [hq]
    refine .inr ⟨hensured, zeros ++ bytes, block, ?_⟩
    simp only [append, List.append_assoc]
    rfl

theorem open_stream_cases (headers : List Header) (end_stream : Bool) (c : H2Connection L) :
    (open_stream headers end_stream c).2 = c ∨ (open_stream headers end_stream c).2 =
      (send_headers c.next_stream_id headers end_stream
        { c with next_stream_id := c.next_stream_id + 2 }).2 := by
  unfold open_stream
  rw [get_bind_run]
  rw [require_bind_run]
  split
  · refine .inr ?_
    rw [modify_bind_run]
    rw [bind_run]
    rcases send_headers c.next_stream_id headers end_stream
      { c with next_stream_id := c.next_stream_id + 2 } with ⟨_ | _, c'⟩ <;> rfl
  · exact .inl rfl

/-- What both windows allow is taken out of them. -/
theorem charge_run (stream_id : Nat) {len : Nat}
    (hlen : len ≤ c.conn_send_fc.window.toNat) (hwindow : c.conn_send_fc.window ≤ 0x7fffffff) :
    charge stream_id len c = (.ok (), { c with
      conn_send_fc := { window := c.conn_send_fc.window - len }
      streams := if len = 0 then c.streams else
        keyed.modify H2Stream.id stream_id (·.shift_window (-len)) c.streams }) := by
  unfold charge
  by_cases hempty : len = 0
  · rw [if_pos hempty, if_pos hempty, hempty]
    simp
  · rw [if_neg hempty, if_neg hempty, bind_run, on_run]
    have hconsume : FlowController.consume len c.conn_send_fc =
        (.ok (), { window := c.conn_send_fc.window - len }) := by
      unfold FlowController.consume
      rw [if_neg (by omega), if_neg (by omega)]
    rw [hconsume]
    rfl

/-- DATA of ours: refused, bytes that are no frame, or a frame that is charged to the windows. -/
theorem send_data_run (stream_id : Nat) (data : Bytes) (end_stream : Bool) (c : H2Connection L) :
    (∃ bytes, (send_data stream_id data end_stream c).2 = c.append bytes) ∨
    ∃ payload last bytes, payload.length ≤ c.sendable stream_id data.length ∧
      (send_data stream_id data end_stream c).2 =
        match charge stream_id payload.length ({ c with io := { c.io with
            send_buf := c.io.send_buf ++ bytes
            queued := c.io.queued ++ [.Data stream_id payload last] } } : H2Connection L) with
        | (.ok _, c') =>
          { (if last then c'.modify_stream stream_id (·.send_end_stream) else c') with
            sent_since_tick := true }
        | (.error _, c') => c' := by
  have hrefused : c = c.append [] := by simp [append]
  unfold send_data
  rw [get_bind_run]
  rw [require_bind_run]
  split
  case isFalse => exact .inl ⟨[], hrefused⟩
  rw [require_bind_run]
  split
  case isFalse => exact .inl ⟨[], hrefused⟩
  rw [require_bind_run]
  split
  case isFalse => exact .inl ⟨[], hrefused⟩
  have hle : (data.take (c.sendable stream_id data.length)).length ≤
      c.sendable stream_id data.length := by
    rw [List.length_take]
    omega
  generalize (end_stream && (data.take (c.sendable stream_id data.length)).length == data.length)
    = last
  generalize data.take (c.sendable stream_id data.length) = payload at hle ⊢
  rw [bind_run]
  rcases append_data_cases stream_id payload last c with ⟨e, bytes, hq⟩ | ⟨bytes, hq⟩
  · rw [hq]
    exact .inl ⟨bytes, rfl⟩
  rw [hq]
  dsimp only
  refine .inr ⟨payload, last, bytes, hle, ?_⟩
  rw [bind_run]
  unfold append
  dsimp only
  rcases charge stream_id payload.length _ with ⟨e | u, c'⟩
  · rfl
  · cases last <;> rfl

/-- DATA of ours: refused, bytes that are no frame, or a frame that both windows allow. -/
theorem send_data_cases (stream_id : Nat) (data : Bytes) (end_stream : Bool) (c : H2Connection L)
    (hwindow : c.conn_send_fc.window ≤ 0x7fffffff) :
    (∃ send_buf, (send_data stream_id data end_stream c).2 =
      { c with io := { c.io with send_buf } }) ∨
    (∃ payload last send_buf, payload.length ≤ c.sendable stream_id data.length ∧
      (send_data stream_id data end_stream c).2 =
        let sent : H2Connection L := { c with
          io := { c.io with send_buf, queued := c.io.queued ++ [.Data stream_id payload last] }
          conn_send_fc := { window := c.conn_send_fc.window - payload.length }
          streams := if payload.length = 0 then c.streams else
            keyed.modify H2Stream.id stream_id (·.shift_window (-payload.length)) c.streams
          sent_since_tick := true }
        if last then sent.modify_stream stream_id (·.send_end_stream) else sent) := by
  rcases send_data_run stream_id data end_stream c with ⟨bytes, heq⟩ | ⟨payload, last, bytes, hle, heq⟩
  · exact .inl ⟨_, heq⟩
  have hconn : c.sendable stream_id data.length ≤ c.conn_send_fc.window.toNat := by
    unfold sendable
    dsimp only
    omega
  refine .inr ⟨payload, last, c.io.send_buf ++ bytes, hle, heq.trans ?_⟩
  rw [charge_run stream_id ?_ ?_]
  · cases last <;> rfl
  · exact Nat.le_trans hle hconn
  · exact hwindow

end H2Connection

end milli_http.h2
