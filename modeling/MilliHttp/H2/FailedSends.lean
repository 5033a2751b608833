-- Sends that fail: what `send_headers`, `open_stream` and `send_data` leave behind when they
-- return an error.
import MilliHttp.H2.Effects
import MilliHttp.H2.Steps

open bytes method

namespace milli_http.h2.failed_sends

open hpack H2Connection

variable {L : Limits}

/-! ## What the law says -/

/-- The send buffer, the identifiers, the streams and the windows are as before. The windows of
the streams are part of the table. -/
structure Untouched (c c' : H2Connection L) : Prop where
  send_buf : c'.io.send_buf = c.io.send_buf
  next_stream_id : c'.next_stream_id = c.next_stream_id
  streams : c'.streams = c.streams
  send_window : c'.conn_send_fc = c.conn_send_fc
  recv_window : c'.conn_recv_fc = c.conn_recv_fc

/-- The call is a send, and returns an error. -/
def Fails (c : H2Connection L) : Op → Prop
  | .send_headers stream_id headers end_stream =>
    ∃ e, (send_headers stream_id headers end_stream c).1 = .error e
  | .open_stream headers end_stream => ∃ e, (open_stream headers end_stream c).1 = .error e
  | .send_data stream_id data end_stream =>
    ∃ e, (send_data stream_id data end_stream c).1 = .error e
  | _ => False

/-- If a send fails, it leaves nothing behind. -/
def Clean (c : H2Connection L) (op : Op) : Prop := Fails c op → Untouched c (op.apply c)

/-! ## The condition -/

/-- The largest identifier a frame header can hold. -/
def MAX_STREAM_ID : Nat := 0x7fffffff

/-- There is a place for one more stream, perhaps that of a closed one. -/
def HasPlace (c : H2Connection L) : Prop :=
  c.streams.length < L.MAX_STREAMS ∨ c.reap.streams.length < L.MAX_STREAMS

instance (c : H2Connection L) : Decidable (HasPlace c) := inferInstanceAs (Decidable (_ ∨ _))

/-- The header block fits: by way of the scratch or, if it outgrows it, in place. -/
def Encodes (c : H2Connection L) (headers : List Header) : Prop :=
  c.io.send_buf.length + 9 ≤ L.BUF ∧
    match encode headers HEADERS_SCRATCH with
    | .ok block => c.io.send_buf.length + 9 + block.length ≤ L.BUF
    | .error (.BufferTooSmall _) =>
      (encode headers (L.BUF - (c.io.send_buf.length + 9))).isOk = true
    | .error _ => False

instance (c : H2Connection L) (headers : List Header) : Decidable (Encodes c headers) := by
  unfold Encodes
  refine @instDecidableAnd _ _ _ ?_
  split <;> infer_instance

/-- It does not, and this shows before anything is written: the block did not outgrow the
scratch. -/
def Declines (c : H2Connection L) (headers : List Header) : Prop :=
  L.BUF < c.io.send_buf.length + 9 ∨
    match encode headers HEADERS_SCRATCH with
    | .ok block => L.BUF < c.io.send_buf.length + 9 + block.length
    | .error (.BufferTooSmall _) => False
    | .error _ => True

instance (c : H2Connection L) (headers : List Header) : Decidable (Declines c headers) := by
  unfold Declines
  refine @instDecidableOr _ _ _ ?_
  split <;> infer_instance

/-- HEADERS on a stream of the table go out or show too large in time; those that would add a
stream go out; and those that find no place find no closed stream to drop either. -/
def TidyHeaders (c : H2Connection L) (stream_id : Nat) (headers : List Header) : Prop :=
  if (c.get_stream stream_id).isSome = true then
    (Encodes c headers ∧ stream_id ≤ MAX_STREAM_ID) ∨ Declines c headers
  else if HasPlace c then Encodes c headers ∧ stream_id ≤ MAX_STREAM_ID
  else ∀ s ∈ c.streams, s.retained = true

/-- HEADERS on the next stream go out, if there is one. -/
def TidyOpen (c : H2Connection L) (headers : List Header) : Prop :=
  c.next_stream_id ≤ MAX_STREAM_ID →
    ((c.get_stream c.next_stream_id).isSome = true ∨ HasPlace c) ∧ Encodes c headers

/-- Data is refused: by the state of the stream, by the windows, or by the send buffer. -/
def Refuses (c : H2Connection L) (stream_id : Nat) (data : Bytes) : Prop :=
  (c.get_stream stream_id).all (·.can_send) = false ∨
    (c.sendable stream_id data.length = 0 ∧ data ≠ []) ∨
    L.BUF < c.io.send_buf.length + (9 + c.sendable stream_id data.length)

/-- The condition, per call. -/
def Tidy (c : H2Connection L) : Op → Prop
  | .send_headers stream_id headers _ => TidyHeaders c stream_id headers
  | .open_stream headers _ => TidyOpen c headers
  | .send_data stream_id data _ => stream_id ≤ MAX_STREAM_ID ∨ Refuses c stream_id data
  | _ => True

instance (c : H2Connection L) (op : Op) : Decidable (Tidy c op) := by
  unfold Tidy TidyHeaders TidyOpen Refuses
  split <;> infer_instance

/-! ## HEADERS -/

/-- What `send_headers` does when its stream is in the table. -/
def write_headers (stream_id : Nat) (headers : List Header) (end_stream : Bool) :
    Method (H2Connection L) Error Unit := do
  let c ← Method.get
  Method.require (c.io.send_buf.length + 9 ≤ L.BUF) (.BufferTooSmall (c.io.send_buf.length + 9))
  let block ← encode_block headers
  append_frame (.Headers stream_id block end_stream)
  Method.modify (modify_stream stream_id (·.headers_sent end_stream))
  Method.modify fun c => { c with sent_since_tick := true }

theorem send_headers_eq (stream_id : Nat) (headers : List Header) (end_stream : Bool)
    (c : H2Connection L) :
    send_headers stream_id headers end_stream c =
      if (c.ensure_stream stream_id).1 = true then
        write_headers stream_id headers end_stream (c.ensure_stream stream_id).2
      else (.error .InvalidState, (c.ensure_stream stream_id).2) := by
  unfold send_headers
  rw [Method.get_bind_run]
  rw [Method.modify_bind_run]
  rw [Method.require_bind_run]
  rfl

theorem encode_frame_header_ok {hdr : H2FrameHeader} (h : hdr.stream_id ≤ MAX_STREAM_ID) :
    ∃ header, encode_frame_header hdr = .ok header := by
  have hid : ¬hdr.stream_id > 0x7fffffff := Nat.not_lt.mpr h
  unfold encode_frame_header
  rw [if_neg hid]
  exact ⟨_, rfl⟩

theorem encode_frame_header_error {hdr : H2FrameHeader} (h : ¬hdr.stream_id ≤ MAX_STREAM_ID) :
    encode_frame_header hdr = .error .InvalidState := by
  have hid : hdr.stream_id > 0x7fffffff := Nat.lt_of_not_le h
  unfold encode_frame_header
  rw [if_pos hid]

/-- A block that fits is found, one that shows too large leaves nothing, and one that outgrows
the scratch and the buffer leaves a torn one. -/
theorem encode_block_run {c : H2Connection L} (hroom : c.io.send_buf.length + 9 ≤ L.BUF)
    (headers : List Header) :
    (Encodes c headers ∧ ¬Declines c headers ∧ ∃ block, encode_block headers c = (.ok block, c)) ∨
    (¬Encodes c headers ∧ Declines c headers ∧ ∃ e, encode_block headers c = (.error e, c)) ∨
    (¬Encodes c headers ∧ ¬Declines c headers ∧ ∃ e bytes, bytes ≠ [] ∧
      encode_block headers c = (.error e, c.append bytes)) := by
  have hnot : ¬L.BUF < c.io.send_buf.length + 9 := Nat.not_lt.mpr hroom
  unfold Encodes Declines encode_block
  cases henc : encode headers HEADERS_SCRATCH with
  | ok block =>
    simp only [hroom, hnot, true_and, false_or]
    by_cases hfits : L.BUF < c.io.send_buf.length + 9 + block.length
    · rw [if_pos hfits]
      exact .inr (.inl ⟨by omega, hfits, _, rfl⟩)
    · rw [if_neg hfits]
      exact .inl ⟨by omega, hfits, _, rfl⟩
  | error e =>
    cases e with
    | BufferTooSmall n =>
      simp only [hroom, hnot, true_and, false_or]
      cases encode headers (L.BUF - (c.io.send_buf.length + 9)) with
      | ok block => exact .inl ⟨rfl, not_false, _, rfl⟩
      | error e =>
        exact .inr (.inr ⟨Bool.false_ne_true, not_false, _, _, List.cons_ne_nil _ _, rfl⟩)
    | _ =>
      simp only [and_false, or_true, not_false_eq_true, true_and]
      exact .inr (.inl ⟨_, rfl⟩)

/-- With its stream in the table HEADERS go out, leave nothing, or leave bytes that are no
frame. -/
theorem write_headers_cases (stream_id : Nat) (headers : List Header) (end_stream : Bool)
    (c : H2Connection L) :
    ((Encodes c headers ∧ stream_id ≤ MAX_STREAM_ID) ∧
      (write_headers stream_id headers end_stream c).1 = .ok ()) ∨
    (¬Encodes c headers ∧ Declines c headers ∧
      ∃ e, write_headers stream_id headers end_stream c = (.error e, c)) ∨
    (¬(Encodes c headers ∧ stream_id ≤ MAX_STREAM_ID) ∧ ¬Declines c headers ∧
      ∃ e bytes, bytes ≠ [] ∧
        write_headers stream_id headers end_stream c = (.error e, c.append bytes)) := by
  unfold write_headers
  rw [Method.get_bind_run]
  rw [Method.require_bind_run]
  split
  · rename_i hroom
    rw [Method.bind_run]
    rcases encode_block_run hroom headers with ⟨hfits, hno, block, hrun⟩ |
      ⟨hno, hdeclines, e, hrun⟩ | ⟨hno, hnot, e, bytes, hbytes, hrun⟩
    · rw [hrun]
      dsimp only
      rw [Method.bind_run]
      unfold append_frame
      by_cases hid : stream_id ≤ MAX_STREAM_ID
      · have hheaders : (H2Frame.Headers stream_id block end_stream).parts.1.stream_id ≤
          MAX_STREAM_ID := hid
        obtain ⟨header, hheader⟩ := encode_frame_header_ok hheaders
        dsimp only
        rw [hheader]
        exact .inl ⟨⟨hfits, hid⟩, rfl⟩
      · have hheaders : ¬(H2Frame.Headers stream_id block end_stream).parts.1.stream_id ≤
          MAX_STREAM_ID := hid
        dsimp only
        rw [encode_frame_header_error hheaders]
        exact .inr (.inr ⟨fun h => hid h.2, hno, _, _, by simp, rfl⟩)
    · rw [hrun]
      exact .inr (.inl ⟨hno, hdeclines, e, rfl⟩)
    · rw [hrun]
      exact .inr (.inr ⟨fun h => hno h.1, hnot, e, bytes, hbytes, rfl⟩)
  · rename_i hroom
    exact .inr (.inl ⟨fun h => hroom h.1, .inl (Nat.lt_of_not_le hroom), _, rfl⟩)

theorem reap_streams_eq_iff (c : H2Connection L) :
    c.reap.streams = c.streams ↔ ∀ s ∈ c.streams, s.retained = true := List.filter_eq_self

/-- Making sure of a stream: it is in the table, it is added to it, or it finds no place. -/
theorem ensure_stream_run (stream_id : Nat) (c : H2Connection L) :
    ((c.get_stream stream_id).isSome = true ∧ c.ensure_stream stream_id = (true, c)) ∨
    (¬(c.get_stream stream_id).isSome = true ∧ HasPlace c ∧ ∃ streams, streams ≠ c.streams ∧
      c.ensure_stream stream_id = (true, { c with streams })) ∨
    (¬(c.get_stream stream_id).isSome = true ∧ ¬HasPlace c ∧
      c.ensure_stream stream_id = (false, c.reap)) := by
  have hknown : (c.streams.any fun s => s.id == stream_id) = (c.get_stream stream_id).isSome :=
    keyed.any_key H2Stream.id
  unfold ensure_stream HasPlace
  rw [hknown]
  by_cases hsome : (c.get_stream stream_id).isSome = true
  · rw [if_pos hsome]
    exact .inl ⟨hsome, rfl⟩
  · rw [if_neg hsome]
    refine .inr ?_
    -- A stream that is added is one of an id the table did not have.
    have hadded : ∀ (l : List H2Stream) (s : H2Stream), s.id = stream_id →
        l ++ [s] ≠ c.streams := by
      intro l s hid heq
      rw [← hknown, ← heq, List.any_append] at hsome
      simp [hid] at hsome
    by_cases hfull : c.streams.length ≥ L.MAX_STREAMS
    · rw [if_pos hfull]
      dsimp only
      split
      · exact .inr ⟨hsome, by omega, rfl⟩
      · refine .inl ⟨hsome, .inr (by omega), _, hadded _ _ ?_, rfl⟩
        rfl
    · rw [if_neg hfull]
      dsimp only
      rw [if_neg hfull]
      refine .inl ⟨hsome, .inl (by omega), _, hadded _ _ ?_, rfl⟩
      rfl

theorem untouched_refl (c : H2Connection L) : Untouched c c := ⟨rfl, rfl, rfl, rfl, rfl⟩

theorem not_untouched_append {c c' : H2Connection L} {bytes : Bytes} (hbytes : bytes ≠ [])
    (hbuf : c'.io.send_buf = c.io.send_buf) : ¬Untouched c (c'.append bytes) := by
  intro h
  have hsame : c'.io.send_buf ++ bytes = c.io.send_buf := h.send_buf
  rw [hbuf, List.append_right_eq_self] at hsame
  exact hbytes hsame

/-- HEADERS that fail are clean exactly when they meet the condition. -/
theorem send_headers_clean_iff (stream_id : Nat) (headers : List Header) (end_stream : Bool)
    (c : H2Connection L) :
    Clean c (.send_headers stream_id headers end_stream) ↔ TidyHeaders c stream_id headers := by
  have heq := send_headers_eq stream_id headers end_stream c
  unfold Clean Fails TidyHeaders Op.apply
  dsimp only
  rw [heq]
  rcases ensure_stream_run stream_id c with ⟨hsome, hrun⟩ | ⟨hnone, hplace, streams, hne, hrun⟩ |
    ⟨hnone, hplace, hrun⟩ <;> rw [hrun]
  · rw [if_pos hsome, if_pos rfl]
    rcases write_headers_cases stream_id headers end_stream c with
      ⟨hfits, hok⟩ | ⟨-, hdeclines, e, herr⟩ | ⟨hno, hnot, e, bytes, hbytes, herr⟩
    · rw [hok]
      exact iff_of_true nofun (.inl hfits)
    · rw [herr]
      exact iff_of_true (fun _ => untouched_refl c) (.inr hdeclines)
    · rw [herr]
      exact iff_of_false (fun h => not_untouched_append hbytes rfl (h ⟨e, rfl⟩))
        (fun h => h.elim hno hnot)
  · rw [if_neg hnone, if_pos hplace, if_pos rfl]
    rcases write_headers_cases stream_id headers end_stream { c with streams } with
      ⟨hfits, hok⟩ | ⟨hno, -, e, herr⟩ | ⟨hno, -, e, bytes, hbytes, herr⟩
    · rw [hok]
      exact iff_of_true nofun hfits
    · rw [herr]
      exact iff_of_false (fun h => hne (h ⟨e, rfl⟩).streams) (fun h => hno h.1)
    · rw [herr]
      have htouched : ¬Untouched c (append bytes { c with streams }) :=
        not_untouched_append hbytes rfl
      exact iff_of_false (fun h => htouched (h ⟨e, rfl⟩)) hno
  · rw [if_neg hnone, if_neg hplace, if_neg Bool.false_ne_true, ← reap_streams_eq_iff]
    exact ⟨fun h => (h ⟨_, rfl⟩).streams, fun h _ => ⟨rfl, rfl, h, rfl, rfl⟩⟩

/-! ## A new stream -/

/-- HEADERS go out exactly when there is a place for their stream and they fit. -/
theorem send_headers_ok_iff (stream_id : Nat) (headers : List Header) (end_stream : Bool)
    (c : H2Connection L) :
    (send_headers stream_id headers end_stream c).1 = .ok () ↔
      ((c.get_stream stream_id).isSome = true ∨ HasPlace c) ∧ Encodes c headers ∧
        stream_id ≤ MAX_STREAM_ID := by
  rw [send_headers_eq]
  rcases ensure_stream_run stream_id c with ⟨hsome, hrun⟩ | ⟨hnone, hplace, streams, -, hrun⟩ |
    ⟨hnone, hplace, hrun⟩ <;> rw [hrun]
  · rw [if_pos rfl]
    rcases write_headers_cases stream_id headers end_stream c with
      ⟨hfits, hok⟩ | ⟨hno, -, e, herr⟩ | ⟨hno, -, e, bytes, -, herr⟩
    · exact iff_of_true hok ⟨.inl hsome, hfits⟩
    · rw [herr]
      exact iff_of_false nofun fun h => hno h.2.1
    · rw [herr]
      exact iff_of_false nofun fun h => hno h.2
  · rw [if_pos rfl]
    rcases write_headers_cases stream_id headers end_stream { c with streams } with
      ⟨hfits, hok⟩ | ⟨hno, -, e, herr⟩ | ⟨hno, -, e, bytes, -, herr⟩
    · exact iff_of_true hok ⟨.inr hplace, hfits⟩
    · rw [herr]
      exact iff_of_false nofun fun h => hno h.2.1
    · rw [herr]
      exact iff_of_false nofun fun h => hno h.2
  · rw [if_neg Bool.false_ne_true]
    exact iff_of_false nofun fun h => h.1.elim hnone hplace

theorem send_headers_next_stream_id (stream_id : Nat) (headers : List Header) (end_stream : Bool)
    (c : H2Connection L) :
    (send_headers stream_id headers end_stream c).2.next_stream_id = c.next_stream_id := by
  have hensure : (c.ensure_stream stream_id).2.next_stream_id = c.next_stream_id := by
    rcases ensure_stream_run stream_id c with ⟨-, hrun⟩ | ⟨-, -, streams, -, hrun⟩ |
      ⟨-, -, hrun⟩ <;> rw [hrun]
    rfl
  rcases send_headers_cases stream_id headers end_stream c with
    ⟨-, heq⟩ | ⟨-, bytes, heq⟩ | ⟨-, bytes, block, heq⟩
  all_goals
    rw [heq]
    exact hensure

/-- The identifier is taken before the HEADERS are tried. -/
theorem open_stream_clean_iff (headers : List Header) (end_stream : Bool) (c : H2Connection L) :
    Clean c (.open_stream headers end_stream) ↔ TidyOpen c headers := by
  unfold Clean Fails TidyOpen Op.apply
  dsimp only
  unfold open_stream
  rw [Method.get_bind_run]
  rw [Method.require_bind_run]
  by_cases hid : c.next_stream_id ≤ 0x7fffffff
  · rw [if_pos hid, Method.modify_bind_run]
    rw [Method.bind_run]
    let c₁ : H2Connection L := { c with next_stream_id := c.next_stream_id + 2 }
    have hok := send_headers_ok_iff c.next_stream_id headers end_stream c₁
    have hnext := send_headers_next_stream_id c.next_stream_id headers end_stream c₁
    rcases hrun : send_headers c.next_stream_id headers end_stream c₁ with ⟨e | u, c'⟩ <;>
      rw [hrun] at hok hnext
    · refine iff_of_false (fun h => ?_) (fun h => ?_)
      · have hsame : c'.next_stream_id = c.next_stream_id := (h ⟨e, rfl⟩).next_stream_id
        have hmoved : c'.next_stream_id = c.next_stream_id + 2 := hnext
        omega
      · obtain ⟨hplace, hfits⟩ := h hid
        cases hok.mpr ⟨hplace, hfits, hid⟩
    · refine iff_of_true nofun fun _ => ?_
      obtain ⟨hplace, hfits, -⟩ := hok.mp rfl
      exact ⟨hplace, hfits⟩
  · rw [if_neg hid]
    exact iff_of_true (fun _ => untouched_refl c) fun h => absurd h hid

/-! ## DATA -/

theorem append_data_ok {stream_id : Nat} (h : stream_id ≤ MAX_STREAM_ID) (payload : Bytes)
    (end_stream : Bool) (c : H2Connection L) :
    ∃ io, append_data stream_id payload end_stream c = (.ok (), { c with io }) := by
  have hdata : (H2Frame.Data stream_id payload end_stream).parts.1.stream_id ≤ MAX_STREAM_ID := h
  obtain ⟨header, hheader⟩ := encode_frame_header_ok hdata
  unfold append_data append_frame
  dsimp only
  rw [hheader]
  exact ⟨_, rfl⟩

theorem append_data_error {stream_id : Nat} (h : ¬stream_id ≤ MAX_STREAM_ID) (payload : Bytes)
    (end_stream : Bool) (c : H2Connection L) :
    append_data stream_id payload end_stream c =
      (.error .InvalidState, c.append (List.replicate 9 0)) := by
  have hdata : ¬(H2Frame.Data stream_id payload end_stream).parts.1.stream_id ≤ MAX_STREAM_ID := h
  unfold append_data
  rw [encode_frame_header_error hdata]

theorem take_sendable_length (stream_id : Nat) (data : Bytes) (c : H2Connection L) :
    (data.take (c.sendable stream_id data.length)).length = c.sendable stream_id data.length := by
  rw [List.length_take]
  unfold sendable
  dsimp only
  omega

/-- DATA that fails is clean exactly when its identifier fits a header or it is refused. -/
theorem send_data_clean_iff (stream_id : Nat) (data : Bytes) (end_stream : Bool)
    {c : H2Connection L} (hwindow : InI32 c.conn_send_fc.window) :
    Clean c (.send_data stream_id data end_stream) ↔
      stream_id ≤ MAX_STREAM_ID ∨ Refuses c stream_id data := by
  have hlen := take_sendable_length stream_id data c
  have hconn : c.sendable stream_id data.length ≤ c.conn_send_fc.window.toNat := by
    unfold sendable
    dsimp only
    omega
  have hlimit : c.conn_send_fc.window ≤ 0x7fffffff := Int.le_of_lt_add_one hwindow.2
  unfold Clean Fails Refuses Op.apply
  dsimp only
  unfold send_data
  rw [Method.get_bind_run]
  rw [Method.require_bind_run]
  by_cases hcan : (c.get_stream stream_id).all (·.can_send) = true
  swap
  · rw [if_neg hcan]
    exact iff_of_true (fun _ => untouched_refl c) (.inr (.inl (Bool.eq_false_iff.mpr hcan)))
  rw [if_pos hcan, Method.require_bind_run]
  by_cases hblocked : c.sendable stream_id data.length = 0 ∧ data ≠ []
  · rw [if_neg (not_not.mpr hblocked)]
    exact iff_of_true (fun _ => untouched_refl c) (.inr (.inr (.inl hblocked)))
  rw [if_pos hblocked, Method.require_bind_run, hlen]
  by_cases hroom : c.io.send_buf.length + (9 + c.sendable stream_id data.length) ≤ L.BUF
  swap
  · rw [if_neg hroom]
    exact iff_of_true (fun _ => untouched_refl c) (.inr (.inr (.inr (Nat.lt_of_not_le hroom))))
  rw [if_pos hroom, Method.bind_run]
  generalize (end_stream && c.sendable stream_id data.length == data.length) = last
  generalize data.take (c.sendable stream_id data.length) = payload
  by_cases hid : stream_id ≤ MAX_STREAM_ID
  · -- The header can be encoded, and the windows have room for what goes out.
    refine iff_of_true ?_ (.inl hid)
    obtain ⟨io, hio⟩ := append_data_ok hid payload last c
    rw [hio]
    dsimp only
    rw [Method.bind_run, charge_run stream_id (c := { c with io }) hconn hlimit]
    exact nofun
  · rw [append_data_error hid payload last c]
    refine iff_of_false (fun h => ?_) ?_
    · have hzeros : List.replicate 9 (0 : UInt8) ≠ [] := nofun
      exact not_untouched_append hzeros rfl (h ⟨_, rfl⟩)
    · rintro (h | h | h | h)
      · exact hid h
      · rw [hcan] at h
        cases h
      · exact hblocked h
      · omega

/-! ## Every call -/

/-- Whatever the state of a connection and the arguments of a call: if it is a send that fails,
it leaves everything as it was exactly when it meets the condition. -/
theorem failed_sends_leave_nothing {c : H2Connection L} (hwindow : InI32 c.conn_send_fc.window)
    (op : Op) : Clean c op ↔ Tidy c op := by
  cases op with
  | send_headers stream_id headers end_stream =>
    exact send_headers_clean_iff stream_id headers end_stream c
  | open_stream headers end_stream => exact open_stream_clean_iff headers end_stream c
  | send_data stream_id data end_stream =>
    exact send_data_clean_iff stream_id data end_stream hwindow
  | _ => exact iff_of_true nofun trivial

/-- A client that can hold one stream. -/
def one_stream : Limits where
  MAX_STREAMS := 1
  HDRBUF := 64
  DATABUF := 64
  BUF := 1100

/-- The client with a stream open. -/
def busy_client : H2Connection one_stream :=
  (Op.open_stream [(ascii ":method", ascii "GET")] false).apply (.new one_stream .Client)

/-- A header of 1100 bytes outgrows the scratch and the send buffer. -/
def large_request : Op := .open_stream [(ascii "cookie", List.replicate 1100 0x61)] true

/-- The law at HEADERS for which the table has no place. -/
theorem second_stream_is_refused_cleanly :
    Fails busy_client (.send_headers 3 [(ascii ":method", ascii "GET")] false) ∧
      Clean busy_client (.send_headers 3 [(ascii ":method", ascii "GET")] false) :=
  ⟨⟨.InvalidState, by decide +kernel⟩,
    (failed_sends_leave_nothing (by decide +kernel) _).mpr (by decide +kernel)⟩

/-- The stream of the large request and its identifier stay taken. What was written of its header
block, the name index and the length of the value, goes out behind the nine zeros of a frame
header, and zeros fill the buffer up. -/
theorem large_request_leaves_a_torn_block :
    let torn : Bytes := List.replicate 9 0 ++ [0x0f, 0x11, 0x7f, 0xcd, 0x07] ++
      List.replicate 1086 0
    Fails (H2Connection.new one_stream .Client) large_request ∧
      ¬Clean (H2Connection.new one_stream .Client) large_request ∧
      ((large_request.apply (H2Connection.new one_stream .Client)).poll_output 2048).1 =
        some torn := by
  have hrun : (open_stream [(ascii "cookie", List.replicate 1100 0x61)] true
        (H2Connection.new one_stream .Client)).1 = .error (.BufferTooSmall 1103) ∧
      (large_request.apply (H2Connection.new one_stream .Client)).next_stream_id = 3 ∧
      ((large_request.apply (H2Connection.new one_stream .Client)).poll_output 2048).1 =
        some (List.replicate 9 0 ++ [0x0f, 0x11, 0x7f, 0xcd, 0x07] ++
          List.replicate 1086 0) := by decide +kernel
  obtain ⟨herror, hmoved, htorn⟩ := hrun
  have hfails : Fails (H2Connection.new one_stream .Client) large_request := ⟨_, herror⟩
  refine ⟨hfails, fun h => ?_, htorn⟩
  have hsame := (h hfails).next_stream_id
  rw [hmoved] at hsame
  cases hsame

end milli_http.h2.failed_sends
