-- What happens to the data of STREAM frames. The receive buffer of a stream takes data in
-- order only and up to its size; the rest of a frame is dropped although the packet is
-- acknowledged. What the application reads is in order nevertheless, and a FIN ends it at
-- the right place as long as no frame with a FIN was cut off.
import MilliHttp.Connection.Effects
import MilliHttp.Standin

open bytes method

namespace milli_http.connection.stream_data

open crypto tls transport packet frame Connection

variable {B : Build}

/-! ## Receive buffers -/

/-- The receive buffer of a stream. -/
def buffer (c : Connection B) (stream_id : Nat) : Option StreamRecvBuf :=
  slots.lookup StreamRecvBuf.stream_id stream_id c.sio.recv_bufs

/-- The buffer a frame goes to: the stream's own, else a fresh one if a slot is free. -/
def target (c : Connection B) (stream_id : Nat) : Option StreamRecvBuf :=
  (buffer c stream_id).or
    (if slots.hasFree B.MAX_STREAMS c.sio.recv_bufs then some (.new stream_id) else none)

@[simp] theorem store_stream_id (buf : StreamRecvBuf) (N offset : Nat) (data : Bytes) (fin : Bool) :
    (buf.store N offset data fin).stream_id = buf.stream_id := by
  unfold StreamRecvBuf.store
  dsimp only
  split
  · rfl
  · split <;> rfl

/-- Storing moves the next offset to the end of the frame, or as far as there is room. -/
theorem store_next_offset (buf : StreamRecvBuf) (N offset : Nat) (data : Bytes) (fin : Bool)
    (h : offset ≤ buf.next_offset) : (buf.store N offset data fin).next_offset =
      max buf.next_offset
        (min (offset + data.length) (buf.next_offset + (N - buf.data.length))) := by
  unfold StreamRecvBuf.store
  dsimp only
  rw [if_neg (by omega)]
  split
  · dsimp only
    omega
  · simp only [List.length_take, List.length_drop]
    omega

theorem store_past_gap (buf : StreamRecvBuf) (N offset : Nat) (data : Bytes) (fin : Bool)
    (h : buf.next_offset < offset) : buf.store N offset data fin = buf := if_pos h

theorem store_stream_data_buffer (c : Connection B) (stream_id offset : Nat) (data : Bytes)
    (fin : Bool) :
    slots.lookup StreamRecvBuf.stream_id stream_id (c.sio.store_stream_data B.MAX_STREAMS
      B.STREAM_BUF stream_id offset data fin).recv_bufs =
      (target c stream_id).map (·.store B.STREAM_BUF offset data fin) := by
  unfold QuicStreamIo.store_stream_data target buffer
  cases hbuf : slots.lookup StreamRecvBuf.stream_id stream_id c.sio.recv_bufs with
  | some buf =>
    exact slots.lookup_update_self hbuf rfl (by simp [slots.lookup_key hbuf])
  | none =>
    have hfree := slots.insert_isSome B.MAX_STREAMS
      ((StreamRecvBuf.new stream_id).store B.STREAM_BUF offset data fin) c.sio.recv_bufs
    have hid : ((StreamRecvBuf.new stream_id).store B.STREAM_BUF offset data fin).stream_id =
        stream_id := store_stream_id _ _ _ _ _
    dsimp only
    cases hins : slots.insert B.MAX_STREAMS
        ((StreamRecvBuf.new stream_id).store B.STREAM_BUF offset data fin) c.sio.recv_bufs with
    | none =>
      rw [hins] at hfree
      simp [← hfree, hbuf]
    | some recv_bufs =>
      rw [hins] at hfree
      have hnew : slots.lookup StreamRecvBuf.stream_id ((StreamRecvBuf.new stream_id).store
          B.STREAM_BUF offset data fin).stream_id c.sio.recv_bufs = none := by rwa [hid]
      have hself := slots.lookup_insert_self hins hnew
      rw [hid] at hself
      simpa [← hfree] using hself

theorem stream_stored_buffer (c : Connection B) (stream : StreamFrame) (streams : StreamMap)
    (n : Nat) : buffer (c.stream_stored stream streams n) stream.stream_id =
      (target c stream.stream_id).map
        (·.store B.STREAM_BUF stream.offset stream.data stream.fin) := by
  rw [← store_stream_data_buffer]
  exact congrArg (fun side => slots.lookup StreamRecvBuf.stream_id stream.stream_id
    side.sio.recv_bufs) (push_event_stream_side _ _)

/-! ## Acknowledged data -/

/-- The byte at an offset of a stream has gone into its receive buffer. -/
def Retained (c : Connection B) (stream_id o : Nat) : Prop :=
  ∃ buf ∈ buffer c stream_id, o < buf.next_offset

/-- The byte at an offset of a stream has been read. -/
def Delivered (c : Connection B) (stream_id o : Nat) : Prop :=
  ∃ buf ∈ buffer c stream_id, o < buf.next_offset - (buf.data.length - buf.read_offset)

instance (c : Connection B) (stream_id o : Nat) : Decidable (Retained c stream_id o) :=
  inferInstanceAs (Decidable (∃ buf ∈ buffer c stream_id, _))

instance (c : Connection B) (stream_id o : Nat) : Decidable (Delivered c stream_id o) :=
  inferInstanceAs (Decidable (∃ buf ∈ buffer c stream_id, _))

/-- Every byte of a frame is retained after it was dispatched, or had been read before. -/
def DataRetained (c : Connection B) (level : Level) (now : Instant) (stream : StreamFrame) : Prop :=
  ∀ o, stream.offset ≤ o → o < stream.offset + stream.data.length →
    Retained (dispatch_frame level now (.Stream stream) c).2 stream.stream_id o ∨
      Delivered c stream.stream_id o

/-- The frame brings nothing new, or its stream is known (or can be created), a buffer is there
(or a slot for one), the frame leaves no gap and all of it fits. -/
def TakenWhole (c : Connection B) (stream : StreamFrame) : Prop :=
  stream.data = [] ∨
  (∃ buf ∈ buffer c stream.stream_id, stream.offset + stream.data.length ≤ buf.next_offset) ∨
  (((c.with_stream stream.stream_id).get stream.stream_id).isSome ∧
    ∃ buf ∈ target c stream.stream_id, stream.offset ≤ buf.next_offset ∧
      stream.offset + stream.data.length ≤ buf.next_offset + (B.STREAM_BUF - buf.data.length))

theorem le_store_next_offset (buf : StreamRecvBuf) (N offset : Nat) (data : Bytes) (fin : Bool) :
    buf.next_offset ≤ (buf.store N offset data fin).next_offset := by
  by_cases h : offset ≤ buf.next_offset
  · rw [store_next_offset buf N offset data fin h]
    omega
  · exact Nat.le_of_eq (congrArg _ (store_past_gap buf N offset data fin (by omega)).symm)

theorem dataRetained_iff {c : Connection B} {level : Level} {now : Instant} {stream : StreamFrame}
    (hmono : ∀ buf, buffer c stream.stream_id = some buf →
      ∃ buf', buffer (dispatch_frame level now (.Stream stream) c).2 stream.stream_id = some buf' ∧
        buf.next_offset ≤ buf'.next_offset) :
    DataRetained c level now stream ↔ stream.data = [] ∨
      ∃ buf ∈ buffer (dispatch_frame level now (.Stream stream) c).2 stream.stream_id,
        stream.offset + stream.data.length ≤ buf.next_offset := by
  constructor
  · intro h
    rcases List.eq_nil_or_concat stream.data with hnil | ⟨init, last, hlast⟩
    · exact .inl hnil
    · right
      have hpos : 0 < stream.data.length := by simp [hlast]
      rcases h (stream.offset + stream.data.length - 1) (by omega) (by omega) with
        ⟨buf, hbuf, hlt⟩ | ⟨buf, hbuf, hlt⟩
      · exact ⟨buf, hbuf, by omega⟩
      · obtain ⟨buf', hbuf', hle⟩ := hmono buf hbuf
        exact ⟨buf', hbuf', by omega⟩
  · rintro (hnil | ⟨buf, hbuf, hle⟩) o _ ho
    · simp only [hnil, List.length_nil] at ho
      omega
    · exact .inl ⟨buf, hbuf, by omega⟩

/-- A STREAM frame that `dispatch_frame` accepts keeps all its bytes exactly when it leaves no
gap and fits. -/
theorem accepted_data_is_retained_iff (c : Connection B) (level : Level) (now : Instant)
    (stream : StreamFrame) (hok : (dispatch_frame level now (.Stream stream) c).1 = .ok ()) :
    DataRetained c level now stream ↔ TakenWhole c stream := by
  have hdispatch : dispatch_frame level now (.Stream stream) c = handle_stream stream c := rfl
  rcases handle_stream_cases stream c with
    ⟨hnone, hr⟩ | ⟨e, streams, -, hr⟩ | ⟨n, streams, -, -, hr⟩ | ⟨n, streams, hm, -, hr⟩
  · -- The stream is unknown: nothing is stored.
    have hbuffer : buffer (dispatch_frame level now (.Stream stream) c).2 stream.stream_id =
        buffer c stream.stream_id := by rw [hdispatch, hr]; rfl
    rw [dataRetained_iff fun buf hbuf => ⟨buf, hbuffer.trans hbuf, Nat.le_refl _⟩, hbuffer]
    simp [TakenWhole, hnone]
  · rw [hdispatch, hr] at hok
    cases hok
  · rw [hdispatch, hr] at hok
    cases hok
  · have hbuffer : buffer (dispatch_frame level now (.Stream stream) c).2 stream.stream_id =
        (target c stream.stream_id).map
          (·.store B.STREAM_BUF stream.offset stream.data stream.fin) := by
      rw [hdispatch, hr]
      exact stream_stored_buffer c stream streams n
    have hknown : ((c.with_stream stream.stream_id).get stream.stream_id).isSome := by
      rcases StreamMap.with_recv_cases stream.stream_id
        (RecvState.mark_recv stream.offset stream.data.length stream.fin)
        (c.with_stream stream.stream_id) with herr | ⟨st, _, hget, -⟩
      · rw [StreamMap.mark_recv, herr] at hm
        cases hm
      · rw [hget]
        rfl
    have htarget : ∀ buf, buffer c stream.stream_id = some buf → target c stream.stream_id = some buf :=
      fun buf hbuf => by simp [target, hbuf]
    rw [dataRetained_iff fun buf hbuf =>
      ⟨_, by rw [hbuffer, htarget buf hbuf]; rfl, le_store_next_offset _ _ _ _ _⟩, hbuffer]
    simp only [TakenWhole, hknown, true_and, Option.mem_def, Option.map_eq_some_iff]
    constructor
    · rintro (hnil | ⟨_, ⟨buf, hbuf, rfl⟩, hle⟩)
      · exact .inl hnil
      · by_cases hgap : stream.offset ≤ buf.next_offset
        · rw [store_next_offset _ _ _ _ _ hgap] at hle
          exact .inr (.inr ⟨buf, hbuf, hgap, by omega⟩)
        · rw [store_past_gap _ _ _ _ _ (by omega)] at hle
          omega
    · rintro (hnil | ⟨buf, hbuf, hle⟩ | ⟨buf, hbuf, hgap, hle⟩)
      · exact .inl hnil
      · exact .inr ⟨_, ⟨buf, htarget buf hbuf, rfl⟩,
          Nat.le_trans hle (le_store_next_offset _ _ _ _ _)⟩
      · refine .inr ⟨_, ⟨buf, hbuf, rfl⟩, ?_⟩
        rw [store_next_offset _ _ _ _ _ hgap]
        omega

section Runs

open standin

/-- The start of a stream the server opens. -/
def first_bytes : StreamFrame := { stream_id := 1, offset := 0, data := [1, 2, 3], fin := false }

/-- The law at a frame that is taken whole. -/
theorem first_bytes_are_retained :
    DataRetained (client .default_params) .Application 1 first_bytes ↔
      TakenWhole (client .default_params) first_bytes :=
  accepted_data_is_retained_iff _ _ _ _ (by decide +kernel)

/-- A byte past a gap. -/
def late_byte : StreamFrame := { stream_id := 1, offset := 3, data := [4], fin := false }

/-- A frame past a gap is accepted, so its packet will be acknowledged, and its data is
dropped. -/
theorem accepted_data_is_dropped :
    ¬ ∀ (B : Build) (c : Connection B) (level : Level) (now : Instant) (stream : StreamFrame),
      (dispatch_frame level now (.Stream stream) c).1 = .ok () →
        DataRetained c level now stream := by
  intro h
  have hdata := h build (client .default_params) .Application 1 late_byte (by decide +kernel) 3
    (by decide) (by decide)
  exact absurd hdata (by decide +kernel)

end Runs

end milli_http.connection.stream_data
