-- The calls an application makes on a connection (connection/mod.rs): timers, streams,
-- closing and key updates. Also where received stream data is stored.
import MilliHttp.Connection.State

open bytes method

namespace milli_http.connection

open crypto tls transport

variable {B : Build}

/-! ## Receive buffers -/

namespace StreamRecvBuf

def new (stream_id : Nat) : StreamRecvBuf where
  stream_id := stream_id
  data := []
  read_offset := 0
  fin_received := false
  next_offset := 0

/-- Appends what is new of a frame to a buffer of `STREAM_BUF` bytes. A frame past a gap is
dropped, and so is what does not fit. -/
def store (STREAM_BUF offset : Nat) (data : Bytes) (fin : Bool) (buf : StreamRecvBuf) :
    StreamRecvBuf :=
  let frame_end := offset + data.length
  if offset > buf.next_offset then buf
  else if frame_end ≤ buf.next_offset then
    { buf with fin_received := if fin then true else buf.fin_received }
  else
    let new_data := data.drop (buf.next_offset - offset)
    let copied := new_data.take (STREAM_BUF - buf.data.length)
    { buf with
      data := buf.data ++ copied
      next_offset := buf.next_offset + copied.length
      fin_received := if fin then true else buf.fin_received }

/-- Reads into a buffer of `cap` bytes: the bytes read and whether the stream ends here. The
buffer is given up with the FIN, and compacted otherwise. -/
def read (cap : Nat) (recv : StreamRecvBuf) :
    Except Error (Bytes × Bool) × Option StreamRecvBuf :=
  let available := recv.data.length - recv.read_offset
  if available = 0 then
    if recv.fin_received then (.ok ([], true), none) else (.error .WouldBlock, some recv)
  else
    let copied := (recv.data.drop recv.read_offset).take (min available cap)
    let read_offset := recv.read_offset + copied.length
    let fin := recv.fin_received && read_offset ≥ recv.data.length
    if fin then (.ok (copied, fin), none)
    else
      (.ok (copied, fin),
        some { recv with data := recv.data.drop read_offset, read_offset := 0 })

end StreamRecvBuf

namespace QuicStreamIo

/-- Stores received stream data: in the stream's buffer, else in a free slot of the
`MAX_STREAMS` there are. Without one the data is dropped. -/
def store_stream_data (MAX_STREAMS STREAM_BUF : Nat) (sio : QuicStreamIo) (stream_id offset : Nat)
    (data : Bytes) (fin : Bool) : QuicStreamIo :=
  match slots.lookup StreamRecvBuf.stream_id stream_id sio.recv_bufs with
  | some _ =>
    { sio with
      recv_bufs := slots.update StreamRecvBuf.stream_id stream_id
        (fun buf => some (buf.store STREAM_BUF offset data fin)) sio.recv_bufs }
  | none =>
    let buf := (StreamRecvBuf.new stream_id).store STREAM_BUF offset data fin
    { sio with recv_bufs := (slots.insert MAX_STREAMS buf sio.recv_bufs).getD sio.recv_bufs }

/-- Reads from the buffer of a stream. -/
def stream_recv (stream_id cap : Nat) : Method QuicStreamIo Error (Bytes × Bool) := fun sio =>
  match slots.lookup StreamRecvBuf.stream_id stream_id sio.recv_bufs with
  | none => (.error .WouldBlock, sio)
  | some recv =>
    ((recv.read cap).1,
      { sio with
        recv_bufs := slots.update StreamRecvBuf.stream_id stream_id
          (fun recv => (recv.read cap).2) sio.recv_bufs })

/-- The tail entry, if more data of the stream can still be put into it. -/
def coalesce_tail (sio : QuicStreamIo) (stream_id : Nat) : Option StreamSendEntry :=
  match sio.send_queue.getLast? with
  | some tail => if tail.stream_id = stream_id ∧ tail.fin = false then some tail else none
  | none => none

/-- Fresh entries for `data`, each of at most `STREAM_BUF` bytes. A bare FIN is one empty
entry. -/
def spill (STREAM_BUF stream_id : Nat) (fin : Bool) :
    Nat → Nat → Bytes → List StreamSendEntry
  | 0, _, _ => []
  | fuel + 1, offset, data =>
    let chunk := data.take STREAM_BUF
    let rest := data.drop STREAM_BUF
    { stream_id, offset, data := chunk, fin := fin && rest.isEmpty } ::
      if chunk.isEmpty || rest.isEmpty then []
      else spill STREAM_BUF stream_id fin fuel (offset + chunk.length) rest

/-- What holds of one entry for all of the data, and of a full entry in front of those for the rest,
holds of fresh entries. -/
theorem spill_rule {N stream_id : Nat} {fin : Bool} {P : Nat → Bytes → List StreamSendEntry → Prop}
    (hwhole : ∀ offset data, data.length ≤ N → P offset data [{ stream_id, offset, data, fin }])
    (hfull : ∀ offset data entries, N < data.length → (data.take N).length = N →
      P (offset + N) (data.drop N) entries →
      P offset data ({ stream_id, offset, data := data.take N, fin := false } :: entries))
    (fuel offset : Nat) (data : Bytes) (hN : 0 < N ∨ data = []) (hfuel : data.length ≤ fuel)
    (hpos : 0 < fuel) : P offset data (spill N stream_id fin fuel offset data) := by
  induction fuel generalizing offset data with
  | zero => omega
  | succ fuel ih =>
    rw [spill]
    by_cases hle : data.length ≤ N
    · rw [List.take_of_length_le hle, List.drop_eq_nil_of_le hle]
      simpa using hwhole offset data hle
    · have hNpos : 0 < N := by
        rcases hN with hN | rfl
        · exact hN
        · simp at hle
      have hlen : (data.take N).length = N := List.length_take_of_le (by omega)
      have hchunk : (data.take N).isEmpty = false := by
        rw [List.isEmpty_eq_false_iff, ← List.length_pos_iff]
        omega
      have hne : (data.drop N).isEmpty = false := by simpa using hle
      have htail := ih (offset + N) (data.drop N) (.inl hNpos) (by simp; omega) (by omega)
      rw [hchunk, hne, hlen]
      simp only [Bool.false_or, Bool.false_eq_true, if_false, Bool.and_false]
      exact hfull offset data _ (by omega) hlen htail

/-- Queues accepted data: into the tail entry first, the rest into fresh ones. The capacity
check has left room for them. -/
def enqueue (STREAM_BUF : Nat) (sio : QuicStreamIo) (stream_id offset : Nat) (data : Bytes)
    (fin : Bool) : QuicStreamIo :=
  match sio.coalesce_tail stream_id with
  | some tail =>
    let room := min (STREAM_BUF - tail.data.length) data.length
    let tail := { tail with
      data := tail.data ++ data.take room, fin := fin && room == data.length }
    let rest := data.drop room
    let fresh := if rest.isEmpty then []
      else spill STREAM_BUF stream_id fin rest.length (offset + room) rest
    { sio with send_queue := sio.send_queue.dropLast ++ tail :: fresh }
  | none =>
    let fresh := spill STREAM_BUF stream_id fin (data.length + 1) offset data
    { sio with send_queue := sio.send_queue ++ fresh }

end QuicStreamIo

namespace Connection

/-! ## Timers -/

/-- The next event for the application. -/
def poll_event (c : Connection B) : Option Event × Connection B :=
  (c.events.head?, { c with events := c.events.tail })

/-- Drain period: three times the PTO. -/
def drain_period (c : Connection B) : Nat := 3 * c.loss_detector.pto_duration

/-- The next timer deadline. -/
def next_timeout (c : Connection B) : Option Instant :=
  match c.state with
  | .Closed => none
  | .Draining => some (saturating_add c.last_activity c.drain_period)
  | _ =>
    let earliest := c.loss_detector.next_timeout c.sent_tracker
    match c.idle_timeout with
    | some idle =>
      let idle_deadline := saturating_add c.last_activity idle
      some (earliest.elim idle_deadline (min · idle_deadline))
    | none => earliest

/-- Whether the loss-detector deadline has passed. -/
def pto_expired (c : Connection B) (now : Instant) : Bool :=
  (c.loss_detector.next_timeout c.sent_tracker).any (now ≥ ·)

/-- Handles a timer expiration: the end of draining, the idle timeout, or a PTO, which asks
for the CRYPTO data to be sent again. -/
def handle_timeout (c : Connection B) (now : Instant) : Connection B :=
  if c.state = .Draining then
    if now - c.last_activity ≥ c.drain_period then { c with state := .Closed } else c
  else if c.idle_timeout.any (now - c.last_activity ≥ ·) then
    push_event { c with state := .Closed } (.ConnectionClose 0 [])
  else if c.pto_expired now then
    { c with
      loss_detector := c.loss_detector.on_pto
      crypto_rewind_pending := c.handshake_slot.isSome || c.crypto_rewind_pending }
  else c

/-! ## Streams -/

/-- Runs a method of the stream table. -/
def on_streams {α : Type} (m : Method StreamMap Error α) : Method (Connection B) Error α :=
  Method.on Connection.streams (fun streams c => { c with streams }) m

/-- Opens a new bidirectional stream under the negotiated limits. -/
def open_stream : Method (Connection B) Error Nat := do
  let c ← Method.get
  Method.require (c.state = .Active) .InvalidState
  let stream_id ← on_streams (StreamMap.open_bidi B.MAX_STREAMS (c.role = .Client))
  Method.modify fun c => { c with
    streams := c.streams.set_stream_windows stream_id
      (c.peer_params.map (·.initial_max_stream_data_bidi_remote))
      (some c.local_params.initial_max_stream_data_bidi_local) }
  pure stream_id

/-- Opens a new unidirectional stream. -/
def open_uni_stream : Method (Connection B) Error Nat := do
  let c ← Method.get
  Method.require (c.state = .Active) .InvalidState
  let stream_id ← on_streams (StreamMap.open_uni B.MAX_STREAMS (c.role = .Client))
  Method.modify fun c => { c with
    streams := c.streams.set_stream_windows stream_id
      (c.peer_params.map (·.initial_max_stream_data_uni)) none }
  pure stream_id

/-- How many more bytes `stream_send` accepts for a stream: its window, and the free space of
the send queue. -/
def stream_send_capacity (c : Connection B) (stream_id : Nat) : Nat :=
  if c.state = .Closed ∨ c.state = .Draining then 0
  else
    match (c.streams.get stream_id).bind (·.send) with
    | none => 0
    | some send =>
      let window := send.max_data - send.offset
      let tail_room := match c.sio.coalesce_tail stream_id with
        | some tail => B.STREAM_BUF - tail.data.length
        | none => 0
      let free_entries := B.SEND_QUEUE - c.sio.send_queue.length
      min window (tail_room + free_entries * B.STREAM_BUF)

/-- Sends data on a stream: as much as there is capacity for. The FIN counts only with all of
the data. -/
def stream_send (stream_id : Nat) (data : Bytes) (fin : Bool) : Method (Connection B) Error Nat := do
  let c ← Method.get
  Method.require (¬ (c.state = .Closed ∨ c.state = .Draining)) .Closed
  let stream ← Method.okOr (c.streams.get stream_id) .InvalidState
  let send ← Method.okOr stream.send .InvalidState
  let send_len := min data.length (c.stream_send_capacity stream_id)
  let fin := fin && send_len == data.length
  if send_len = 0 ∧ fin = false then pure 0
  else do
    Method.require (¬ (send_len = 0 ∧ c.sio.coalesce_tail stream_id = none ∧
      c.sio.send_queue.length ≥ B.SEND_QUEUE)) (.BufferTooSmall (B.SEND_QUEUE + 1))
    on_streams (StreamMap.mark_send stream_id send_len fin)
    Method.modify fun c => { c with
      sio := c.sio.enqueue B.STREAM_BUF stream_id send.offset (data.take send_len) fin }
    pure send_len

/-- Receives data from a stream into a buffer of `cap` bytes. -/
def stream_recv (stream_id cap : Nat) : Method (Connection B) Error (Bytes × Bool) := do
  let c ← Method.get
  Method.require (c.state ≠ .Closed) .Closed
  Method.on Connection.sio (fun sio c => { c with sio }) (QuicStreamIo.stream_recv stream_id cap)

/-- Resets a stream. -/
def stream_reset (stream_id : Nat) : Method (Connection B) Error Unit :=
  on_streams (StreamMap.mark_reset_sent stream_id)

/-- Tells the peer to stop sending on a stream. -/
def stream_stop_sending (stream_id : Nat) : Method (Connection B) Error Unit :=
  on_streams (StreamMap.handle_stop_sending stream_id)

/-! ## Closing and key updates -/

/-- Initiates connection close; 64 bytes of the reason are kept. -/
def close (c : Connection B) (error_code : Nat) (reason : Bytes) : Connection B :=
  if c.state = .Closed ∨ c.state = .Draining ∨ c.state = .Closing then c
  else { c with close_frame := some (error_code, reason.take 64), state := .Closing }

/-- Initiates a key update. -/
def initiate_key_update : Method (Connection B) Error Unit := do
  let c ← Method.get
  Method.require (c.state = .Active) .InvalidState
  Method.on Connection.keys (fun keys c => { c with keys }) ConnectionKeys.perform_key_update

end Connection

end milli_http.connection
