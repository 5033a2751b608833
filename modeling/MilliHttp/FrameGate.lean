-- Frames and encryption levels. Only PADDING, PING, ACK, CRYPTO and CONNECTION_CLOSE belong
-- in Initial and Handshake packets, but `dispatch_frame` looks at the level for ACK and
-- CRYPTO only: any other frame acts there as it does in a 1-RTT packet, so it is harmless
-- exactly when it would do nothing there either.
import MilliHttp.StreamData

open bytes method

namespace milli_http.connection.frame_gate

open crypto tls transport packet frame Connection stream_data StreamMap

variable {B : Build}

/-! ## Frames that do nothing -/

/-- The frames of Initial and Handshake packets. -/
def permitted : Frame → Bool
  | .Padding | .Ping | .Ack _ | .Crypto _ | .ConnectionClose _ => true
  | _ => false

/-- Below the Application level, a frame is permitted or changes nothing. -/
def Gated (c : Connection B) (level : Level) (now : Instant) (frame : Frame) : Prop :=
  level ≠ .Application → permitted frame = true ∨ (dispatch_frame level now frame c).2 = c

/-- Nothing of the Handshake level is left to discard. -/
structure HandshakeDiscarded (c : Connection B) : Prop where
  send : c.keys.handshake_send = none
  recv : c.keys.handshake_recv = none
  packets : ∀ pkt ∈ c.sent_tracker.entries, pkt.level ≠ .Handshake
  largest_acked : c.loss_detector.largest_acked.handshake = none
  last_ack_eliciting : c.loss_detector.time_of_last_ack_eliciting.handshake = none
  loss_time : c.loss_detector.loss_time.handshake = none

/-- No data of a frame without the FIN goes into a receive buffer. -/
def NothingStored (c : Connection B) (stream : StreamFrame) : Prop :=
  match buffer c stream.stream_id with
  | none => slots.hasFree B.MAX_STREAMS c.sio.recv_bufs = false
  | some buf => buf.next_offset < stream.offset ∨
      stream.offset + stream.data.length ≤ buf.next_offset ∨ B.STREAM_BUF ≤ buf.data.length

/-- Data of a stream is refused, or is a repetition that moves neither an offset nor a
window. -/
def DataIgnored (c : Connection B) (stream : StreamFrame) (recv : RecvState) : Prop :=
  let end_ := stream.offset + stream.data.length
  (recv.state ≠ .Recv ∧ recv.state ≠ .SizeKnown) ∨
  recv.fin_conflict end_ stream.fin = true ∨
  -- Past the stream's window, where a FIN would still fix the final size.
  (recv.max_data < end_ ∧
    (stream.fin = true → recv.fin_offset = some end_ ∧ recv.state = .SizeKnown)) ∨
  (end_ ≤ recv.max_data ∧ stream.fin = false ∧ end_ ≤ recv.offset ∧
    (∀ fin_off ∈ recv.fin_offset, recv.offset < fin_off) ∧
    (recv.max_data - recv.offset < recv.initial_window / 2 →
      recv.max_data_next = recv.offset + recv.initial_window) ∧
    (c.flow_control.recv_max_data < c.flow_control.recv_data_offset ∨
      B.EVENTS ≤ c.events.length ∧ NothingStored c stream))

/-- A STREAM frame for a stream that is neither there nor created, or whose data is ignored. -/
def StreamIgnored (c : Connection B) (stream : StreamFrame) : Prop :=
  match c.streams.get stream.stream_id with
  | none => StreamMap.peer_initiated (c.role = .Client) stream.stream_id = false ∨
      slots.hasFree B.MAX_STREAMS c.streams.streams = false
  | some s => ∀ recv ∈ s.recv, DataIgnored c stream recv

/-- The receive half does not take a RESET_STREAM. -/
def ResetIgnored (recv : RecvState) (final_size : Nat) : Prop :=
  (recv.state ≠ .Recv ∧ recv.state ≠ .SizeKnown ∧ recv.state ≠ .DataRecvd) ∨
    ∃ fin_off ∈ recv.fin_offset, fin_off ≠ final_size

/-- The send half does not take a STOP_SENDING. -/
def StopIgnored (send : SendState) : Prop :=
  send.state ≠ .Ready ∧ send.state ≠ .Send ∧ send.state ≠ .DataSent

/-- The frame finds nothing to do in this state. -/
def Inert (c : Connection B) : Frame → Prop
  | .Stream stream => StreamIgnored c stream
  | .MaxData n => n ≤ c.flow_control.send_max_data
  | .MaxStreamData msd =>
    ∀ send ∈ (c.streams.get msd.stream_id).bind (·.send), msd.max_data ≤ send.max_data
  | .MaxStreams ms => ms.max_streams ≤
      if ms.bidirectional then c.flow_control.max_streams_bidi_local
      else c.flow_control.max_streams_uni_local
  | .ResetStream rst => c.streams.get rst.stream_id = none ∨
      B.EVENTS ≤ c.events.length ∧
        ∀ recv ∈ (c.streams.get rst.stream_id).bind (·.recv), ResetIgnored recv rst.final_size
  | .StopSending ss => c.streams.get ss.stream_id = none ∨
      B.EVENTS ≤ c.events.length ∧
        ∀ send ∈ (c.streams.get ss.stream_id).bind (·.send), StopIgnored send
  | .HandshakeDone => c.role = .Server ∨ c.state ≠ .Handshaking ∧ HandshakeDiscarded c
  | .PathChallenge data => c.pending_path_response = some data
  | _ => True

/-! ## Writing back what was there -/

theorem streams_eq_self_iff (c : Connection B) (streams : StreamMap) :
    { c with streams } = c ↔ streams = c.streams := by
  constructor
  · exact fun h => congrArg Connection.streams h
  · rintro rfl
    rfl

theorem flow_control_eq_self_iff (c : Connection B) (flow_control : FlowController) :
    { c with flow_control } = c ↔ flow_control = c.flow_control := by
  constructor
  · exact fun h => congrArg Connection.flow_control h
  · rintro rfl
    rfl

/-- An event is only lost in a full queue. -/
theorem push_event_eq_iff {c c' : Connection B} (e : Event) (h : c'.events = c.events) :
    c'.push_event e = c ↔ c' = c ∧ B.EVENTS ≤ c.events.length := by
  unfold push_event
  rw [h]
  split
  · rename_i hlt
    constructor
    · intro heq
      have hlen := congrArg (fun c => c.events.length) heq
      simp at hlen
    · rintro ⟨-, hle⟩
      omega
  · rename_i hge
    exact ⟨fun heq => ⟨heq, by omega⟩, fun heq => heq.1⟩

theorem stream_event_eq_self_iff (stream_id : Nat) (m : Method StreamMap Error Unit) (e : Event)
    (c : Connection B) : (stream_event stream_id m e c).2 = c ↔
      c.streams.get stream_id = none ∨ B.EVENTS ≤ c.events.length ∧ (m c.streams).2 = c.streams := by
  have hrun : stream_event stream_id m e c =
      (if (c.streams.get stream_id).isSome then do
        Method.ignore (on_streams m)
        Method.modify (push_event · e)
      else pure ()) c := rfl
  rw [hrun]
  cases hget : c.streams.get stream_id with
  | none => simp
  | some s =>
    have hpush : (Method.ignore (on_streams m) >>= fun _ => Method.modify (push_event · e)) c =
        (.ok (), push_event { c with streams := (m c.streams).2 } e) := rfl
    simp only [Option.isSome_some, if_true, hpush, reduceCtorEq, false_or]
    rw [push_event_eq_iff e (by rfl), streams_eq_self_iff, and_comm]

/-! ## Each frame -/

theorem handle_max_data_eq_self_iff (fc : FlowController) (n : Nat) :
    fc.handle_max_data n = fc ↔ n ≤ fc.send_max_data := by
  unfold FlowController.handle_max_data
  split
  · rename_i hlt
    refine iff_of_false (fun heq => ?_) (by omega)
    have := congrArg FlowController.send_max_data heq
    dsimp only at this
    omega
  · exact iff_of_true rfl (by omega)

theorem handle_max_streams_eq_self_iff (fc : FlowController) (bidirectional : Bool) (n : Nat) :
    fc.handle_max_streams bidirectional n = fc ↔
      n ≤ if bidirectional then fc.max_streams_bidi_local else fc.max_streams_uni_local := by
  unfold FlowController.handle_max_streams
  cases bidirectional with
  | true =>
    simp only [if_true]
    split
    · refine iff_of_false (fun heq => ?_) (by omega)
      have := congrArg FlowController.max_streams_bidi_local heq
      dsimp only at this
      omega
    · exact iff_of_true rfl (by omega)
  | false =>
    simp only [Bool.false_eq_true, if_false]
    split
    · refine iff_of_false (fun heq => ?_) (by omega)
      have := congrArg FlowController.max_streams_uni_local heq
      dsimp only at this
      omega
    · exact iff_of_true rfl (by omega)

theorem handle_max_stream_data_eq_self_iff (n : Nat) (send : SendState) :
    (SendState.handle_max_stream_data n send).2 = send ↔ n ≤ send.max_data := by
  unfold SendState.handle_max_stream_data
  split
  · refine iff_of_false (fun heq => ?_) (by omega)
    have := congrArg SendState.max_data heq
    dsimp only at this
    omega
  · exact iff_of_true rfl (by omega)

theorem handle_reset_eq_self_iff (final_size : Nat) (recv : RecvState) :
    (RecvState.handle_reset final_size recv).2 = recv ↔ ResetIgnored recv final_size := by
  by_cases hopen : recv.state = .Recv ∨ recv.state = .SizeKnown ∨ recv.state = .DataRecvd
  · have hrun : RecvState.handle_reset final_size recv =
        if recv.fin_offset.any (· != final_size) then (.error (.Transport .FinalSizeError), recv)
        else (.ok (), { recv with fin_offset := some final_size, state := .ResetRecvd }) := by
      rcases hopen with h | h | h <;> simp only [RecvState.handle_reset, h]
    have hany_iff : recv.fin_offset.any (· != final_size) = true ↔
        ∃ fin_off ∈ recv.fin_offset, fin_off ≠ final_size := by
      cases recv.fin_offset <;> simp
    rw [hrun]
    split
    · rename_i hany
      exact iff_of_true rfl (.inr (hany_iff.mp hany))
    · rename_i hany
      refine iff_of_false (fun heq => ?_) ?_
      · have hstate := congrArg RecvState.state heq
        dsimp only at hstate
        simp [← hstate] at hopen
      · rintro (⟨h₁, h₂, h₃⟩ | hne)
        · exact hopen.elim h₁ (·.elim h₂ h₃)
        · exact hany (hany_iff.mpr hne)
  · simp only [not_or] at hopen
    refine iff_of_true ?_ (.inl hopen)
    unfold RecvState.handle_reset
    split <;> simp_all

theorem handle_stop_sending_eq_self_iff (send : SendState) :
    (SendState.handle_stop_sending send).2 = send ↔ StopIgnored send := by
  have hmoved : send.state ≠ .ResetSent → ({ send with state := .ResetSent } : SendState) ≠ send :=
    fun hne heq => hne (congrArg SendState.state heq).symm
  cases hs : send.state <;> simp [SendState.handle_stop_sending, StopIgnored, hs, hmoved]

theorem loss_drop_space_eq_self_iff (ld : LossDetector) :
    ld.drop_space .Handshake = ld ↔ ld.largest_acked.handshake = none ∧
      ld.time_of_last_ack_eliciting.handshake = none ∧ ld.loss_time.handshake = none := by
  constructor
  · intro heq
    exact ⟨(congrArg (fun ld => ld.largest_acked.handshake) heq).symm,
      (congrArg (fun ld => ld.time_of_last_ack_eliciting.handshake) heq).symm,
      (congrArg (fun ld => ld.loss_time.handshake) heq).symm⟩
  · rintro ⟨h₁, h₂, h₃⟩
    simp only [LossDetector.drop_space, PerLevel.set_eq_self (l := .Handshake) h₁,
      PerLevel.set_eq_self (l := .Handshake) h₂, PerLevel.set_eq_self (l := .Handshake) h₃]

theorem discard_handshake_eq_self_iff (c : Connection B) :
    c.discard_handshake = c ↔ HandshakeDiscarded c := by
  constructor
  · intro heq
    have hkeys := congrArg Connection.keys heq
    have htracker := congrArg Connection.sent_tracker heq
    obtain ⟨h₁, h₂, h₃⟩ := (loss_drop_space_eq_self_iff _).mp (congrArg Connection.loss_detector heq)
    exact ⟨(congrArg ConnectionKeys.handshake_send hkeys).symm,
      (congrArg ConnectionKeys.handshake_recv hkeys).symm,
      (SentPacketTracker.drop_space_eq_self_iff _ _).mp htracker, h₁, h₂, h₃⟩
  · intro h
    have hkeys : c.keys.drop_handshake = c.keys := calc
      c.keys.drop_handshake = { c.keys with
          handshake_send := c.keys.handshake_send, handshake_recv := c.keys.handshake_recv } := by
        rw [h.send, h.recv]
        rfl
      _ = c.keys := rfl
    have htracker := (SentPacketTracker.drop_space_eq_self_iff c.sent_tracker .Handshake).mpr h.packets
    have hloss := (loss_drop_space_eq_self_iff c.loss_detector).mpr
      ⟨h.largest_acked, h.last_ack_eliciting, h.loss_time⟩
    simp only [discard_handshake, drop_space, hkeys, htracker, hloss]

theorem handshake_done_eq_self_iff (c : Connection B) :
    c.handshake_done = c ↔ c.role = .Server ∨ c.state ≠ .Handshaking ∧ HandshakeDiscarded c := by
  unfold handshake_done
  cases c.role with
  | Server => simp
  | Client =>
    simp only [reduceCtorEq, false_or]
    split
    · rename_i hstate
      refine iff_of_false (fun heq => ?_) (fun h => h.1 hstate)
      have hactive := congrArg Connection.state heq
      rw [hstate] at hactive
      simp only [discard_handshake, drop_space, push_event] at hactive
      split at hactive <;> cases hactive
    · rename_i hstate
      rw [discard_handshake_eq_self_iff]
      exact ⟨fun h => ⟨hstate, h⟩, fun h => h.2⟩

/-! ## STREAM frames -/

/-- Data without the FIN leaves a receive half alone when it repeats what was there and the
window is not due. -/
theorem advance_eq_self_iff {recv : RecvState} (end_ : Nat) (fin : Bool)
    (hopen : recv.state = .Recv ∨ recv.state = .SizeKnown) :
    (recv.note_fin end_ fin).advance end_ = recv ↔
      fin = false ∧ end_ ≤ recv.offset ∧ (∀ fin_off ∈ recv.fin_offset, recv.offset < fin_off) ∧
      (recv.max_data - recv.offset < recv.initial_window / 2 →
        recv.max_data_next = recv.offset + recv.initial_window) := by
  have hnot : recv.state ≠ .DataRecvd := by rcases hopen with h | h <;> simp [h]
  cases fin with
  | true =>
    refine iff_of_false (fun heq => hnot ?_) (by simp)
    rw [← heq]
    simp only [RecvState.note_fin, RecvState.advance, if_true]
    exact if_pos (by split <;> omega)
  | false =>
    simp only [RecvState.note_fin, Bool.false_eq_true, if_false, true_and]
    constructor
    · intro heq
      have hoffset := congrArg RecvState.offset heq
      have hstate := congrArg RecvState.state heq
      have hnext := congrArg RecvState.max_data_next heq
      rw [RecvState.advance_offset] at hoffset
      simp only [RecvState.advance] at hstate hnext
      have hle : end_ ≤ recv.offset := by omega
      rw [if_neg (show ¬ end_ > recv.offset by omega)] at hstate hnext
      refine ⟨hle, fun fin_off hf => ?_, fun hdue => ?_⟩
      · rw [hf] at hstate
        dsimp only at hstate
        by_contra hge
        rw [if_pos (by omega)] at hstate
        exact hnot hstate.symm
      · rw [if_pos hdue] at hnext
        exact hnext.symm
    · rintro ⟨hle, hfin, hdue⟩
      have hoffset : (if end_ > recv.offset then end_ else recv.offset) = recv.offset :=
        if_neg (by omega)
      have hnext : (if recv.max_data - recv.offset < recv.initial_window / 2 then
          recv.offset + recv.initial_window else recv.max_data_next) = recv.max_data_next := by
        split
        · rename_i h
          exact (hdue h).symm
        · rfl
      simp only [RecvState.advance, hoffset, hnext]
      cases hf : recv.fin_offset with
      | none =>
        dsimp only
        rw [← hf]
      | some fin_off =>
        have := hfin fin_off hf
        dsimp only
        rw [if_neg (by omega), ← hf]

/-- A FIN past the window is noted all the same, unless it was already. -/
theorem note_fin_eq_self_iff (recv : RecvState) (end_ : Nat) (fin : Bool) :
    recv.note_fin end_ fin = recv ↔
      (fin = true → recv.fin_offset = some end_ ∧ recv.state = .SizeKnown) := by
  cases fin with
  | false => simp [RecvState.note_fin]
  | true =>
    simp only [RecvState.note_fin, if_true, forall_const]
    constructor
    · intro heq
      exact ⟨(congrArg RecvState.fin_offset heq).symm, (congrArg RecvState.state heq).symm⟩
    · rintro ⟨h₁, h₂⟩
      rw [← h₁, ← h₂]

theorem store_eq_self_iff (buf : StreamRecvBuf) (N offset : Nat) (data : Bytes) :
    buf.store N offset data false = buf ↔ buf.next_offset < offset ∨
      offset + data.length ≤ buf.next_offset ∨ N ≤ buf.data.length := by
  unfold StreamRecvBuf.store
  dsimp only
  split
  · exact iff_of_true rfl (.inl ‹_›)
  · split
    · exact iff_of_true rfl (.inr (.inl ‹_›))
    · rename_i hgap hnew
      constructor
      · intro heq
        have hlen := congrArg StreamRecvBuf.next_offset heq
        simp only [List.length_take, List.length_drop] at hlen
        omega
      · rintro (h | h | h)
        · exact absurd h hgap
        · exact absurd h hnew
        · have hroom : N - buf.data.length = 0 := by omega
          simp [hroom]

theorem store_stream_data_eq_self_iff (c : Connection B) {stream : StreamFrame}
    (hfin : stream.fin = false) :
    c.sio.store_stream_data B.MAX_STREAMS B.STREAM_BUF stream.stream_id stream.offset stream.data
      stream.fin = c.sio ↔ NothingStored c stream := by
  unfold NothingStored
  have hstored := store_stream_data_buffer c stream.stream_id stream.offset stream.data stream.fin
  rw [hfin] at hstored ⊢
  cases hbuf : buffer c stream.stream_id with
  | some buf =>
    dsimp only
    rw [← store_eq_self_iff]
    constructor
    · intro heq
      rw [heq] at hstored
      have hself := hbuf.symm.trans hstored
      simp only [target, hbuf, Option.some_or, Option.map_some] at hself
      exact (Option.some.inj hself).symm
    · intro heq
      have hlookup : slots.lookup StreamRecvBuf.stream_id stream.stream_id c.sio.recv_bufs = some buf :=
        hbuf
      have hupdate := slots.update_self (f := fun buf : StreamRecvBuf =>
        some (buf.store B.STREAM_BUF stream.offset stream.data false)) hlookup (by simp [heq])
      simp only [QuicStreamIo.store_stream_data, hlookup, hupdate]
  | none =>
    have hlookup : slots.lookup StreamRecvBuf.stream_id stream.stream_id c.sio.recv_bufs = none := hbuf
    have hinsert := slots.insert_isSome B.MAX_STREAMS ((StreamRecvBuf.new stream.stream_id).store
      B.STREAM_BUF stream.offset stream.data false) c.sio.recv_bufs
    dsimp only
    constructor
    · intro heq
      rw [heq, hlookup] at hstored
      simpa [target, hbuf] using hstored.symm
    · intro hfull
      rw [hfull, Option.isSome_eq_false_iff, Option.isNone_iff_eq_none] at hinsert
      simp only [QuicStreamIo.store_stream_data, hlookup, hinsert, Option.getD_none]

theorem stream_stored_eq_self_iff (c : Connection B) (stream : StreamFrame) (streams : StreamMap)
    (n : Nat) : c.stream_stored stream streams n = c ↔
      streams = c.streams ∧ n = 0 ∧ c.sio.store_stream_data B.MAX_STREAMS B.STREAM_BUF
        stream.stream_id stream.offset stream.data stream.fin = c.sio ∧
      B.EVENTS ≤ c.events.length := by
  unfold stream_stored
  rw [push_event_eq_iff _ (by rfl)]
  constructor
  · rintro ⟨heq, hfull⟩
    have hcharged := congrArg (fun c => c.flow_control.recv_data_offset) heq
    dsimp only at hcharged
    exact ⟨congrArg Connection.streams heq, by omega, congrArg Connection.sio heq, hfull⟩
  · rintro ⟨rfl, rfl, hsio, hfull⟩
    rw [hsio]
    exact ⟨rfl, hfull⟩

theorem with_stream_known {c : Connection B} {stream_id : Nat} {s : StreamState}
    (h : c.streams.get stream_id = some s) : c.with_stream stream_id = c.streams := by
  unfold with_stream get_or_create
  simp only [h, Option.isSome_some, if_true]
  split <;> rfl

theorem with_stream_refused {c : Connection B} {stream_id : Nat}
    (hnone : c.streams.get stream_id = none)
    (h : peer_initiated (c.role = .Client) stream_id = false ∨
      slots.hasFree B.MAX_STREAMS c.streams.streams = false) :
    c.with_stream stream_id = c.streams := by
  unfold with_stream get_or_create
  rcases h with h | h
  · simp [h]
  · rw [← slots.insert_isSome B.MAX_STREAMS (remote_stream stream_id
      c.local_params.initial_max_stream_data_bidi_remote), Option.isSome_eq_false_iff,
      Option.isNone_iff_eq_none] at h
    simp only [hnone, h, Option.isSome_none, Bool.false_eq_true, if_false]
    split <;> rfl

theorem with_stream_created {c : Connection B} {stream_id : Nat}
    (hnone : c.streams.get stream_id = none)
    (hpeer : peer_initiated (c.role = .Client) stream_id = true)
    (hfree : slots.hasFree B.MAX_STREAMS c.streams.streams = true) :
    ((c.with_stream stream_id).get stream_id).isSome := by
  rw [← slots.insert_isSome B.MAX_STREAMS (remote_stream stream_id
    c.local_params.initial_max_stream_data_bidi_remote), Option.isSome_iff_exists] at hfree
  obtain ⟨streams, hins⟩ := hfree
  have hself : slots.lookup StreamState.id stream_id streams = some _ :=
    slots.lookup_insert_self hins hnone
  unfold with_stream get_or_create
  simp only [hpeer, hnone, hins, Bool.not_true, Bool.false_eq_true, if_false, Option.isSome_none]
  split <;> simp [StreamMap.get, hself]

/-- Data never takes a stream out of the table. -/
theorem mark_recv_get_isSome (stream_id offset len : Nat) (fin : Bool) (m : StreamMap) :
    ((mark_recv stream_id offset len fin m).2.get stream_id).isSome =
      (m.get stream_id).isSome := by
  rcases with_recv_cases stream_id (RecvState.mark_recv offset len fin) m with
    h | ⟨s, recv, hget, -, h⟩ <;> rw [mark_recv, h]
  have hid : s.id = stream_id := get_id hget
  rw [get_put_self hget (by exact hid), hget]
  rfl

theorem handle_stream_streams (stream : StreamFrame) (c : Connection B) :
    (handle_stream stream c).2.streams = (mark_recv stream.stream_id stream.offset
      stream.data.length stream.fin (c.with_stream stream.stream_id)).2 := by
  rcases handle_stream_cases stream c with
    ⟨hnone, hr⟩ | ⟨e, streams, hm, hr⟩ | ⟨n, streams, hm, -, hr⟩ | ⟨n, streams, hm, -, hr⟩
  · rw [hr]
    simp [mark_recv, with_recv, hnone]
  · rw [hr, hm]
  · rw [hr, hm]
  · rw [hr, hm]
    exact congrArg StreamSide.streams (push_event_stream_side _ _)

section Known

variable {stream : StreamFrame} {c : Connection B} {s : StreamState} {recv : RecvState}
  (hget : c.streams.get stream.stream_id = some s) (hrecv : s.recv = some recv)

include hget hrecv

/-- Data of a stream that is there goes to its receive half, then to the connection's window
and to the buffer. -/
theorem handle_stream_known {r : Except Error Nat} {recv' : RecvState}
    (hm : RecvState.mark_recv stream.offset stream.data.length stream.fin recv = (r, recv')) :
    (handle_stream stream c).2 =
      match r with
      | .error _ => { c with streams := c.streams.put stream.stream_id { s with recv := some recv' } }
      | .ok n =>
        if c.flow_control.recv_data_offset + n > c.flow_control.recv_max_data then
          { c with streams := c.streams.put stream.stream_id { s with recv := some recv' } }
        else c.stream_stored stream (c.streams.put stream.stream_id { s with recv := some recv' }) n := by
  have hmark : mark_recv stream.stream_id stream.offset stream.data.length stream.fin
      (c.with_stream stream.stream_id) =
      (r, c.streams.put stream.stream_id { s with recv := some recv' }) := by
    simp only [with_stream_known hget, mark_recv, with_recv, hget, hrecv, hm]
  rcases handle_stream_cases stream c with
    ⟨hnone, -⟩ | ⟨e, streams, hm', hr⟩ | ⟨n, streams, hm', hover, hr⟩ | ⟨n, streams, hm', hle, hr⟩
  · rw [with_stream_known hget, hget] at hnone
    cases hnone
  all_goals
    obtain ⟨rfl, rfl⟩ := Prod.mk.inj (hmark.symm.trans hm')
    rw [hr]
  · exact (if_pos hover).symm
  · exact (if_neg (by omega)).symm

theorem data_ignored_iff : (handle_stream stream c).2 = c ↔ DataIgnored c stream recv := by
  have hput : ∀ recv', c.streams.put stream.stream_id { s with recv := some recv' } = c.streams ↔
      recv' = recv := by
    intro recv'
    rw [put_eq_self_iff hget (by rfl)]
    constructor
    · intro heq
      exact Option.some.inj ((congrArg StreamState.recv heq).trans hrecv)
    · rintro rfl
      rw [← hrecv]
  unfold DataIgnored
  dsimp only
  by_cases hstate : recv.state ≠ .Recv ∧ recv.state ≠ .SizeKnown
  · rw [handle_stream_known hget hrecv (if_pos hstate), streams_eq_self_iff, hput]
    exact iff_of_true rfl (.inl hstate)
  · have hopen : recv.state = .Recv ∨ recv.state = .SizeKnown := by
      by_contra hcontra
      exact hstate (not_or.mp hcontra)
    by_cases hconflict : recv.fin_conflict (stream.offset + stream.data.length) stream.fin = true
    · have hm : RecvState.mark_recv stream.offset stream.data.length stream.fin recv =
          (.error (.Transport .FinalSizeError), recv) := by
        simp only [RecvState.mark_recv, if_neg hstate, if_pos hconflict]
      rw [handle_stream_known hget hrecv hm, streams_eq_self_iff, hput]
      exact iff_of_true rfl (.inr (.inl hconflict))
    · have hmax : (recv.note_fin (stream.offset + stream.data.length) stream.fin).max_data =
          recv.max_data := by
        unfold RecvState.note_fin
        split <;> rfl
      by_cases hover : stream.offset + stream.data.length > recv.max_data
      · have hm : RecvState.mark_recv stream.offset stream.data.length stream.fin recv =
            (.error (.Transport .FlowControlError),
              recv.note_fin (stream.offset + stream.data.length) stream.fin) := by
          simp only [RecvState.mark_recv, if_neg hstate, if_neg hconflict, hmax, if_pos hover]
        rw [handle_stream_known hget hrecv hm, streams_eq_self_iff, hput, note_fin_eq_self_iff]
        constructor
        · exact fun h => .inr (.inr (.inl ⟨hover, h⟩))
        · rintro (h | h | h | h)
          · exact absurd h hstate
          · exact absurd h hconflict
          · exact h.2
          · omega
      · have hm : RecvState.mark_recv stream.offset stream.data.length stream.fin recv =
            (.ok (stream.offset + stream.data.length - recv.offset),
              (recv.note_fin (stream.offset + stream.data.length) stream.fin).advance
                (stream.offset + stream.data.length)) := by
          simp only [RecvState.mark_recv, if_neg hstate, if_neg hconflict, hmax, if_neg hover,
            RecvState.note_fin_offset]
        rw [handle_stream_known hget hrecv hm]
        dsimp only
        split
        · rename_i hfull
          rw [streams_eq_self_iff, hput, advance_eq_self_iff _ _ hopen]
          constructor
          · rintro ⟨h₁, h₂, h₃, h₄⟩
            exact .inr (.inr (.inr ⟨by omega, h₁, h₂, h₃, h₄, .inl (by omega)⟩))
          · rintro (h | h | h | ⟨-, h₁, h₂, h₃, h₄, -⟩)
            · exact absurd h hstate
            · exact absurd h hconflict
            · omega
            · exact ⟨h₁, h₂, h₃, h₄⟩
        · rename_i hroom
          rw [stream_stored_eq_self_iff, hput, advance_eq_self_iff _ _ hopen]
          constructor
          · rintro ⟨⟨h₁, h₂, h₃, h₄⟩, -, hsio, hevents⟩
            have hstored := (store_stream_data_eq_self_iff c h₁).mp hsio
            exact .inr (.inr (.inr ⟨by omega, h₁, h₂, h₃, h₄, .inr ⟨hevents, hstored⟩⟩))
          · rintro (h | h | h | ⟨-, h₁, h₂, h₃, h₄, h₅⟩)
            · exact absurd h hstate
            · exact absurd h hconflict
            · omega
            · rcases h₅ with h₅ | ⟨hevents, hstored⟩
              · omega
              · exact ⟨⟨h₁, h₂, h₃, h₄⟩, by omega,
                  (store_stream_data_eq_self_iff c h₁).mpr hstored, hevents⟩

end Known

theorem handle_stream_eq_self_iff (stream : StreamFrame) (c : Connection B) :
    (handle_stream stream c).2 = c ↔ StreamIgnored c stream := by
  unfold StreamIgnored
  cases hget : c.streams.get stream.stream_id with
  | none =>
    dsimp only
    constructor
    · intro heq
      by_contra hcreated
      simp only [not_or, Bool.not_eq_false] at hcreated
      have hsome := with_stream_created hget hcreated.1 hcreated.2
      rw [← mark_recv_get_isSome stream.stream_id stream.offset stream.data.length stream.fin,
        ← handle_stream_streams, heq, hget] at hsome
      cases hsome
    · intro hrefused
      have hsame := with_stream_refused hget hrefused
      rcases handle_stream_cases stream c with
        ⟨-, hr⟩ | ⟨e, streams, hm, hr⟩ | ⟨n, streams, hm, -, -⟩ | ⟨n, streams, hm, -, -⟩
      · rw [hr, hsame]
      all_goals simp only [hsame, mark_recv, with_recv, hget] at hm
      · obtain ⟨-, rfl⟩ := Prod.mk.inj hm
        rw [hr]
      · cases hm
      · cases hm
  | some s =>
    have hsame := with_stream_known hget
    dsimp only
    cases hrecv : s.recv with
    | none =>
      refine iff_of_true ?_ (by simp)
      rcases handle_stream_cases stream c with
        ⟨hnone, -⟩ | ⟨e, streams, hm, hr⟩ | ⟨n, streams, hm, -, -⟩ | ⟨n, streams, hm, -, -⟩
      · rw [hsame, hget] at hnone
        cases hnone
      all_goals simp only [hsame, mark_recv, with_recv, hget, hrecv] at hm
      · obtain ⟨-, rfl⟩ := Prod.mk.inj hm
        rw [hr]
      · cases hm
      · cases hm
    | some recv =>
      simp only [Option.mem_def, Option.some.injEq, forall_eq']
      exact data_ignored_iff hget hrecv

/-! ## Every frame -/

theorem dispatch_eq_self_iff (c : Connection B) (level : Level) (now : Instant) {frame : Frame}
    (hf : permitted frame = false) : (dispatch_frame level now frame c).2 = c ↔ Inert c frame := by
  cases frame with
  | Padding | Ping | Ack | Crypto | ConnectionClose => cases hf
  | NewToken | NewConnectionId | RetireConnectionId | PathResponse | DataBlocked
  | StreamDataBlocked | StreamsBlocked => exact iff_of_true rfl trivial
  | Stream stream => exact handle_stream_eq_self_iff stream c
  | MaxData n => exact (flow_control_eq_self_iff c _).trans (handle_max_data_eq_self_iff _ n)
  | MaxStreams ms =>
    exact (flow_control_eq_self_iff c _).trans (handle_max_streams_eq_self_iff _ _ _)
  | MaxStreamData msd =>
    refine (streams_eq_self_iff c _).trans ((with_send_eq_self_iff _).trans ?_)
    simp only [handle_max_stream_data_eq_self_iff]
    rfl
  | ResetStream rst =>
    refine (stream_event_eq_self_iff _ _ _ c).trans ?_
    rw [handle_reset, with_recv_eq_self_iff]
    simp only [handle_reset_eq_self_iff]
    rfl
  | StopSending ss =>
    refine (stream_event_eq_self_iff _ _ _ c).trans ?_
    rw [handle_stop_sending, with_send_eq_self_iff]
    simp only [handle_stop_sending_eq_self_iff]
    rfl
  | HandshakeDone => exact handshake_done_eq_self_iff c
  | PathChallenge data =>
    constructor
    · exact fun heq => (congrArg Connection.pending_path_response heq).symm
    · intro h
      change { c with pending_path_response := some data } = c
      rw [← h]

/-- A frame of an Initial or Handshake packet is permitted there, or changes nothing, exactly
when it is permitted or finds nothing to do. -/
theorem frames_are_gated_iff (c : Connection B) (level : Level) (now : Instant) (frame : Frame) :
    Gated c level now frame ↔ level = .Application ∨ permitted frame = true ∨ Inert c frame := by
  unfold Gated
  by_cases hl : level = .Application
  · simp [hl]
  · cases hf : permitted frame with
    | true => simp
    | false => simp [hl, dispatch_eq_self_iff c level now hf]

/-! ## A stream byte in an Initial packet -/

open standin

/-- STREAM data in an Initial packet is stored for the application. -/
theorem stream_data_passes_the_gate :
    ¬ ∀ (B : Build) (c : Connection B) (level : Level) (now : Instant) (frame : Frame),
      Gated c level now frame := by
  intro h
  have hgate := h build (client .default_params) .Initial 1 (.Stream first_bytes) nofun
  have hsame := hgate.resolve_left nofun
  have hstored : (buffer (dispatch_frame .Initial 1 (.Stream first_bytes)
    (client .default_params)).2 1).isSome := by decide +kernel
  rw [hsame] at hstored
  exact absurd hstored (by decide +kernel)

end milli_http.connection.frame_gate
