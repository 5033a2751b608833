-- What a connection accepted for a stream stays with it until the peer acknowledges it. Nothing is
-- kept with a packet that was sent: a frame that is put into one leaves the connection for good.
-- So the law holds as long as no packet takes what would have to be sent again.
import MilliHttp.Connection.Updates
import MilliHttp.Standin

open bytes method
open method.Method (keeps_on keeps_seq keeps_get keeps_ite keeps_pure bind_run)

namespace milli_http.connection.retention

open crypto tls transport packet frame Connection StreamMap

variable {B : Build} {c : Connection B} {trace : List (Connection B × Step)}

/-! ## What has to survive -/

/-- What has to reach the peer: a byte of a stream, its end, HANDSHAKE_DONE, or a limit. -/
inductive Item where
  | byte (stream_id offset : Nat) (value : UInt8)
  | fin (stream_id final_size : Nat)
  | handshake_done
  | max_data (limit : Nat)
  | max_stream_data (stream_id limit : Nat)
  deriving DecidableEq, Repr

/-- The bytes of some data at an offset. -/
def bytes_at (stream_id : Nat) : Nat → Bytes → List Item
  | _, [] => []
  | offset, b :: rest => .byte stream_id offset b :: bytes_at stream_id (offset + 1) rest

/-- Data of a stream, and maybe the end behind it. -/
def pieces (stream_id offset : Nat) (data : Bytes) (fin : Bool) : List Item :=
  bytes_at stream_id offset data ++ if fin then [.fin stream_id (offset + data.length)] else []

def entry_items (e : StreamSendEntry) : List Item := pieces e.stream_id e.offset e.data e.fin

def frame_items : Frame → List Item
  | .Stream s => pieces s.stream_id s.offset s.data s.fin
  | .HandshakeDone => [.handshake_done]
  | .MaxData limit => [.max_data limit]
  | .MaxStreamData msd => [.max_stream_data msd.stream_id msd.max_data]
  | _ => []

/-- What a call of `stream_send` accepts. -/
def accepted_by : Connection B × Step → List Item
  | (c, .op (.stream_send stream_id data fin)) =>
    match (stream_send stream_id data fin c).1, (c.streams.get stream_id).bind (·.send) with
    | .ok n, some send => pieces stream_id send.offset (data.take n) (fin && n == data.length)
    | _, _ => []
  | _ => []

/-- The number and the frames of the 1-RTT packet a call sends. -/
def sent_by : Connection B × Step → Option (Nat × List Frame)
  | (c, .op (.poll_transmit buf_len now)) =>
    (c.poll_transmit buf_len now).1.bind fun t =>
      (t.packets.find? (·.level == .Application)).map fun pkt =>
        (c.next_pn.get .Application, pkt.frames)
  | _ => none

/-- What the packets of a run carried. -/
def carried (trace : List (Connection B × Step)) : List Item :=
  trace.flatMap fun x => ((sent_by x).map Prod.snd).getD [] |>.flatMap frame_items

/-- The peer acknowledges a 1-RTT packet. -/
def acks (pn : Nat) : Connection B × Step → Bool
  | (_, .dispatch .Application _ (.Ack ack)) =>
    match ack_range_pairs ack.ack_ranges.length ack.ack_ranges with
    | .error _ => false
    | .ok ranges =>
      let first_lo := ack.largest_ack - ack.first_ack_range
      ((first_lo, ack.largest_ack) :: SentPacketTracker.more_ranges first_lo ranges).any
        fun (lo, hi) => lo ≤ pn && pn ≤ hi
  | _ => false

/-- A packet with the item was sent, and acknowledged later. -/
def acknowledged (item : Item) : List (Connection B × Step) → Bool
  | [] => false
  | x :: rest =>
    (sent_by x).any (fun (pn, frames) => (frames.flatMap frame_items).contains item && rest.any (acks pn)) ||
      acknowledged item rest

/-- A limit that a greater one has replaced. -/
def superseded (items : List Item) : Item → Bool
  | .max_data limit => items.any fun
    | .max_data other => limit < other
    | _ => false
  | .max_stream_data stream_id limit => items.any fun
    | .max_stream_data id other => id == stream_id && limit < other
    | _ => false
  | _ => false

/-- The limits that were sent, without those a later one has replaced. -/
def latest_limits (items : List Item) : List Item :=
  items.filter fun item =>
    match item with
    | .max_data _ | .max_stream_data .. => !superseded items item
    | _ => false

/-- What has to survive: what was accepted, HANDSHAKE_DONE at a server, and the latest limits. -/
def owed (trace : List (Connection B × Step)) (c : Connection B) : List Item :=
  trace.flatMap accepted_by ++ (if c.role = .Server then [.handshake_done] else []) ++
    latest_limits (carried trace)

/-- The connection has the item where `poll_transmit` takes it from. Of a sent packet it keeps no
frames. -/
def holds (c : Connection B) : Item → Bool
  | .handshake_done => c.need_handshake_done
  | .max_data limit => c.flow_control.should_send_max_data.any (limit ≤ ·)
  | .max_stream_data stream_id limit =>
    ((c.streams.get stream_id).bind (·.recv)).any fun recv =>
      recv.max_data < recv.max_data_next && limit ≤ recv.max_data_next
  | item => (c.sio.send_queue.flatMap entry_items).contains item

/-- While the connection is active, what is owed was acknowledged or is held. -/
def Survives (trace : List (Connection B × Step)) (c : Connection B) : Prop :=
  c.state = .Active → ∀ item ∈ owed trace c, acknowledged item trace = true ∨ holds c item = true

instance (trace : List (Connection B × Step)) (c : Connection B) : Decidable (Survives trace c) :=
  inferInstanceAs (Decidable (_ → _))

/-! ## Calls that spare it -/

/-- A 1-RTT packet finds nothing that would have to be sent again: no stream data, or a congestion
window that leaves no room for any, no HANDSHAKE_DONE and no limit. -/
def NothingDue (c : Connection B) : Prop :=
  (c.sio.send_queue = [] ∨ c.congestion.available_window < 16) ∧ c.need_handshake_done = false ∧
    c.flow_control.should_send_max_data = none ∧ c.streams.should_send_max_stream_data = none

instance (c : Connection B) : Decidable (NothingDue c) := inferInstanceAs (Decidable (_ ∧ _))

/-- The call puts nothing into a packet that would have to be sent again: it sends no 1-RTT packet,
or one that finds nothing due. -/
def Spares (c : Connection B) : Step → Prop
  | .op (.poll_transmit _ _) =>
    c.state = .Closed ∨ c.amplification_allows 1 = false ∨ c.close_frame.isSome = true ∨
      c.keys.has_send_keys .Application = false ∨ NothingDue c
  | _ => True

instance (c : Connection B) : (s : Step) → Decidable (Spares c s)
  | .op (.poll_transmit _ _) => inferInstanceAs (Decidable (_ ∨ _))
  | .op (.handle_timeout _) | .op .poll_event | .op .open_stream | .op .open_uni_stream
  | .op (.stream_send ..) | .op (.stream_recv ..) | .op (.stream_reset _)
  | .op (.stream_stop_sending _) | .op (.close ..) | .op .initiate_key_update
  | .arrive .. | .open_packet .. | .dispatch .. | .initial_done | .record _ | .check_tls_keys =>
    .isTrue trivial

/-! ## Queueing data -/

theorem bytes_at_append (stream_id offset : Nat) (data more : Bytes) :
    bytes_at stream_id offset (data ++ more) =
      bytes_at stream_id offset data ++ bytes_at stream_id (offset + data.length) more := by
  induction data generalizing offset with
  | nil => rfl
  | cons b data ih =>
    have hoffset : offset + 1 + data.length = offset + (data.length + 1) := by omega
    simp only [List.cons_append, bytes_at, ih, List.length_cons, hoffset]

theorem pieces_append (stream_id offset : Nat) (data more : Bytes) (fin : Bool) :
    pieces stream_id offset (data ++ more) fin =
      pieces stream_id offset data false ++ pieces stream_id (offset + data.length) more fin := by
  simp only [pieces, bytes_at_append, List.length_append, Nat.add_assoc]
  simp

/-- An entry ends where the stream has been sent up to. -/
def EndsAt (stream_id final : Nat) (e : StreamSendEntry) : Prop :=
  e.stream_id = stream_id ∧ e.offset + e.data.length = final

/-- Fresh entries have all of the data, and the last one ends where it ends. -/
theorem spill_items {N : Nat} (stream_id : Nat) (fin : Bool) (fuel offset : Nat) (data : Bytes)
    (hN : 0 < N ∨ data = []) (hfuel : data.length ≤ fuel) (hpos : 0 < fuel) :
    (QuicStreamIo.spill N stream_id fin fuel offset data).flatMap entry_items =
      pieces stream_id offset data fin ∧
    ∃ tail, (QuicStreamIo.spill N stream_id fin fuel offset data).getLast? = some tail ∧
      EndsAt stream_id (offset + data.length) tail := by
  refine QuicStreamIo.spill_rule (P := fun offset data entries =>
    entries.flatMap entry_items = pieces stream_id offset data fin ∧
      ∃ tail, entries.getLast? = some tail ∧ EndsAt stream_id (offset + data.length) tail)
    (fun offset data _ => ⟨by simp [entry_items], _, rfl, rfl, rfl⟩) ?_ fuel offset data hN hfuel hpos
  rintro offset data entries hlong hlen ⟨hitems, tail, hlast, htail⟩
  refine ⟨?_, tail, ?_, htail.1, ?_⟩
  · rw [List.flatMap_cons, hitems]
    have happ := pieces_append stream_id offset (data.take N) (data.drop N) fin
    rw [List.take_append_drop, hlen] at happ
    exact happ.symm
  · rw [List.getLast?_cons, hlast, Option.getD_some]
  · rw [htail.2, List.length_drop]
    omega

/-- Queueing keeps what is queued and adds the data, behind a tail that ends where it starts. -/
theorem enqueue_items {N : Nat} {sio : QuicStreamIo} {stream_id offset : Nat} {data : Bytes}
    (fin : Bool) (hN : 0 < N ∨ data = [])
    (htail : ∀ tail, sio.coalesce_tail stream_id = some tail → EndsAt stream_id offset tail) :
    (sio.enqueue N stream_id offset data fin).send_queue.flatMap entry_items =
      sio.send_queue.flatMap entry_items ++ pieces stream_id offset data fin ∧
    ∃ tail, (sio.enqueue N stream_id offset data fin).send_queue.getLast? = some tail ∧
      EndsAt stream_id (offset + data.length) tail := by
  unfold QuicStreamIo.enqueue
  cases hcoalesce : sio.coalesce_tail stream_id with
  | none =>
    obtain ⟨hitems, tail, hspill, hends⟩ := spill_items stream_id fin (data.length + 1) offset
      data hN (Nat.le_succ _) (Nat.succ_pos _)
    dsimp only
    refine ⟨by rw [List.flatMap_append, hitems], tail, ?_, hends⟩
    rw [List.getLast?_append, hspill, Option.some_or]
  | some tail =>
    obtain ⟨hid, hend⟩ := htail tail hcoalesce
    have hlast : sio.send_queue.getLast? = some tail ∧ tail.fin = false := by
      unfold QuicStreamIo.coalesce_tail at hcoalesce
      split at hcoalesce
      · split at hcoalesce
        · cases hcoalesce
          exact ⟨‹_›, (‹_ ∧ _› : _ ∧ _).2⟩
        · cases hcoalesce
      · cases hcoalesce
    have hqueue : sio.send_queue = sio.send_queue.dropLast ++ [tail] :=
      (List.dropLast_append_getLast? tail hlast.1).symm
    have hold : entry_items tail = pieces stream_id tail.offset tail.data false := by
      rw [entry_items, hid, hlast.2]
    dsimp only
    generalize hroom : min (N - tail.data.length) data.length = room
    have hsplit := pieces_append stream_id offset (data.take room) (data.drop room) fin
    rw [List.take_append_drop, List.length_take, Nat.min_eq_left (by omega)] at hsplit
    have hgrown : ∀ f, entry_items { tail with data := tail.data ++ data.take room, fin := f } =
        entry_items tail ++ pieces stream_id offset (data.take room) f := by
      intro f
      rw [hold, ← hend, ← pieces_append, ← hid]
      rfl
    by_cases hrest : data.drop room = []
    · have hall : room = data.length := by
        have := congrArg List.length hrest
        simp at this
        omega
      have htake : data.take room = data := List.take_of_length_le (by omega)
      simp only [hrest, List.isEmpty_nil, if_true]
      refine ⟨?_, _, List.getLast?_concat, hid, ?_⟩
      · rw [List.flatMap_append, List.flatMap_singleton, hgrown, htake, hall]
        conv_rhs => rw [hqueue]
        simp
      · simp only [List.length_append, htake]
        omega
    · have hmore : room < data.length := by
        by_contra hle
        exact hrest (List.drop_of_length_le (by omega))
      have hpos : 0 < N := by
        rcases hN with hN | rfl
        · exact hN
        · simp at hmore
      have hlen : (data.drop room).length = data.length - room := List.length_drop
      obtain ⟨hitems, last, hspill, hends⟩ := spill_items stream_id fin
        (data.drop room).length (offset + room) (data.drop room) (.inl hpos) (Nat.le_refl _) (by omega)
      have hne : (data.drop room).isEmpty = false := by simpa using hmore
      have hpart : (room == data.length) = false := by simpa using Nat.ne_of_lt hmore
      simp only [hne, hpart, Bool.and_false, Bool.false_eq_true, if_false]
      refine ⟨?_, last, ?_, hends.1, ?_⟩
      · rw [List.flatMap_append, List.flatMap_cons, hgrown, hitems, hsplit]
        conv_rhs => rw [hqueue]
        simp
      · rw [List.getLast?_append, List.getLast?_cons, hspill, Option.getD_some, Option.some_or]
      · rw [hends.2, hlen]
        omega

/-! ## Steps that leave it alone -/

/-- The send half has got no further. -/
def SameOffset (s s' : StreamState) : Prop :=
  s'.send.map SendState.offset = s.send.map SendState.offset

instance : IsPreorder StreamState SameOffset where
  refl _ := rfl
  trans _ _ _ h₁ h₂ := h₂.trans h₁

/-- The queue and the streams' send halves are as they were, and so is what the server owes. -/
structure Still (c c' : Connection B) : Prop where
  role : c'.role = c.role
  queue : c'.sio.send_queue = c.sio.send_queue
  done : c'.need_handshake_done = c.need_handshake_done
  streams : StreamMap.Evolves (c.role = .Client) SameOffset c.streams c'.streams

instance : IsPreorder (Connection B) Still where
  refl _ := ⟨rfl, rfl, rfl, refl _⟩
  trans _ _ _ h₁ h₂ :=
    ⟨h₂.role.trans h₁.role, h₂.queue.trans h₁.queue, h₂.done.trans h₁.done,
      IsTrans.trans _ _ _ h₁.streams (h₁.role ▸ h₂.streams)⟩

theorem still_of_streams {streams : StreamMap}
    (h : StreamMap.Evolves (c.role = .Client) SameOffset c.streams streams) :
    Still c { c with streams } := ⟨rfl, rfl, rfl, h⟩

theorem still_on_streams {α : Type} {m : Method StreamMap Error α}
    (hm : ∀ is_client, Method.Keeps (StreamMap.Evolves is_client SameOffset) m) :
    Method.Keeps Still (on_streams (B := B) m) :=
  keeps_on fun c => still_of_streams (hm _ c.streams)

theorem still_with_send {α : Type} {stream_id : Nat} {f : Method SendState Error α}
    (hf : ∀ send, (f send).2.offset = send.offset) :
    Method.Keeps Still (on_streams (B := B) (with_send stream_id f)) :=
  still_on_streams fun _ => evolves_with_send fun s send hsend => by
    simp [SameOffset, hsend, hf]

theorem still_with_recv {α : Type} {stream_id : Nat} {f : Method RecvState Error α} :
    Method.Keeps Still (on_streams (B := B) (with_recv stream_id f)) :=
  still_on_streams fun _ => evolves_with_recv fun _ _ _ => rfl

theorem still_push_event (c : Connection B) (e : Event) : Still c (c.push_event e) := by
  unfold push_event
  split
  · exact ⟨rfl, rfl, rfl, refl _⟩
  · exact refl c

theorem still_stream_event {stream_id : Nat} {m : Method StreamMap Error Unit} {e : Event}
    (hm : Method.Keeps Still (on_streams (B := B) m)) :
    Method.Keeps Still (stream_event (B := B) stream_id m e) := by
  refine keeps_seq keeps_get fun c => keeps_ite ?_ (keeps_pure _)
  refine keeps_seq (Method.keeps_ignore hm) fun _ => ?_
  exact Method.keeps_modify fun c => still_push_event c _

theorem still_set_stream_windows (stream_id : Nat) (send_max recv_max : Option Nat)
    (c : Connection B) :
    Still c { c with streams := c.streams.set_stream_windows stream_id send_max recv_max } := by
  refine still_of_streams ?_
  unfold set_stream_windows
  split
  · rename_i s hget
    refine evolves_put hget rfl ?_
    unfold SameOffset
    dsimp only
    split
    · rename_i hsend
      rw [hsend]
      rfl
    · rfl
  · exact refl _

theorem store_stream_data_send_queue (M N : Nat) (sio : QuicStreamIo) (stream_id offset : Nat)
    (data : Bytes) (fin : Bool) :
    (sio.store_stream_data M N stream_id offset data fin).send_queue = sio.send_queue := by
  unfold QuicStreamIo.store_stream_data
  split <;> rfl

theorem still_handle_stream (stream : StreamFrame) :
    Method.Keeps Still (handle_stream (B := B) stream) := by
  intro c
  have hmark : ∀ r streams, mark_recv stream.stream_id stream.offset stream.data.length
      stream.fin (c.with_stream stream.stream_id) = (r, streams) →
      StreamMap.Evolves (c.role = .Client) SameOffset c.streams streams := by
    intro r streams hm
    have hrecv : StreamMap.Evolves (c.role = .Client) SameOffset (c.with_stream stream.stream_id)
        (mark_recv stream.stream_id stream.offset stream.data.length stream.fin
          (c.with_stream stream.stream_id)).2 :=
      evolves_with_recv (E := SameOffset) (fun _ _ _ => rfl) _
    rw [hm] at hrecv
    exact IsTrans.trans _ _ _ (evolves_get_or_create _ _ _ _) hrecv
  rcases handle_stream_cases stream c with
    ⟨-, hr⟩ | ⟨e, streams, hm, hr⟩ | ⟨n, streams, hm, -, hr⟩ | ⟨n, streams, hm, -, hr⟩
  · rw [hr]
    exact still_of_streams (evolves_get_or_create _ _ _ _)
  · rw [hr]
    exact still_of_streams (hmark _ _ hm)
  · rw [hr]
    exact still_of_streams (hmark _ _ hm)
  · rw [hr]
    refine IsTrans.trans _ _ _ ?_ (still_push_event _ _)
    exact ⟨rfl, store_stream_data_send_queue _ _ _ _ _ _ _, rfl, hmark _ _ hm⟩

/-- What the server owes changes with a packet that is sent only. -/
theorem owed_updates : KeptByUpdates (B := B)
    (Method.Same fun c => (c.role, c.need_handshake_done)) where
  keys _ _ := rfl
  slot _ _ := rfl
  state _ _ _ := rfl
  validated _ := rfl
  events _ _ := rfl
  drop_space _ _ := rfl
  peer_params _ _ _ _ := rfl
  remote_cid _ _ := rfl
  ack _ _ _ _ _ := rfl
  streams _ _ := rfl
  flow_control _ _ := rfl
  sio _ _ := rfl
  path_response _ _ := rfl
  record pr c := by
    unfold record_packet
    split <;> rfl
  closed _ := rfl
  pto _ _ := rfl
  close _ _ := rfl
  key_update := keeps_on fun _ => rfl

theorem still_of_untouched {s : Step} (h : touches_streams s = false) (c : Connection B) :
    Still c (s.apply c) := by
  have hside := apply_stream_side h c
  have hdone : (s.apply c).need_handshake_done = c.need_handshake_done := by
    by_cases harrive : ∃ len now, s = .arrive len now
    · obtain ⟨len, now, rfl⟩ := harrive
      simp only [Step.apply, arrive]
      split <;> rfl
    · have htransmit : ∀ buf_len now, s ≠ .op (.poll_transmit buf_len now) := by
        rintro buf_len now rfl
        cases h
      have hsame := owed_updates.step (fun len now hs => harrive ⟨len, now, hs⟩) htransmit c
      exact congrArg Prod.snd hsame
  have hstreams : (s.apply c).streams = c.streams := congrArg StreamSide.streams hside
  refine ⟨congrArg StreamSide.role hside, ?_, hdone, hstreams ▸ refl _⟩
  exact congrArg QuicStreamIo.send_queue (congrArg StreamSide.sio hside)

theorem still_step {s : Step} (hsend : ∀ stream_id data fin, s ≠ .op (.stream_send stream_id data fin))
    (htransmit : ∀ buf_len now, s ≠ .op (.poll_transmit buf_len now)) (c : Connection B) :
    Still c (s.apply c) := by
  cases ht : touches_streams s with
  | false => exact still_of_untouched ht c
  | true =>
    cases s with
    | dispatch level now frame =>
      cases frame with
      | Stream stream => exact still_handle_stream stream c
      | MaxStreamData msd =>
        refine Method.keeps_ignore (still_with_send fun send => ?_) c
        unfold SendState.handle_max_stream_data
        split <;> rfl
      | ResetStream rst => exact still_stream_event still_with_recv c
      | StopSending ss =>
        refine still_stream_event (still_with_send fun send => ?_) c
        unfold SendState.handle_stop_sending
        split <;> rfl
      | _ => cases ht
    | op o =>
      cases o with
      | poll_transmit buf_len now => exact absurd rfl (htransmit buf_len now)
      | stream_send stream_id data fin => exact absurd rfl (hsend stream_id data fin)
      | open_stream =>
        exact open_stream_keeps (fun c => still_of_streams (evolves_open_bidi _ c.streams))
          (fun stream_id _ _ c => still_set_stream_windows stream_id _ _ c) c
      | open_uni_stream =>
        exact open_uni_stream_keeps (fun c => still_of_streams (evolves_open_uni _ c.streams))
          (fun stream_id _ _ c => still_set_stream_windows stream_id _ _ c) c
      | stream_recv stream_id cap =>
        refine keeps_seq (R := Still) keeps_get (fun c => ?_) c
        refine keeps_seq (Method.keeps_require _ _) fun _ => keeps_on fun c => ?_
        refine ⟨rfl, ?_, rfl, refl _⟩
        unfold QuicStreamIo.stream_recv
        split <;> rfl
      | stream_reset stream_id =>
        refine still_with_send (fun send => ?_) c
        unfold SendState.mark_reset_sent
        split <;> rfl
      | stream_stop_sending stream_id =>
        refine still_with_send (fun send => ?_) c
        unfold SendState.handle_stop_sending
        split <;> rfl
      | _ => cases ht
    | _ => cases ht

/-! ## Sending on a stream -/

theorem capacity_of_no_buffers (h : B.STREAM_BUF = 0) (stream_id : Nat) :
    c.stream_send_capacity stream_id = 0 := by
  unfold stream_send_capacity
  split
  · rfl
  · split
    · rfl
    · rw [h]
      cases c.sio.coalesce_tail stream_id <;> simp

/-- A send half refuses and stays where it is, or moves on. -/
theorem mark_send_cases (len : Nat) (fin : Bool) (send : SendState) :
    (∃ e send', SendState.mark_send len fin send = (.error e, send') ∧ send'.offset = send.offset) ∨
    ∃ send', SendState.mark_send len fin send = (.ok (), send') ∧ send'.offset = send.offset + len := by
  unfold SendState.mark_send
  split
  · exact .inl ⟨_, _, rfl, rfl⟩
  · dsimp only
    split
    · exact .inl ⟨_, _, rfl, rfl⟩
    · exact .inr ⟨_, rfl, rfl⟩

/-- All that `stream_send` can do: it fails, it accepts nothing, or it moves the send half on by
what it accepts and queues it. -/
theorem stream_send_cases (stream_id : Nat) (data : Bytes) (fin : Bool) (c : Connection B) :
    (∃ e c', stream_send stream_id data fin c = (.error e, c') ∧ Still c c') ∨
    (stream_send stream_id data fin c = (.ok 0, c) ∧ (fin && 0 == data.length) = false) ∨
    ∃ stream send send' n, c.streams.get stream_id = some stream ∧ stream.send = some send ∧
      send'.offset = send.offset + n ∧ n ≤ data.length ∧ (0 < B.STREAM_BUF ∨ n = 0) ∧
      stream_send stream_id data fin c = (.ok n, { c with
        streams := c.streams.put stream_id { stream with send := some send' }
        sio := c.sio.enqueue B.STREAM_BUF stream_id send.offset (data.take n)
          (fin && n == data.length) }) := by
  unfold stream_send
  rw [Method.get_bind_run]
  rw [Method.require_bind_run]
  by_cases hopen : ¬ (c.state = .Closed ∨ c.state = .Draining)
  swap
  · rw [if_neg hopen]
    exact .inl ⟨_, _, rfl, refl c⟩
  rw [if_pos hopen]
  cases hget : c.streams.get stream_id with
  | none => exact .inl ⟨_, _, rfl, refl c⟩
  | some stream =>
    rw [bind_run, Method.okOr_some_run]
    dsimp only
    cases hsend : stream.send with
    | none => exact .inl ⟨_, _, rfl, refl c⟩
    | some send =>
      rw [bind_run, Method.okOr_some_run]
      dsimp only
      generalize hn : min data.length (c.stream_send_capacity stream_id) = n
      have hbuf : 0 < B.STREAM_BUF ∨ n = 0 := by
        by_cases hzero : B.STREAM_BUF = 0
        · rw [capacity_of_no_buffers hzero] at hn
          omega
        · exact .inl (Nat.pos_of_ne_zero hzero)
      by_cases hnothing : n = 0 ∧ (fin && n == data.length) = false
      · rw [if_pos hnothing]
        obtain ⟨rfl, hfin⟩ := hnothing
        exact .inr (.inl ⟨rfl, hfin⟩)
      · rw [if_neg hnothing, Method.require_bind_run]
        by_cases hfull : ¬ (n = 0 ∧ c.sio.coalesce_tail stream_id = none ∧
            c.sio.send_queue.length ≥ B.SEND_QUEUE)
        swap
        · rw [if_neg hfull]
          exact .inl ⟨_, _, rfl, refl c⟩
        rw [if_pos hfull]
        have hmark : mark_send stream_id n (fin && n == data.length) c.streams =
            ((SendState.mark_send n (fin && n == data.length) send).1, c.streams.put stream_id
              { stream with send := some (SendState.mark_send n (fin && n == data.length) send).2 }) := by
          simp only [mark_send, with_send, hget, hsend]
        rw [bind_run, on_streams, Method.on_run, hmark]
        rcases mark_send_cases n (fin && n == data.length) send with
          ⟨e, send', hrun, hoffset⟩ | ⟨send', hrun, hoffset⟩
        · rw [hrun]
          refine .inl ⟨_, _, rfl, still_of_streams (evolves_put hget rfl ?_)⟩
          simp [SameOffset, hsend, hoffset]
        · rw [hrun]
          exact .inr (.inr ⟨stream, send, send', n, rfl, hsend, hoffset, by omega, hbuf, rfl⟩)

/-! ## Building packets -/

/-- What decides what a 1-RTT packet finds, apart from the congestion window. -/
def due_side (c : Connection B) :=
  (c.role, c.streams, c.sio, c.flow_control, c.need_handshake_done, c.keys.has_send_keys .Application)

/-- All of it is as it was, and the congestion window has no more room. -/
structure Steady (c c' : Connection B) : Prop where
  side : due_side c' = due_side c
  window : c'.congestion.available_window ≤ c.congestion.available_window

instance : IsPreorder (Connection B) Steady where
  refl _ := ⟨rfl, Nat.le_refl _⟩
  trans _ _ _ h₁ h₂ := ⟨h₂.side.trans h₁.side, Nat.le_trans h₂.window h₁.window⟩

theorem Steady.still {c c' : Connection B} (h : Steady c c') : Still c c' := by
  have hside := h.side
  simp only [due_side, Prod.mk.injEq] at hside
  obtain ⟨hrole, hstreams, hsio, -, hdone, -⟩ := hside
  exact ⟨hrole, by rw [hsio], hdone, hstreams ▸ refl _⟩

theorem NothingDue.steady {c c' : Connection B} (h : NothingDue c) (hs : Steady c c') :
    NothingDue c' := by
  have hside := hs.side
  simp only [due_side, Prod.mk.injEq] at hside
  obtain ⟨-, hstreams, hsio, hflow, hdone, -⟩ := hside
  obtain ⟨hqueue, hneed, hdata, hstream⟩ := h
  unfold NothingDue
  rw [hsio, hdone, hflow, hstreams]
  refine ⟨hqueue.imp_right fun hw => ?_, hneed, hdata, hstream⟩
  exact Nat.lt_of_le_of_lt hs.window hw

theorem steady_key_update : Method.Keeps Steady (auto_key_update (B := B)) := by
  refine keeps_seq keeps_get fun c => keeps_ite ?_ (keeps_pure _)
  refine keeps_on fun c => ?_
  have hsend : (ConnectionKeys.perform_key_update c.keys).2.has_send_keys .Application =
      c.keys.has_send_keys .Application :=
    ConnectionKeys.perform_key_update_has_send_keys c.keys .Application
  exact ⟨by simp only [due_side, hsend], Nat.le_refl _⟩

theorem steady_rewind (c : Connection B) : Steady c c.rewind_crypto := by
  unfold rewind_crypto
  split <;> exact ⟨rfl, Nat.le_refl _⟩

theorem steady_release (c : Connection B) : Steady c c.maybe_release_handshake_slot := by
  rcases maybe_release_cases c with heq | ⟨ctx, -, -, heq⟩ <;> rw [heq]
  · exact refl c
  · exact ⟨rfl, Nat.le_refl _⟩

theorem steady_packet_sent (level : Level) (size : Nat) (ack_eliciting in_flight : Bool)
    (now : Instant) (c : Connection B) :
    Steady c (packet_sent level size ack_eliciting in_flight now c) := by
  refine ⟨rfl, ?_⟩
  unfold packet_sent
  dsimp only
  split
  · simp only [CongestionController.available_window, CongestionController.on_packet_sent]
    omega
  · exact Nat.le_refl _

theorem steady_put_ack (level : Level) (room : Nat) (d : Draft B) :
    Steady d.1 (put_ack level room d).1 := by
  simp only [put_ack]
  split
  · split
    · exact ⟨rfl, Nat.le_refl _⟩
    · exact refl d.1
  · exact refl d.1

theorem steady_write_tls_crypto_data (level : Level) (room : Nat) (d : Draft B) :
    Steady d.1 (write_tls_crypto_data level room d).1 := by
  simp only [write_tls_crypto_data]
  split
  · exact refl d.1
  · split
    · exact ⟨rfl, Nat.le_refl _⟩
    · split <;> exact ⟨rfl, Nat.le_refl _⟩

theorem steady_put_path_response (room : Nat) (d : Draft B) :
    Steady d.1 (put_path_response room d).1 := by
  simp only [put_path_response]
  split
  · exact refl d.1
  · split
    · exact ⟨rfl, Nat.le_refl _⟩
    · exact refl d.1

theorem steady_build_initial_packet (cap : Nat) (now : Instant) (c : Connection B) :
    Steady c (c.build_initial_packet cap now).2 := by
  unfold build_initial_packet
  dsimp only
  split
  · exact refl c
  · generalize hd : (if cap ≥ MIN_INITIAL_PACKET_SIZE then
      write_tls_crypto_data .Initial _ (put_ack .Initial _ (c, .empty))
      else put_ack .Initial _ (c, .empty)) = d
    have hdrain : Steady c d.1 := by
      rw [← hd]
      split
      · exact IsTrans.trans _ _ _ (steady_put_ack .Initial _ (c, .empty))
          (steady_write_tls_crypto_data .Initial _ _)
      · exact steady_put_ack .Initial _ (c, .empty)
    split
    · exact hdrain
    · split
      · exact hdrain
      · exact IsTrans.trans _ _ _ hdrain (steady_packet_sent ..)

theorem steady_build_handshake_packet (cap : Nat) (now : Instant) (c : Connection B) :
    Steady c (c.build_handshake_packet cap now).2 := by
  unfold build_handshake_packet
  dsimp only
  split
  · exact refl c
  · have hdrain := fun room => IsTrans.trans _ _ _ (steady_put_ack .Handshake room (c, .empty))
      (steady_write_tls_crypto_data .Handshake room _)
    split
    · exact hdrain _
    · split
      · exact hdrain _
      · exact IsTrans.trans _ _ _ (hdrain _) (steady_packet_sent ..)

theorem steady_build_long_packets (buf_len : Nat) (now : Instant) (c : Connection B) :
    Steady c (c.build_long_packets buf_len now).2.2 := by
  unfold build_long_packets
  dsimp only
  exact IsTrans.trans _ _ _
    (build_with_keys_keeps (steady_build_initial_packet buf_len now) c)
    (build_with_keys_keeps (steady_build_handshake_packet _ now) _)

/-- Nothing in the payload has to be sent again. -/
def Light (p : Payload) : Prop := p.frames.flatMap frame_items = []

theorem light_push {cap : Nat} {frame : Frame} {p p' : Payload} (h : p.push cap frame = some p')
    (hframe : frame_items frame = []) (hp : Light p) : Light p' := by
  unfold Payload.push at h
  split at h
  · cases h
    simp only [Light, List.flatMap_append, List.flatMap_singleton, hframe, List.append_nil]
    exact hp
  · cases h

theorem light_put_ack {level : Level} {room : Nat} {d : Draft B} (h : Light d.2) :
    Light (put_ack level room d).2 := by
  simp only [put_ack]
  split
  · split
    · rename_i hpush
      obtain ⟨ack, -, hpush⟩ := Option.bind_eq_some_iff.mp hpush
      exact light_push hpush rfl h
    · exact h
  · exact h

theorem light_put_path_response {room : Nat} {d : Draft B} (h : Light d.2) :
    Light (put_path_response room d).2 := by
  simp only [put_path_response]
  split
  · exact h
  · split
    · exact light_push ‹_› rfl h
    · exact h

/-- A 1-RTT packet that finds nothing due takes at most a PATH_RESPONSE and an ACK. -/
theorem drain_short_light (room : Nat) (h : NothingDue c) :
    Steady c (c.drain_short room).1 ∧ Light (c.drain_short room).2 := by
  have hdone : put_handshake_done room (c, .empty) = (c, .empty) := by
    simp [put_handshake_done, h.2.1]
  have hmax_data : ∀ d : Draft B, NothingDue d.1 → put_max_data room d = d := by
    rintro ⟨c, p⟩ hd
    simp only [put_max_data, hd.2.2.1]
  have hmax_stream : ∀ fuel (d : Draft B), NothingDue d.1 → put_max_stream_data room fuel d = d := by
    rintro (_ | fuel) ⟨c, p⟩ hd
    · rfl
    · simp only [put_max_stream_data, hd.2.2.2]
  have hstreams : ∀ d : Draft B, NothingDue d.1 → put_streams room d = d := by
    rintro ⟨c, p⟩ hd
    have hframes : ∀ n, n < 16 ∨ c.sio.send_queue = [] →
        build_stream_frames (p.bytes.length + n) c.sio.send_queue p = (c.sio.send_queue, p) := by
      intro n hn
      cases hqueue : c.sio.send_queue with
      | nil => rfl
      | cons entry rest =>
        rcases hn with hn | hn
        · exact if_pos (by omega)
        · rw [hqueue] at hn
          cases hn
    simp only [put_streams]
    rw [hframes]
    rcases hd.1 with hq | hw
    · exact .inr hq
    · exact .inl (Nat.lt_of_le_of_lt (Nat.min_le_left _ _) hw)
  have hpath := steady_put_path_response room (c, .empty)
  have hack := steady_put_ack .Application room (put_path_response room (c, .empty))
  have hsteady := IsTrans.trans _ _ _ hpath hack
  have hdue := h.steady hsteady
  unfold drain_short
  dsimp only
  rw [hdone, hmax_data _ hdue, hmax_stream _ _ hdue, hstreams _ hdue]
  exact ⟨hsteady, light_put_ack (light_put_path_response rfl)⟩

/-- A packet of another level is not what a 1-RTT packet carries. -/
theorem level_of_long {level : Level} {buf_len : Nat} {now : Instant}
    {r : Option Packet × Connection B}
    (h : Builds (fun _ _ => True) level buf_len now c r) : ∀ pkt ∈ r.1, pkt.level = level := by
  rintro pkt hpkt
  rcases h with ⟨hnone, -⟩ | ⟨d, p, pkt', _, _, -, hsome, hlevel, -⟩
  · rw [hnone] at hpkt
    cases hpkt
  · rw [hsome] at hpkt
    cases hpkt
    exact hlevel

/-- Every relation that always holds is kept. -/
theorem keptByDrain_true : KeptByDrain (B := B) fun _ _ => True where
  key_update _ := trivial
  rewind _ := trivial
  ack _ _ _ := trivial
  crypto _ _ _ := trivial
  path_response _ _ := trivial
  max_data _ _ := trivial
  max_stream_data _ _ := trivial
  streams _ _ := trivial
  short_sent _ _ := trivial
  release _ := trivial
  closed _ := trivial

instance : IsPreorder (Connection B) fun _ _ => True where
  refl _ := trivial
  trans _ _ _ _ _ := trivial

theorem long_levels (buf_len : Nat) (now : Instant) (c : Connection B) :
    ∀ pkt ∈ (c.build_long_packets buf_len now).1.toList ++ (c.build_long_packets buf_len now).2.1.toList,
      pkt.level ≠ .Application := by
  have hwith : ∀ (level : Level) (build : Connection B → Option Packet × Connection B),
      (∀ c, ∀ pkt ∈ (build c).1, pkt.level = level) →
      ∀ c : Connection B, ∀ pkt ∈ (c.build_with_keys level build).1, pkt.level = level := by
    intro level build hbuild c pkt hpkt
    unfold build_with_keys at hpkt
    split at hpkt
    · exact hbuild c pkt hpkt
    · cases hpkt
  intro pkt hpkt
  unfold build_long_packets at hpkt
  dsimp only at hpkt
  rcases List.mem_append.mp hpkt with hpkt | hpkt
  · have hlevel := hwith .Initial _
      (fun c => level_of_long (keptByDrain_true.build_initial_packet buf_len now c)) _ pkt
      (Option.mem_toList.mp hpkt)
    rw [hlevel]
    nofun
  · have hlevel := hwith .Handshake _
      (fun c => level_of_long (keptByDrain_true.build_handshake_packet _ now c)) _ pkt
      (Option.mem_toList.mp hpkt)
    rw [hlevel]
    nofun

/-- The frames of the 1-RTT packet among some packets. -/
def short_frames (packets : List Packet) : List Frame :=
  ((packets.find? (·.level == .Application)).map Packet.frames).getD []

/-- A sealed 1-RTT packet settles nothing when no HANDSHAKE_DONE is owed. -/
theorem steady_short_sent (frames : List Frame)
    (h : c.need_handshake_done = false) : Steady c (short_sent frames c) := by
  refine ⟨?_, Nat.le_refl _⟩
  simp [due_side, short_sent, h, ConnectionKeys.has_send_keys, ConnectionKeys.send_keys]

/-- A short packet that finds nothing due carries nothing that has to be sent again. -/
theorem build_short_light (cap : Nat) (now : Instant) (h : NothingDue c) :
    Steady c (c.build_short_packet cap now).2 ∧
      ∀ pkt ∈ (c.build_short_packet cap now).1, pkt.frames.flatMap frame_items = [] := by
  unfold build_short_packet
  dsimp only
  split
  · exact ⟨refl c, nofun⟩
  · obtain ⟨hsteady, hlight⟩ :=
      drain_short_light (cap - (1 + c.remote_cid.length + c.pn_len .Application)) h
    generalize c.drain_short (cap - (1 + c.remote_cid.length + c.pn_len .Application)) = d at *
    split
    · exact ⟨hsteady, nofun⟩
    · split
      · exact ⟨hsteady, nofun⟩
      · rename_i pkt hseal
        obtain ⟨-, hframes⟩ := seal_level_packet hseal
        have hdue := h.steady hsteady
        have hsent := steady_packet_sent .Application pkt.data.length d.2.ack_eliciting
          d.2.ack_eliciting now d.1
        refine ⟨IsTrans.trans _ _ _ hsteady (IsTrans.trans _ _ _ hsent ?_), ?_⟩
        · exact steady_short_sent pkt.frames (hdue.steady hsent).2.1
        · rintro pkt' hpkt
          cases hpkt
          rw [hframes]
          exact hlight

/-- The packets of a datagram, when a 1-RTT packet finds nothing due or cannot be built. -/
theorem build_packets_light (buf_len : Nat) (now : Instant)
    (h : c.keys.has_send_keys .Application = false ∨ NothingDue c) :
    Steady c (c.build_packets buf_len now).2 ∧
      (short_frames (c.build_packets buf_len now).1).flatMap frame_items = [] := by
  have hlong := steady_build_long_packets buf_len now c
  have hlevels := long_levels buf_len now c
  unfold build_packets
  rcases hrun : c.build_long_packets buf_len now with ⟨initial, handshake, c₁⟩
  rw [hrun] at hlong hlevels
  dsimp only
  have hsteady : Steady c c₁.maybe_release_handshake_slot :=
    IsTrans.trans _ _ _ hlong (steady_release c₁)
  have hnone : (initial.toList ++ handshake.toList).find? (·.level == .Application) = none := by
    refine List.find?_eq_none.mpr fun pkt hpkt hlevel => ?_
    exact hlevels pkt hpkt (by simpa using hlevel)
  have hshort : ∀ cap, Steady c₁.maybe_release_handshake_slot
        (c₁.maybe_release_handshake_slot.build_with_keys .Application (build_short_packet cap now)).2 ∧
      ∀ pkt ∈ (c₁.maybe_release_handshake_slot.build_with_keys .Application
        (build_short_packet cap now)).1, pkt.frames.flatMap frame_items = [] := by
    intro cap
    unfold build_with_keys
    split
    · rename_i hkeys
      rcases h with hno | hdue
      · have hside := hsteady.side
        simp only [due_side, Prod.mk.injEq] at hside
        rw [hside.2.2.2.2.2, hno] at hkeys
        cases hkeys
      · exact build_short_light cap now (hdue.steady hsteady)
    · exact ⟨refl _, nofun⟩
  generalize hcap : buf_len - packet_length initial - packet_length handshake = cap
  obtain ⟨hkeeps, hframes⟩ := hshort cap
  refine ⟨IsTrans.trans _ _ _ hsteady hkeeps, ?_⟩
  unfold short_frames
  rw [List.find?_append, hnone, Option.none_or]
  cases hbuilt : (c₁.maybe_release_handshake_slot.build_with_keys .Application
      (build_short_packet cap now)).1 with
  | none => rfl
  | some pkt =>
    have hlight := hframes pkt hbuilt
    simp only [Option.toList_some, List.find?_cons, List.find?_nil]
    split
    · exact hlight
    · rfl

/-- A CONNECTION_CLOSE carries nothing that has to be sent again. -/
theorem transmit_close_light (error_code : Nat) (reason : Bytes) (buf_len : Nat) (now : Instant)
    (c : Connection B) :
    Still c (c.transmit_close error_code reason buf_len now).2 ∧
      ∀ t ∈ (c.transmit_close error_code reason buf_len now).1,
        (short_frames t.packets).flatMap frame_items = [] := by
  unfold transmit_close
  split
  · exact ⟨refl c, nofun⟩
  · rename_i level _
    have hclose : Still c (c.build_close_packet level (.ConnectionClose
          { is_application := false, error_code, frame_type := 0, reason }) buf_len now).2 ∧
        ∀ pkt ∈ (c.build_close_packet level (.ConnectionClose
          { is_application := false, error_code, frame_type := 0, reason }) buf_len now).1,
          pkt.frames.flatMap frame_items = [] := by
      unfold build_close_packet
      split
      · exact ⟨refl c, nofun⟩
      · rename_i p hpush
        have hframes : p.frames = [.ConnectionClose
            { is_application := false, error_code, frame_type := 0, reason }] := by
          unfold Payload.push at hpush
          split at hpush
          · cases hpush
            rfl
          · cases hpush
        dsimp only
        split
        · exact ⟨refl c, nofun⟩
        · rename_i pkt hsealed
          have hpkt : pkt.frames = p.frames := by
            cases level with
            | Initial =>
              obtain ⟨⟨_, padding⟩, hseal, rfl⟩ := Option.map_eq_some_iff.mp hsealed
              exact (seal_initial_packet hseal).2.1
            | Handshake => exact (seal_level_packet hsealed).2
            | Application => exact (seal_level_packet hsealed).2
          rw [hframes] at hpkt
          refine ⟨?_, ?_⟩
          · have hsent := (steady_packet_sent level pkt.data.length false false now c).still
            refine IsTrans.trans _ _ _ hsent ?_
            split
            · refine ⟨rfl, rfl, ?_, refl _⟩
              simp [short_sent, hpkt]
            · exact refl _
          · rintro pkt' hmem
            cases hmem
            rw [hpkt]
            rfl
    dsimp only
    refine ⟨IsTrans.trans _ _ _ hclose.1 ⟨rfl, rfl, rfl, refl _⟩, ?_⟩
    rintro t ht
    obtain ⟨pkt, hpkt, rfl⟩ := Option.map_eq_some_iff.mp ht
    have hlight := hclose.2 pkt hpkt
    simp only [short_frames, List.find?_cons, List.find?_nil]
    split
    · exact hlight
    · rfl

/-- What is handed out are the packets that were built, or nothing. -/
theorem emit_still (packets : List Packet) (c : Connection B) :
    Still c (c.emit packets).2 ∧ ∀ t ∈ (c.emit packets).1, t.packets = packets := by
  unfold emit
  dsimp only
  split
  · exact ⟨refl c, nofun⟩
  · split
    · exact ⟨refl c, by rintro t ht; cases ht; rfl⟩
    · split
      · exact ⟨⟨rfl, rfl, rfl, refl _⟩, by rintro t ht; cases ht; rfl⟩
      · exact ⟨refl c, nofun⟩

/-- A call that spares it leaves it alone, and sends nothing that has to be sent again. -/
theorem poll_transmit_light {buf_len : Nat} {now : Instant}
    (h : Spares c (.op (.poll_transmit buf_len now))) :
    Still c (c.poll_transmit buf_len now).2 ∧
      ∀ t ∈ (c.poll_transmit buf_len now).1, (short_frames t.packets).flatMap frame_items = [] := by
  unfold poll_transmit
  by_cases hclosed : c.state = .Closed
  · rw [if_pos hclosed]
    exact ⟨refl c, nofun⟩
  rw [if_neg hclosed]
  by_cases hamp : c.amplification_allows 1 = false
  · rw [if_pos hamp]
    exact ⟨refl c, nofun⟩
  rw [if_neg hamp]
  have hkeys := steady_key_update c
  have hframe : (auto_key_update c).2.close_frame = c.close_frame := by
    refine keeps_seq (R := Method.Same Connection.close_frame) keeps_get (fun _ => ?_) c
    exact keeps_ite (keeps_on fun _ => rfl) (keeps_pure _)
  rcases hrun : auto_key_update c with ⟨_ | _, c₁⟩
  · rw [hrun] at hkeys
    exact ⟨IsTrans.trans _ _ _ hkeys.still ⟨rfl, rfl, rfl, refl _⟩, nofun⟩
  · rw [hrun] at hkeys hframe
    have hsteady : Steady c c₁.rewind_crypto := IsTrans.trans _ _ _ hkeys (steady_rewind c₁)
    have hclose : c₁.rewind_crypto.close_frame = c.close_frame := by
      rw [← hframe]
      unfold rewind_crypto
      split <;> rfl
    unfold transmit
    dsimp only
    split
    · obtain ⟨hstill, hlight⟩ := transmit_close_light _ _ buf_len now c₁.rewind_crypto
      exact ⟨IsTrans.trans _ _ _ hsteady.still hstill, hlight⟩
    · rename_i hnone
      have hdue : c.keys.has_send_keys .Application = false ∨ NothingDue c := by
        rcases h with h | h | h | h | h
        · exact absurd h hclosed
        · exact absurd h hamp
        · rw [← hclose, hnone] at h
          cases h
        · exact .inl h
        · exact .inr h
      have hdue₁ : c₁.rewind_crypto.keys.has_send_keys .Application = false ∨
          NothingDue c₁.rewind_crypto := by
        refine hdue.imp (fun hno => ?_) fun hd => hd.steady hsteady
        have hside := hsteady.side
        simp only [due_side, Prod.mk.injEq] at hside
        rw [hside.2.2.2.2.2, hno]
      obtain ⟨hbuilt, hlight⟩ := build_packets_light buf_len now hdue₁
      obtain ⟨hemit, hpackets⟩ := emit_still (c₁.rewind_crypto.build_packets buf_len now).1
        (c₁.rewind_crypto.build_packets buf_len now).2
      refine ⟨IsTrans.trans _ _ _ hsteady.still (IsTrans.trans _ _ _ hbuilt.still hemit), ?_⟩
      intro t ht
      rw [hpackets t ht]
      exact hlight

/-! ## Whole runs -/

/-- What holds along a run: all that was accepted is queued, nothing that has to be sent again was
carried, and the last entry ends where its stream has been sent up to. -/
structure Retains (trace : List (Connection B × Step)) (c : Connection B) : Prop where
  accepted : ∀ item ∈ trace.flatMap accepted_by, item ∈ c.sio.send_queue.flatMap entry_items
  nothing_carried : carried trace = []
  done : c.role = .Server → c.need_handshake_done = true
  fresh : StreamMap.FreshIds (c.role = .Client) c.streams
  tail : ∀ tail, c.sio.send_queue.getLast? = some tail →
    ∃ stream send, c.streams.get tail.stream_id = some stream ∧ stream.send = some send ∧
      tail.offset + tail.data.length = send.offset

/-- A step that leaves it alone, accepts nothing and sends nothing of it. -/
theorem Retains.still {s : Step}
    (h : Retains trace c) (hs : Still c (s.apply c)) (haccept : accepted_by (c, s) = [])
    (hcarry : carried [(c, s)] = []) : Retains (trace ++ [(c, s)]) (s.apply c) where
  accepted item hitem := by
    rw [List.flatMap_append, List.flatMap_singleton, haccept, List.append_nil] at hitem
    rw [hs.queue]
    exact h.accepted item hitem
  nothing_carried := by
    have happ : carried (trace ++ [(c, s)]) = carried trace ++ carried [(c, s)] :=
      List.flatMap_append
    rw [happ, h.nothing_carried, hcarry]
    rfl
  done hrole := by
    rw [hs.role] at hrole
    rw [hs.done]
    exact h.done hrole
  fresh := by
    rw [hs.role]
    exact (hs.streams h.fresh).1
  tail tail htail := by
    rw [hs.queue] at htail
    obtain ⟨stream, send, hget, hsend, hend⟩ := h.tail tail htail
    obtain ⟨stream', hget', hsame⟩ := (hs.streams h.fresh).2 _ stream hget
    have hsome : stream'.send.map SendState.offset = some send.offset := by
      rw [hsame, hsend]
      rfl
    obtain ⟨send', hsend', hoffset⟩ := Option.map_eq_some_iff.mp hsome
    exact ⟨stream', send', hget', hsend', hend.trans hoffset.symm⟩

/-- Data that is accepted is queued behind the rest. -/
theorem Retains.sent (h : Retains trace c) (stream_id : Nat) (data : Bytes) (fin : Bool) :
    Retains (trace ++ [(c, .op (.stream_send stream_id data fin))])
      (Step.apply (.op (.stream_send stream_id data fin)) c) := by
  have happly : Step.apply (.op (.stream_send stream_id data fin)) c =
    (stream_send stream_id data fin c).2 := rfl
  rcases stream_send_cases stream_id data fin c with
    ⟨e, c', hrun, hstill⟩ | ⟨hrun, hfin⟩ | ⟨stream, send, send', n, hget, hsend, hoffset, hn, hbuf, hrun⟩
  · refine h.still ?_ ?_ rfl
    · rw [happly, hrun]
      exact hstill
    · simp only [accepted_by, hrun]
  · refine h.still ?_ ?_ rfl
    · rw [happly, hrun]
      exact refl c
    · simp only [accepted_by, hrun]
      split
      · rename_i hok _
        cases hok
        rw [List.take_zero, pieces, hfin]
        rfl
      · rfl
  · have haccept : accepted_by (c, .op (.stream_send stream_id data fin)) =
        pieces stream_id send.offset (data.take n) (fin && n == data.length) := by
      simp only [accepted_by, hrun, hget, Option.bind_some, hsend]
    have htail : ∀ tail, c.sio.coalesce_tail stream_id = some tail →
        EndsAt stream_id send.offset tail := by
      intro tail hcoalesce
      unfold QuicStreamIo.coalesce_tail at hcoalesce
      split at hcoalesce
      · split at hcoalesce
        · rename_i hlast hid
          cases hcoalesce
          obtain ⟨stream₀, send₀, hget₀, hsend₀, hend⟩ := h.tail tail hlast
          rw [hid.1, hget] at hget₀
          cases hget₀
          rw [hsend] at hsend₀
          cases hsend₀
          exact ⟨hid.1, hend⟩
        · cases hcoalesce
      · cases hcoalesce
    have hpos : 0 < B.STREAM_BUF ∨ data.take n = [] := by
      refine hbuf.imp_right fun hzero => ?_
      rw [hzero, List.take_zero]
    have hlen : (data.take n).length = n := List.length_take_of_le hn
    obtain ⟨hitems, last, hlast, hends⟩ := enqueue_items (fin && n == data.length) hpos htail
    rw [happly, hrun]
    have hid : stream.id = stream_id := get_id hget
    have hput : (c.streams.put stream_id { stream with send := some send' }).get stream_id =
      some { stream with send := some send' } := get_put_self hget hid
    constructor
    · intro item hitem
      rw [List.flatMap_append, List.flatMap_singleton, haccept] at hitem
      show item ∈ List.flatMap entry_items (QuicStreamIo.enqueue ..).send_queue
      rw [hitems]
      rcases List.mem_append.mp hitem with hitem | hitem
      · exact List.mem_append_left _ (h.accepted item hitem)
      · exact List.mem_append_right _ hitem
    · have happ : carried (trace ++ [(c, .op (.stream_send stream_id data fin))]) =
          carried trace ++ carried [(c, .op (.stream_send stream_id data fin))] := List.flatMap_append
      rw [happ, h.nothing_carried]
      rfl
    · exact h.done
    · have hany : IsPreorder StreamState fun _ _ => True :=
        { refl := fun _ => trivial, trans := fun _ _ _ _ _ => trivial }
      have hevolves : StreamMap.Evolves (c.role = .Client) (fun _ _ => True) c.streams
          (c.streams.put stream_id { stream with send := some send' }) :=
        evolves_put hget rfl trivial
      exact (hevolves h.fresh).1
    · intro tail htail'
      cases hlast.symm.trans htail'
      refine ⟨{ stream with send := some send' }, send', ?_, rfl, ?_⟩
      · rw [hends.1]
        exact hput
      · rw [hends.2, hlen, hoffset]

theorem retains_step {s : Step}
    (hok : Spares c s) (h : Retains trace c) : Retains (trace ++ [(c, s)]) (s.apply c) := by
  by_cases hsend : ∃ stream_id data fin, s = .op (.stream_send stream_id data fin)
  · obtain ⟨stream_id, data, fin, rfl⟩ := hsend
    exact h.sent stream_id data fin
  by_cases htransmit : ∃ buf_len now, s = .op (.poll_transmit buf_len now)
  · obtain ⟨buf_len, now, rfl⟩ := htransmit
    obtain ⟨hstill, hlight⟩ := poll_transmit_light hok
    refine h.still hstill rfl ?_
    rw [carried, List.flatMap_singleton, sent_by]
    cases ht : (c.poll_transmit buf_len now).1 with
    | none => rfl
    | some t =>
      have hframes := hlight t ht
      unfold short_frames at hframes
      rw [Option.bind_some, Option.map_map]
      exact hframes
  · have hstill := still_step (fun a b c' hs => hsend ⟨a, b, c', hs⟩)
      (fun a b hs => htransmit ⟨a, b, hs⟩) c
    refine h.still hstill ?_ ?_
    · unfold accepted_by
      split
      · rename_i heq
        exact absurd ⟨_, _, _, (Prod.mk.inj heq).2⟩ hsend
      · rfl
    · rw [carried, List.flatMap_singleton]
      unfold sent_by
      split
      · rename_i heq
        exact absurd ⟨_, _, (Prod.mk.inj heq).2⟩ htransmit
      · rfl

theorem retains_started (h : Started c) : Retains [] c := by
  obtain ⟨role, keys, tls, local_cid, remote_cid, tp, rfl⟩ := h.fresh
  refine ⟨nofun, rfl, fun hrole => ?_, ⟨fun _ _ => rfl, fun _ _ => rfl⟩, nofun⟩
  have hrole : role = .Server := hrole
  subst hrole
  rfl

theorem mem_pieces {stream_id offset : Nat} {data : Bytes} {fin : Bool} {item : Item}
    (h : item ∈ pieces stream_id offset data fin) :
    (∃ o b, item = .byte stream_id o b) ∨ ∃ n, item = .fin stream_id n := by
  have hbytes : ∀ data offset, item ∈ bytes_at stream_id offset data → ∃ o b, item = .byte stream_id o b := by
    intro data
    induction data with
    | nil => exact nofun
    | cons b data ih =>
      intro offset hmem
      rcases List.mem_cons.mp hmem with rfl | hmem
      · exact ⟨_, _, rfl⟩
      · exact ih _ hmem
  rcases List.mem_append.mp h with h | h
  · exact .inl (hbytes _ _ h)
  · split at h
    · exact .inr ⟨_, List.mem_singleton.mp h⟩
    · cases h

theorem holds_of_queued {item : Item}
    (h : item ∈ c.sio.send_queue.flatMap entry_items) : holds c item = true := by
  obtain ⟨e, -, he⟩ := List.mem_flatMap.mp h
  rcases mem_pieces he with ⟨o, b, rfl⟩ | ⟨n, rfl⟩
  · exact List.contains_iff_mem.mpr h
  · exact List.contains_iff_mem.mpr h

theorem Retains.survives (h : Retains trace c) : Survives trace c := by
  intro _ item hitem
  unfold owed at hitem
  rw [h.nothing_carried] at hitem
  right
  rcases List.mem_append.mp hitem with hitem | hitem
  · rcases List.mem_append.mp hitem with hitem | hitem
    · exact holds_of_queued (h.accepted item hitem)
    · split at hitem
      · rw [List.mem_singleton.mp hitem]
        exact h.done ‹_›
      · cases hitem
  · cases hitem

/-- In every run in which no 1-RTT packet takes what would have to be sent again, what was accepted
and not acknowledged is held in every active state, and so are HANDSHAKE_DONE and the limits. -/
theorem unacknowledged_data_is_held {c : Connection B} (hstart : Started c) (calls : List Call)
    (hok : run.Along Step.apply Spares c (c.steps calls)) :
    ∀ pre, pre <+: c.steps calls → Survives (run.trace Step.apply c pre) (c.after pre) := by
  intro pre hpre
  have hretains := run.history Retains (fun trace c s hok h => retains_step hok h)
    (hok.upto hpre) (retains_started hstart)
  exact hretains.survives

/-! ## Runs -/

section Runs

open standin

/-- A client that is told of the end of the handshake, opens a stream and sends a byte with the end. -/
def queue_a_byte : List Call :=
  [.recv (initial_from_server [8, 7, 6, 5] 0 [.HandshakeDone, .Padding, .Padding, .Padding]) 1500 1,
    .op .open_stream, .op (.stream_send 0 [7] true)]

/-- After a handshake a byte is put into a packet that does not arrive, and the probe timeout
passes. -/
def lose_a_byte : List Call :=
  handshake .default_params { TransportParams.default_params with
      initial_max_data := 100, initial_max_streams_bidi := 1, initial_max_stream_data_bidi_remote := 100 } ++
    [.op .open_stream, .op (.stream_send 0 [7] true), .op (.poll_transmit 1200 5),
      .op (.handle_timeout 10000000), .op (.poll_transmit 1200 10000000)]

/-- The connection is active, and holds the byte and the end of the stream. -/
theorem queued_byte_is_held :
    let c := client .default_params
    (c.after (c.steps queue_a_byte)).state = .Active ∧
      owed (run.trace Step.apply c (c.steps queue_a_byte)) (c.after (c.steps queue_a_byte)) =
        [.byte 0 0 7, .fin 0 1] ∧
      Survives (run.trace Step.apply c (c.steps queue_a_byte)) (c.after (c.steps queue_a_byte)) := by
  intro c
  have hrun : run.Along Step.apply Spares c (c.steps queue_a_byte) ∧
      (c.after (c.steps queue_a_byte)).state = .Active ∧
      owed (run.trace Step.apply c (c.steps queue_a_byte)) (c.after (c.steps queue_a_byte)) =
        [.byte 0 0 7, .fin 0 1] := by decide +kernel
  obtain ⟨hspares, hactive, howed⟩ := hrun
  exact ⟨hactive, howed, unacknowledged_data_is_held (client_started _) queue_a_byte hspares _
    (List.prefix_refl _)⟩

/-- The connection is active, the byte was not acknowledged, and it is held nowhere. -/
theorem sent_byte_is_forgotten :
    let c := client .default_params
    (c.after (c.steps lose_a_byte)).state = .Active ∧
      ¬ Survives (run.trace Step.apply c (c.steps lose_a_byte)) (c.after (c.steps lose_a_byte)) := by
  decide +kernel

end Runs

end milli_http.connection.retention
