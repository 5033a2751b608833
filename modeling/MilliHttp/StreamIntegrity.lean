-- What an application reads from a stream. For a byte string `S` and frames cut from it in
-- any order, the bytes read are a prefix of `S` at every point of every run, and a read that
-- reports the end has delivered all of `S` unless a frame with the FIN was cut off.
import MilliHttp.StreamData

open bytes method

namespace milli_http.connection.stream_integrity

open crypto tls transport packet frame Connection stream_data StreamMap

variable {B : Build} {buf : StreamRecvBuf} {fin : Bool}

/-! ## Reads and frames -/

/-- What a step reads from a stream. -/
def read_of (stream_id : Nat) : Connection B × Step → Option (Bytes × Bool)
  | (c, .op (.stream_recv id cap)) =>
    if id = stream_id then (stream_recv id cap c).1.toOption else none
  | _ => none

/-- The bytes read from a stream so far. -/
def delivered (stream_id : Nat) (history : List (Connection B × Step)) : Bytes :=
  (history.filterMap (read_of stream_id)).flatMap Prod.fst

/-- A STREAM frame carries a piece of `S`, and the FIN only at its end. -/
structure PieceOf (S : Bytes) (stream : StreamFrame) : Prop where
  data : stream.data = (S.drop stream.offset).take stream.data.length
  inside : stream.offset + stream.data.length ≤ S.length
  fin : stream.fin = true → stream.offset + stream.data.length = S.length

instance (S : Bytes) (stream : StreamFrame) : Decidable (PieceOf S stream) :=
  decidable_of_iff (_ ∧ _ ∧ (_ → _)) ⟨fun ⟨h₁, h₂, h₃⟩ => ⟨h₁, h₂, h₃⟩, fun h => ⟨h.1, h.2, h.3⟩⟩

/-- Every STREAM frame of the stream that is accepted is cut from `S`. -/
def CutFrom (S : Bytes) (stream_id : Nat) (c : Connection B) (s : Step) : Prop :=
  ∀ stream ∈ s.stream, stream.stream_id = stream_id → (handle_stream stream c).1 = .ok () →
    PieceOf S stream

/-- An accepted frame with the FIN that leaves no gap fits into the stream's buffer. -/
def FinFits (stream_id : Nat) (c : Connection B) (s : Step) : Prop :=
  ∀ stream ∈ s.stream, stream.stream_id = stream_id → (handle_stream stream c).1 = .ok () →
    stream.fin = true → ∀ buf ∈ target c stream_id, stream.offset ≤ buf.next_offset →
      stream.offset + stream.data.length ≤ buf.next_offset + (B.STREAM_BUF - buf.data.length)

instance (S : Bytes) (stream_id : Nat) (c : Connection B) (s : Step) :
    Decidable (CutFrom S stream_id c s) :=
  inferInstanceAs (Decidable (∀ stream ∈ s.stream, _ → _ → _))

instance (stream_id : Nat) (c : Connection B) (s : Step) : Decidable (FinFits stream_id c s) :=
  inferInstanceAs (Decidable (∀ stream ∈ s.stream, _ → _ → _ → ∀ buf ∈ target c stream_id, _ → _))

/-! ## Finished streams -/

/-- The receive half takes no more data. -/
def Shut (s : StreamState) : Prop :=
  ∃ recv, s.recv = some recv ∧ recv.state ≠ .Recv ∧ recv.state ≠ .SizeKnown

/-- A receive half that is shut stays shut. -/
def KeepsShut (s s' : StreamState) : Prop := Shut s → Shut s'

instance : IsPreorder StreamState KeepsShut where
  refl _ h := h
  trans _ _ _ h₁ h₂ h := h₂ (h₁ h)

theorem keepsShut_of_state {s s' : StreamState} {recv recv' : RecvState} (hrecv : s.recv = some recv)
    (hrecv' : s'.recv = some recv') (hstate : recv'.state = recv.state) : KeepsShut s s' := by
  rintro ⟨r, hr, h₁, h₂⟩
  rw [hrecv] at hr
  cases hr
  exact ⟨recv', hrecv', by rwa [hstate], by rwa [hstate]⟩

theorem keepsShut_of_recv {s s' : StreamState} (h : s'.recv = s.recv) : KeepsShut s s' := by
  rintro ⟨r, hr, hs⟩
  exact ⟨r, h.trans hr, hs⟩

theorem keepsShut_mark_recv (offset len : Nat) (fin : Bool) (s : StreamState) (recv : RecvState)
    (hrecv : s.recv = some recv) :
    KeepsShut s { s with recv := some (RecvState.mark_recv offset len fin recv).2 } := by
  rintro ⟨r, hr, h₁, h₂⟩
  rw [hrecv] at hr
  cases hr
  have hsame : RecvState.mark_recv offset len fin recv =
      (.error (.Transport .StreamStateError), recv) := if_pos ⟨h₁, h₂⟩
  exact ⟨recv, by rw [hsame], h₁, h₂⟩

theorem keepsShut_handle_reset (final_size : Nat) (s : StreamState) (recv : RecvState)
    (hrecv : s.recv = some recv) :
    KeepsShut s { s with recv := some (RecvState.handle_reset final_size recv).2 } := by
  rintro ⟨r, hr, h₁, h₂⟩
  rw [hrecv] at hr
  cases hr
  refine ⟨_, rfl, ?_⟩
  unfold RecvState.handle_reset
  split
  all_goals first | exact ⟨h₁, h₂⟩ | skip
  all_goals split
  all_goals first | exact ⟨h₁, h₂⟩ | exact ⟨by simp, by simp⟩

theorem shut_of_mark_recv_fin {m m' : StreamMap} {stream_id offset len n : Nat}
    (h : mark_recv stream_id offset len true m = (.ok n, m')) :
    ∃ s, m'.get stream_id = some s ∧ Shut s := by
  rcases with_recv_cases stream_id (RecvState.mark_recv offset len true) m with
    herr | ⟨s, recv, hget, hrecv, heq⟩
  · rw [mark_recv, herr] at h
    cases h
  · rw [mark_recv, heq] at h
    obtain ⟨hok, rfl⟩ := Prod.mk.inj h
    have hid : s.id = stream_id := get_id hget
    refine ⟨_, get_put_self hget hid, _, rfl, ?_⟩
    rcases RecvState.mark_recv_cases offset len true recv with ⟨e, he⟩ | ⟨-, he⟩ | ⟨-, -, -, heq⟩
    · rw [he] at hok
      cases hok
    · rw [he] at hok
      cases hok
    · rw [heq]
      have hstate : ((recv.note_fin (offset + len) true).advance (offset + len)).state =
          .DataRecvd := by
        simp only [RecvState.note_fin, RecvState.advance, if_true]
        exact if_pos (by split <;> omega)
      rw [hstate]
      exact ⟨by simp, by simp⟩

/-! ## Buffers and what was read -/

/-- What was read, followed by what the buffer still holds, is `S` up to the next offset. -/
structure Held (S out : Bytes) (buf : StreamRecvBuf) : Prop where
  offset : buf.read_offset ≤ buf.data.length
  bound : buf.next_offset ≤ S.length
  content : out ++ buf.data.drop buf.read_offset = S.take buf.next_offset

theorem held_new (S : Bytes) (stream_id : Nat) : Held S [] (.new stream_id) :=
  ⟨Nat.le_refl _, Nat.zero_le _, rfl⟩

/-- The part of a piece of `S` past an offset is what follows that offset in `S`. -/
theorem drop_piece {S : Bytes} {stream : StreamFrame} (h : PieceOf S stream) {n : Nat}
    (hn : stream.offset ≤ n) : stream.data.drop (n - stream.offset) =
      (S.drop n).take (stream.offset + stream.data.length - n) := by
  rw [h.data, List.drop_take, List.drop_drop]
  congr 1
  · have := congrArg List.length h.data
    omega
  · congr 1
    omega

/-- A piece of `S` extends what is held, as far as there is room. -/
theorem Held.store {S out : Bytes} (h : Held S out buf) (N : Nat)
    {stream : StreamFrame} (hpiece : PieceOf S stream) :
    Held S out (buf.store N stream.offset stream.data stream.fin) := by
  have hinside := hpiece.inside
  unfold StreamRecvBuf.store
  dsimp only
  split
  · exact h
  · rename_i hgap
    split
    · exact ⟨h.offset, h.bound, h.content⟩
    · rename_i hnew
      rw [drop_piece hpiece (by omega), List.take_take]
      refine ⟨?_, ?_, ?_⟩
      · simp only [List.length_append]
        exact Nat.le_add_right_of_le h.offset
      · simp only [List.length_take, List.length_drop]
        omega
      · rw [List.drop_append_of_le_length h.offset, ← List.append_assoc, h.content]
        simp only [List.length_take, List.length_drop]
        rw [List.take_add]
        congr 2
        omega

/-- A read takes the next bytes of `S`, and keeps the rest unless the stream ends here. -/
theorem Held.read {S out b : Bytes} {cap : Nat}
    {left : Option StreamRecvBuf} (h : Held S out buf) (hread : buf.read cap = (.ok (b, fin), left)) :
    out ++ b <+: S ∧
      (fin = false → ∃ buf', left = some buf' ∧ Held S (out ++ b) buf' ∧
        buf'.fin_received = buf.fin_received ∧ buf'.next_offset = buf.next_offset) ∧
      (fin = true → left = none ∧ buf.fin_received = true ∧ out ++ b = S.take buf.next_offset) := by
  have hoffset := h.offset
  have hcontent := h.content
  unfold StreamRecvBuf.read at hread
  dsimp only at hread
  split at hread
  · rename_i hempty
    split at hread
    · rename_i hfin
      cases hread
      have hall : buf.data.drop buf.read_offset = [] := List.drop_eq_nil_of_le (by omega)
      rw [hall] at hcontent
      exact ⟨hcontent ▸ List.take_prefix _ _, nofun, fun _ => ⟨rfl, hfin, hcontent⟩⟩
    · cases hread
  · rename_i havail
    have hsplit := List.take_append_drop (min (buf.data.length - buf.read_offset) cap)
      (buf.data.drop buf.read_offset)
    rw [List.drop_drop] at hsplit
    have hlen : ((buf.data.drop buf.read_offset).take
        (min (buf.data.length - buf.read_offset) cap)).length =
        min (buf.data.length - buf.read_offset) cap := by
      simp only [List.length_take, List.length_drop]
      omega
    rw [hlen] at hread
    rw [← hsplit, ← List.append_assoc] at hcontent
    have hpre := List.take_prefix buf.next_offset S
    rw [← hcontent] at hpre
    split at hread
    · rename_i hfin
      cases hread
      simp only [Bool.and_eq_true, decide_eq_true_eq] at hfin
      have hrest : buf.data.drop (buf.read_offset + min (buf.data.length - buf.read_offset) cap) =
          [] := List.drop_eq_nil_of_le (by omega)
      rw [hrest, List.append_nil] at hcontent
      refine ⟨(List.prefix_append _ _).trans hpre, fun hf => ?_, fun _ => ⟨rfl, hfin.1, hcontent⟩⟩
      simp [hfin.1, hfin.2] at hf
    · rename_i hfin
      cases hread
      refine ⟨(List.prefix_append _ _).trans hpre, fun _ => ⟨_, rfl, ?_, rfl, rfl⟩, fun hf => ?_⟩
      · exact ⟨Nat.zero_le _, h.bound, by simpa using hcontent⟩
      · exact absurd hf hfin

/-! ## The invariant -/

/-- The stream takes no more data. -/
def ShutAt (c : Connection B) (stream_id : Nat) : Prop :=
  ∃ s, c.streams.get stream_id = some s ∧ Shut s

/-- What was read from the stream, and what its buffer holds, is in order. -/
structure Intact (S : Bytes) (stream_id : Nat) (out : Bytes) (c : Connection B) : Prop where
  distinct : slots.Distinct StreamRecvBuf.stream_id c.sio.recv_bufs
  fresh : StreamMap.FreshIds (c.role = .Client) c.streams
  buffered : ∀ buf, buffer c stream_id = some buf →
    Held S out buf ∧ (buf.fin_received = true → ShutAt c stream_id)
  given_up : buffer c stream_id = none → out <+: S ∧ (out = [] ∨ ShutAt c stream_id)

/-- A buffer that has seen the FIN has all of `S`. -/
def FinWhole (S : Bytes) (stream_id : Nat) (c : Connection B) : Prop :=
  ∀ buf, buffer c stream_id = some buf → buf.fin_received = true → buf.next_offset = S.length

/-- The buffer of the stream is left alone, and the streams keep what is shut. -/
structure Quiet (stream_id : Nat) (c c' : Connection B) : Prop where
  role : c'.role = c.role
  buffer : buffer c' stream_id = buffer c stream_id
  distinct : slots.Distinct StreamRecvBuf.stream_id c.sio.recv_bufs →
    slots.Distinct StreamRecvBuf.stream_id c'.sio.recv_bufs
  streams : StreamMap.Evolves (c.role = .Client) KeepsShut c.streams c'.streams

instance (stream_id : Nat) : IsPreorder (Connection B) (Quiet stream_id) where
  refl _ := ⟨rfl, rfl, id, refl _⟩
  trans _ _ _ h₁ h₂ :=
    ⟨h₂.role.trans h₁.role, h₂.buffer.trans h₁.buffer, fun h => h₂.distinct (h₁.distinct h),
      IsTrans.trans _ _ _ h₁.streams (h₁.role ▸ h₂.streams)⟩

theorem Quiet.shutAt {stream_id : Nat} {c c' : Connection B} (h : Quiet stream_id c c')
    (hfresh : StreamMap.FreshIds (c.role = .Client) c.streams) (hs : ShutAt c stream_id) :
    ShutAt c' stream_id := by
  obtain ⟨s, hget, hshut⟩ := hs
  obtain ⟨s', hget', hkeep⟩ := (h.streams hfresh).2 stream_id s hget
  exact ⟨s', hget', hkeep hshut⟩

theorem Intact.of_quiet {S out : Bytes} {stream_id : Nat} {c c' : Connection B}
    (h : Intact S stream_id out c) (hq : Quiet stream_id c c') : Intact S stream_id out c' where
  distinct := hq.distinct h.distinct
  fresh := hq.role ▸ (hq.streams h.fresh).1
  buffered buf hbuf := by
    obtain ⟨hheld, hfin⟩ := h.buffered buf (hq.buffer ▸ hbuf)
    exact ⟨hheld, fun hf => hq.shutAt h.fresh (hfin hf)⟩
  given_up hbuf := by
    obtain ⟨hpre, hout⟩ := h.given_up (hq.buffer ▸ hbuf)
    exact ⟨hpre, hout.imp_right (hq.shutAt h.fresh)⟩

theorem Intact.delivered_le {S out : Bytes} {stream_id : Nat} {c : Connection B}
    (h : Intact S stream_id out c) : out <+: S := by
  cases hbuf : buffer c stream_id with
  | some buf =>
    have hcontent := (h.buffered buf hbuf).1.content
    exact (List.prefix_append out _).trans (hcontent ▸ List.take_prefix _ _)
  | none => exact (h.given_up hbuf).1

theorem FinWhole.of_quiet {S : Bytes} {stream_id : Nat} {c c' : Connection B}
    (h : FinWhole S stream_id c) (hq : Quiet stream_id c c') : FinWhole S stream_id c' :=
  fun buf hbuf => h buf (hq.buffer ▸ hbuf)

/-! ## Quiet steps -/

theorem quiet_of_side {stream_id : Nat} {c c' : Connection B}
    (hside : c'.stream_side = c.stream_side) : Quiet stream_id c c' := by
  have hrole : c'.role = c.role := congrArg StreamSide.role hside
  have hsio : c'.sio = c.sio := congrArg StreamSide.sio hside
  have hstreams : c'.streams = c.streams := congrArg StreamSide.streams hside
  refine ⟨hrole, by simp only [stream_data.buffer, hsio], by rw [hsio]; exact id, ?_⟩
  rw [hstreams]
  exact refl c.streams

/-- A step that only lets the streams evolve. -/
theorem quiet_of_streams {stream_id : Nat} {c : Connection B} {streams : StreamMap}
    (h : StreamMap.Evolves (c.role = .Client) KeepsShut c.streams streams) :
    Quiet stream_id c { c with streams } := ⟨rfl, rfl, id, h⟩

theorem quiet_on_streams {α : Type} {stream_id : Nat} {m : Method StreamMap Error α}
    (hm : ∀ is_client, Method.Keeps (StreamMap.Evolves is_client KeepsShut) m) :
    Method.Keeps (Quiet stream_id) (on_streams (B := B) m) :=
  Method.keeps_on fun c => quiet_of_streams (hm _ c.streams)

theorem quiet_push_event {stream_id : Nat} (c : Connection B) (e : Event) :
    Quiet stream_id c (c.push_event e) := quiet_of_side (push_event_stream_side c e)

theorem quiet_with_send {α : Type} {stream_id id : Nat} {f : Method SendState Error α} :
    Method.Keeps (Quiet stream_id) (on_streams (B := B) (with_send id f)) :=
  quiet_on_streams fun _ => evolves_with_send fun _ _ _ => keepsShut_of_recv rfl

theorem quiet_stream_event {stream_id id : Nat} {m : Method StreamMap Error Unit} {e : Event}
    (hm : Method.Keeps (Quiet stream_id) (on_streams (B := B) m)) :
    Method.Keeps (Quiet stream_id) (stream_event (B := B) id m e) := by
  refine Method.keeps_seq Method.keeps_get fun c => Method.keeps_ite ?_ (Method.keeps_pure _)
  refine Method.keeps_seq (Method.keeps_ignore hm) fun _ => ?_
  exact Method.keeps_modify fun c => quiet_push_event c _

theorem evolves_set_stream_windows (is_client : Bool) (m : StreamMap) (stream_id : Nat)
    (send_max recv_max : Option Nat) :
    StreamMap.Evolves is_client KeepsShut m (m.set_stream_windows stream_id send_max recv_max) := by
  unfold set_stream_windows
  split
  · rename_i s hget
    refine evolves_put hget rfl ?_
    rintro ⟨r, hr, hshut⟩
    cases recv_max with
    | none => exact ⟨r, hr, hshut⟩
    | some max =>
      refine ⟨{ r with max_data := max, max_data_next := max, initial_window := max }, ?_, hshut⟩
      simp only [hr]
  · exact refl m

theorem quiet_set_stream_windows {stream_id id : Nat} (send_max recv_max : Option Nat)
    (c : Connection B) :
    Quiet stream_id c { c with streams := c.streams.set_stream_windows id send_max recv_max } :=
  quiet_of_streams (evolves_set_stream_windows _ _ _ _ _)

theorem quiet_open_stream {stream_id : Nat} :
    Method.Keeps (Quiet stream_id) (open_stream (B := B)) :=
  open_stream_keeps (fun c => quiet_of_streams (evolves_open_bidi _ c.streams))
    (fun _ _ _ c => quiet_set_stream_windows _ _ c)

theorem quiet_open_uni_stream {stream_id : Nat} :
    Method.Keeps (Quiet stream_id) (open_uni_stream (B := B)) :=
  open_uni_stream_keeps (fun c => quiet_of_streams (evolves_open_uni _ c.streams))
    (fun _ _ _ c => quiet_set_stream_windows _ _ c)

theorem quiet_stream_send {stream_id id : Nat} {data : Bytes} :
    Method.Keeps (Quiet stream_id) (stream_send (B := B) id data fin) := by
  refine stream_send_keeps (fun _ _ _ => quiet_with_send) (fun c sio hsio => ?_) id data fin
  exact ⟨rfl, congrArg _ hsio, fun h => by rwa [hsio], refl _⟩

theorem quiet_transmit (stream_id : Nat) : KeptByTransmit (Quiet (B := B) stream_id) :=
  .of_data_side (fun c c' hside => quiet_of_side (congrArg Prod.fst hside))
    (fun room d => by
      obtain ⟨c, p⟩ := d
      simp only [put_max_data]
      split
      · exact refl c
      · split
        · exact ⟨rfl, rfl, id, refl _⟩
        · exact refl c)
    (fun id c => quiet_of_streams (evolves_mark_max_stream_data_sent _ _
      fun s recv hs => keepsShut_of_state hs rfl rfl))
    (fun room d => ⟨rfl, rfl, id, refl _⟩)

/-! ## STREAM frames -/

theorem new_store_stream_id (N stream_id offset : Nat) (data : Bytes) (fin : Bool) :
    ((StreamRecvBuf.new stream_id).store N offset data fin).stream_id = stream_id :=
  store_stream_id _ _ _ _ _

theorem store_stream_data_distinct (sio : QuicStreamIo) (M N stream_id offset : Nat) (data : Bytes)
    (fin : Bool) (h : slots.Distinct StreamRecvBuf.stream_id sio.recv_bufs) :
    slots.Distinct StreamRecvBuf.stream_id
      (sio.store_stream_data M N stream_id offset data fin).recv_bufs := by
  unfold QuicStreamIo.store_stream_data
  split
  · refine h.update fun a b ha hb => ?_
    cases hb
    rwa [store_stream_id]
  · rename_i hnone
    dsimp only
    cases hins : slots.insert M ((StreamRecvBuf.new stream_id).store N offset data fin)
        sio.recv_bufs with
    | none => exact h
    | some recv_bufs => exact h.insert hins (by rwa [new_store_stream_id])

theorem store_stream_data_ne (sio : QuicStreamIo) (M N : Nat) {stream_id id : Nat} (offset : Nat)
    (data : Bytes) (fin : Bool) (hne : stream_id ≠ id) :
    slots.lookup StreamRecvBuf.stream_id stream_id
      (sio.store_stream_data M N id offset data fin).recv_bufs =
      slots.lookup StreamRecvBuf.stream_id stream_id sio.recv_bufs := by
  unfold QuicStreamIo.store_stream_data
  split
  · refine slots.lookup_update_ne hne fun a b ha hb => ?_
    cases hb
    rwa [store_stream_id]
  · dsimp only
    cases hins : slots.insert M ((StreamRecvBuf.new id).store N offset data fin)
        sio.recv_bufs with
    | none => rfl
    | some recv_bufs => exact slots.lookup_insert_ne hins (by rwa [new_store_stream_id])

theorem evolves_with_stream (c : Connection B) (stream_id : Nat) :
    StreamMap.Evolves (c.role = .Client) KeepsShut c.streams (c.with_stream stream_id) :=
  evolves_get_or_create _ _ _ _

theorem evolves_mark_recv (c : Connection B) {stream_id offset len : Nat}
    {r : Except Error Nat} {streams : StreamMap}
    (hm : mark_recv stream_id offset len fin (c.with_stream stream_id) = (r, streams)) :
    StreamMap.Evolves (c.role = .Client) KeepsShut c.streams streams := by
  have h : StreamMap.Evolves (c.role = .Client) KeepsShut (c.with_stream stream_id)
      (mark_recv stream_id offset len fin (c.with_stream stream_id)).2 :=
    evolves_with_recv (keepsShut_mark_recv offset len fin) _
  rw [hm] at h
  exact IsTrans.trans _ _ _ (evolves_with_stream c stream_id) h

/-- What a STREAM frame does to the streams and to the buffers: it is stored, or it leaves every
buffer alone. -/
theorem handle_stream_quiet_or_stored (stream : StreamFrame) (c : Connection B) (stream_id : Nat) :
    Quiet stream_id c (handle_stream stream c).2 ∨
    ∃ n streams, stream.stream_id = stream_id ∧
      mark_recv stream_id stream.offset stream.data.length stream.fin
        (c.with_stream stream_id) = (.ok n, streams) ∧
      handle_stream stream c = (.ok (), c.stream_stored stream streams n) := by
  rcases handle_stream_cases stream c with
    ⟨-, hr⟩ | ⟨e, streams, hm, hr⟩ | ⟨n, streams, hm, -, hr⟩ | ⟨n, streams, hm, -, hr⟩
  · rw [hr]
    exact .inl (quiet_of_streams (evolves_with_stream c _))
  · rw [hr]
    exact .inl (quiet_of_streams (evolves_mark_recv c hm))
  · rw [hr]
    exact .inl (quiet_of_streams (evolves_mark_recv c hm))
  · by_cases hid : stream.stream_id = stream_id
    · subst hid
      exact .inr ⟨n, streams, rfl, hm, hr⟩
    · rw [hr]
      refine .inl (IsTrans.trans _ _ _ ?_ (quiet_push_event _ _))
      exact ⟨rfl, store_stream_data_ne _ _ _ _ _ _ (Ne.symm hid),
        store_stream_data_distinct _ _ _ _ _ _ _, evolves_mark_recv c hm⟩

/-- Data that is taken was not refused for a shut stream. -/
theorem not_shutAt_of_mark_recv {c : Connection B} {stream_id offset len n : Nat}
    {streams : StreamMap} (hfresh : StreamMap.FreshIds (c.role = .Client) c.streams)
    (hm : mark_recv stream_id offset len fin (c.with_stream stream_id) =
      (.ok n, streams)) : ¬ ShutAt c stream_id := by
  rintro ⟨s, hget, hshut⟩
  obtain ⟨s', hget', hkeep⟩ := (evolves_with_stream c stream_id hfresh).2 stream_id s hget
  obtain ⟨recv, hrecv, h₁, h₂⟩ := hkeep hshut
  have hrefused : RecvState.mark_recv offset len fin recv =
      (.error (.Transport .StreamStateError), recv) := if_pos ⟨h₁, h₂⟩
  rcases with_recv_cases stream_id (RecvState.mark_recv offset len fin)
    (c.with_stream stream_id) with herr | ⟨t, recv', hget₂, hrecv₂, heq⟩
  · rw [mark_recv, herr] at hm
    cases hm
  · rw [hget'] at hget₂
    cases hget₂
    rw [hrecv] at hrecv₂
    cases hrecv₂
    rw [mark_recv, heq, hrefused] at hm
    cases hm

theorem store_fin_received {N offset : Nat} {data : Bytes}
    (h : (buf.store N offset data fin).fin_received = true) :
    buf.fin_received = true ∨ fin = true := by
  cases fin with
  | true => exact .inr rfl
  | false =>
    unfold StreamRecvBuf.store at h
    dsimp only at h
    split at h
    · exact .inl h
    · split at h <;> exact .inl h

section Stored

variable {S out : Bytes} {stream : StreamFrame} {c : Connection B} {n : Nat} {streams : StreamMap}
  (hm : StreamMap.mark_recv stream.stream_id stream.offset stream.data.length stream.fin
    (c.with_stream stream.stream_id) = (.ok n, streams))

include hm

/-- Before data is taken, a stream without a buffer has delivered nothing. -/
theorem held_target (h : Intact S stream.stream_id out c)
    (hbuf : target c stream.stream_id = some buf) : Held S out buf ∧ buf.fin_received = false := by
  have hopen := not_shutAt_of_mark_recv h.fresh hm
  cases hb : buffer c stream.stream_id with
  | some buf' =>
    have heq : buf' = buf := by simpa [target, hb] using hbuf
    subst heq
    obtain ⟨hheld, hfin⟩ := h.buffered buf' hb
    exact ⟨hheld, by simpa using fun hf => hopen (hfin hf)⟩
  | none =>
    have hnew : buf = .new stream.stream_id := by
      simp only [target, hb, Option.none_or] at hbuf
      split at hbuf
      · exact (Option.some.inj hbuf).symm
      · cases hbuf
    have hout : out = [] := (h.given_up hb).2.resolve_right hopen
    rw [hnew, hout]
    exact ⟨held_new S _, rfl⟩

/-- Storing a piece of `S` keeps the stream intact. -/
theorem Intact.stored (h : Intact S stream.stream_id out c) (hpiece : PieceOf S stream) :
    Intact S stream.stream_id out (c.stream_stored stream streams n) := by
  have hrole : (c.stream_stored stream streams n).role = c.role :=
    congrArg StreamSide.role (push_event_stream_side _ _)
  have hstreams : (c.stream_stored stream streams n).streams = streams :=
    congrArg StreamSide.streams (push_event_stream_side _ _)
  have hsio : (c.stream_stored stream streams n).sio = c.sio.store_stream_data B.MAX_STREAMS
      B.STREAM_BUF stream.stream_id stream.offset stream.data stream.fin :=
    congrArg StreamSide.sio (push_event_stream_side _ _)
  refine ⟨?_, ?_, ?_, ?_⟩
  · rw [hsio]
    exact store_stream_data_distinct _ _ _ _ _ _ _ h.distinct
  · rw [hrole, hstreams]
    exact (evolves_mark_recv c hm h.fresh).1
  · intro buf' hbuf'
    rw [stream_stored_buffer, Option.map_eq_some_iff] at hbuf'
    obtain ⟨buf, hbuf, rfl⟩ := hbuf'
    obtain ⟨hheld, hnofin⟩ := held_target hm h hbuf
    refine ⟨hheld.store _ hpiece, fun hf => ?_⟩
    rcases store_fin_received hf with hf | hf
    · rw [hnofin] at hf
      cases hf
    · rw [hf] at hm
      obtain ⟨s, hget, hshut⟩ := shut_of_mark_recv_fin hm
      exact ⟨s, by rw [hstreams]; exact hget, hshut⟩
  · intro hnone
    rw [stream_stored_buffer, Option.map_eq_none_iff] at hnone
    have hb : buffer c stream.stream_id = none := by
      cases hb : buffer c stream.stream_id with
      | none => rfl
      | some buf => simp [target, hb] at hnone
    obtain ⟨hpre, hout⟩ := h.given_up hb
    exact ⟨hpre, .inl (hout.resolve_right (not_shutAt_of_mark_recv h.fresh hm))⟩

/-- A FIN that is taken whole is stored with all of `S`. -/
theorem FinWhole.stored (h : Intact S stream.stream_id out c) (hpiece : PieceOf S stream)
    (hfits : stream.fin = true → ∀ buf ∈ target c stream.stream_id,
      stream.offset ≤ buf.next_offset → stream.offset + stream.data.length ≤
        buf.next_offset + (B.STREAM_BUF - buf.data.length)) :
    FinWhole S stream.stream_id (c.stream_stored stream streams n) := by
  intro buf' hbuf' hf
  rw [stream_stored_buffer, Option.map_eq_some_iff] at hbuf'
  obtain ⟨buf, hbuf, rfl⟩ := hbuf'
  obtain ⟨hheld, hnofin⟩ := held_target hm h hbuf
  by_cases hgap : stream.offset ≤ buf.next_offset
  · have hfin : stream.fin = true := (store_fin_received hf).resolve_left (by simp [hnofin])
    have hroom := hfits hfin buf hbuf hgap
    have hend := hpiece.fin hfin
    have hbound := hheld.bound
    rw [store_next_offset _ _ _ _ _ hgap]
    omega
  · rw [store_past_gap _ _ _ _ _ (by omega), hnofin] at hf
    cases hf

end Stored

/-! ## Reads -/

theorem read_stream_id {buf buf' : StreamRecvBuf} {cap : Nat} (h : (buf.read cap).2 = some buf') :
    buf'.stream_id = buf.stream_id := by
  unfold StreamRecvBuf.read at h
  dsimp only at h
  split at h
  · split at h
    · cases h
    · cases h
      rfl
  · split at h
    · cases h
    · cases h
      rfl

theorem read_error {cap : Nat} {e : Error} {left : Option StreamRecvBuf}
    (h : buf.read cap = (.error e, left)) : left = some buf := by
  unfold StreamRecvBuf.read at h
  dsimp only at h
  split at h
  · split at h
    · cases h
    · cases h
      rfl
  · split at h <;> cases h

theorem stream_recv_cases (stream_id cap : Nat) (c : Connection B) :
    (∃ e, stream_recv stream_id cap c = (.error e, c)) ∨
    ∃ buf, buffer c stream_id = some buf ∧
      stream_recv stream_id cap c = ((buf.read cap).1, { c with
        sio := { c.sio with
          recv_bufs := slots.update StreamRecvBuf.stream_id stream_id
            (fun recv => (recv.read cap).2) c.sio.recv_bufs } }) := by
  have hrun : stream_recv stream_id cap c =
      if c.state ≠ .Closed then
        ((QuicStreamIo.stream_recv stream_id cap c.sio).1,
          { c with sio := (QuicStreamIo.stream_recv stream_id cap c.sio).2 })
      else (.error .Closed, c) := Method.require_bind_run _ _ _ c
  rw [hrun]
  split
  · unfold QuicStreamIo.stream_recv
    cases hbuf : slots.lookup StreamRecvBuf.stream_id stream_id c.sio.recv_bufs with
    | none => exact .inl ⟨_, rfl⟩
    | some buf => exact .inr ⟨buf, hbuf, rfl⟩
  · exact .inl ⟨_, rfl⟩

theorem quiet_stream_recv_ne {stream_id id : Nat} (hne : stream_id ≠ id) (cap : Nat)
    (c : Connection B) : Quiet stream_id c (stream_recv id cap c).2 := by
  rcases stream_recv_cases id cap c with ⟨e, h⟩ | ⟨buf, -, h⟩
  · rw [h]
    exact refl c
  · rw [h]
    have hkey : ∀ a b : StreamRecvBuf, a.stream_id = id → (a.read cap).2 = some b →
        b.stream_id = id := fun a b ha hb => (read_stream_id hb).trans ha
    exact ⟨rfl, slots.lookup_update_ne hne hkey, fun hd => hd.update hkey, refl _⟩

/-- A read keeps the stream intact and tells the end only after all of what was stored. -/
theorem Intact.read {S out : Bytes} {stream_id : Nat} {c : Connection B}
    (h : Intact S stream_id out c) (cap : Nat) :
    Intact S stream_id
      (out ++ ((stream_recv stream_id cap c).1.toOption.map Prod.fst).getD [])
      (stream_recv stream_id cap c).2 ∧
    (FinWhole S stream_id c → FinWhole S stream_id (stream_recv stream_id cap c).2 ∧
      ∀ b, (stream_recv stream_id cap c).1 = .ok (b, true) → out ++ b = S) := by
  rcases stream_recv_cases stream_id cap c with ⟨e, heq⟩ | ⟨buf, hbuf, heq⟩
  · rw [heq]
    simpa [Except.toOption] using h
  · have hkey : ∀ a b : StreamRecvBuf, a.stream_id = stream_id → (a.read cap).2 = some b →
        b.stream_id = stream_id := fun a b ha hb => (read_stream_id hb).trans ha
    have hid : buf.stream_id = stream_id := slots.lookup_key hbuf
    obtain ⟨hheld, hshut⟩ := h.buffered buf hbuf
    have hdistinct := h.distinct.update hkey
    rw [heq]
    rcases hread : buf.read cap with ⟨e | ⟨b, fin⟩, left⟩
    · have hself := slots.lookup_update_self (f := fun recv => (recv.read cap).2) hbuf
        ((congrArg Prod.snd hread).trans (read_error hread)) hid
      have hq : Quiet stream_id c { c with
          sio := { c.sio with
            recv_bufs := slots.update StreamRecvBuf.stream_id stream_id
              (fun recv => (recv.read cap).2) c.sio.recv_bufs } } :=
        ⟨rfl, hself.trans hbuf.symm, fun _ => hdistinct, refl _⟩
      simpa [Except.toOption] using ⟨h.of_quiet hq, fun hw => hw.of_quiet hq⟩
    · obtain ⟨hpre, hmore, hend⟩ := hheld.read hread
      cases fin with
      | false =>
        obtain ⟨buf', hleft, hheld', hfin', hnext'⟩ := hmore rfl
        have hsnd : (buf.read cap).2 = some buf' := by rw [hread, hleft]
        have hself := slots.lookup_update_self (f := fun recv => (recv.read cap).2) hbuf hsnd
          (hkey buf buf' hid hsnd)
        refine ⟨⟨hdistinct, h.fresh, fun buf₁ hbuf₁ => ?_, fun hnone => ?_⟩, fun hw => ⟨?_, nofun⟩⟩
        · cases hself.symm.trans hbuf₁
          exact ⟨hheld', fun hf => hshut (hfin' ▸ hf)⟩
        · cases hself.symm.trans hnone
        · intro buf₁ hbuf₁ hf
          cases hself.symm.trans hbuf₁
          rw [hnext']
          exact hw buf hbuf (hfin' ▸ hf)
      | true =>
        obtain ⟨hleft, hfin, hall⟩ := hend rfl
        have hsnd : (buf.read cap).2 = none := by rw [hread, hleft]
        have hself := slots.lookup_update_none (f := fun recv => (recv.read cap).2) hbuf hsnd
          h.distinct
        refine ⟨⟨hdistinct, h.fresh, fun buf₁ hbuf₁ => ?_, fun _ => ?_⟩, fun hw => ⟨?_, ?_⟩⟩
        · cases hself.symm.trans hbuf₁
        · exact ⟨hpre, .inr (hshut hfin)⟩
        · intro buf₁ hbuf₁
          cases hself.symm.trans hbuf₁
        · intro b' hb'
          cases hb'
          rw [hall, hw buf hbuf hfin, List.take_length]

/-! ## One step -/

/-- All that a step can do to a stream: it leaves the buffer alone, it stores a frame, or it
reads. -/
theorem step_cases (stream_id : Nat) (s : Step) (c : Connection B) :
    (Quiet stream_id c (s.apply c) ∧ read_of stream_id (c, s) = none) ∨
    (∃ level now stream n streams, s = .dispatch level now (.Stream stream) ∧
      stream.stream_id = stream_id ∧
      mark_recv stream_id stream.offset stream.data.length stream.fin
        (c.with_stream stream_id) = (.ok n, streams) ∧
      handle_stream stream c = (.ok (), c.stream_stored stream streams n)) ∨
    ∃ cap, s = .op (.stream_recv stream_id cap) := by
  cases ht : touches_streams s with
  | false =>
    refine .inl ⟨quiet_of_side (apply_stream_side ht c), ?_⟩
    cases s with
    | op o =>
      cases o with
      | stream_recv => cases ht
      | _ => rfl
    | _ => rfl
  | true =>
    cases s with
    | dispatch level now frame =>
      cases frame with
      | Stream stream =>
        rcases handle_stream_quiet_or_stored stream c stream_id with
          hq | ⟨n, streams, hid, hm, hr⟩
        · exact .inl ⟨hq, rfl⟩
        · exact .inr (.inl ⟨level, now, stream, n, streams, rfl, hid, hm, hr⟩)
      | MaxStreamData msd =>
        exact .inl ⟨Method.keeps_ignore quiet_with_send c, rfl⟩
      | ResetStream rst =>
        refine .inl ⟨quiet_stream_event (quiet_on_streams fun is_client => ?_) c, rfl⟩
        exact evolves_with_recv (keepsShut_handle_reset rst.final_size)
      | StopSending ss => exact .inl ⟨quiet_stream_event quiet_with_send c, rfl⟩
      | _ => cases ht
    | op o =>
      cases o with
      | poll_transmit buf_len now =>
        exact .inl ⟨(quiet_transmit stream_id).poll_transmit buf_len now c, rfl⟩
      | open_stream => exact .inl ⟨quiet_open_stream c, rfl⟩
      | open_uni_stream => exact .inl ⟨quiet_open_uni_stream c, rfl⟩
      | stream_send id data fin => exact .inl ⟨quiet_stream_send c, rfl⟩
      | stream_recv id cap =>
        by_cases hid : id = stream_id
        · exact .inr (.inr ⟨cap, by rw [hid]⟩)
        · exact .inl ⟨quiet_stream_recv_ne (Ne.symm hid) cap c, if_neg hid⟩
      | stream_reset id => exact .inl ⟨quiet_with_send c, rfl⟩
      | stream_stop_sending id => exact .inl ⟨quiet_with_send c, rfl⟩
      | _ => cases ht
    | _ => cases ht

theorem delivered_concat (stream_id : Nat) (pre : List (Connection B × Step)) (c : Connection B)
    (s : Step) : delivered stream_id (pre ++ [(c, s)]) =
      delivered stream_id pre ++ ((read_of stream_id (c, s)).map Prod.fst).getD [] := by
  simp only [delivered, List.filterMap_append, List.flatMap_append]
  cases h : read_of stream_id (c, s) <;> simp [h]

variable {S : Bytes} {stream_id : Nat}

theorem intact_step (pre : List (Connection B × Step)) (c : Connection B) (s : Step)
    (hok : CutFrom S stream_id c s) (h : Intact S stream_id (delivered stream_id pre) c) :
    Intact S stream_id (delivered stream_id (pre ++ [(c, s)])) (s.apply c) := by
  rw [delivered_concat]
  rcases step_cases stream_id s c with
    ⟨hq, hread⟩ | ⟨level, now, stream, n, streams, rfl, rfl, hm, hr⟩ | ⟨cap, rfl⟩
  · rw [hread]
    simpa using h.of_quiet hq
  · have hpiece := hok stream rfl rfl (by rw [hr])
    have hafter : Step.apply (.dispatch level now (.Stream stream)) c =
      c.stream_stored stream streams n := congrArg Prod.snd hr
    rw [hafter]
    simpa [read_of] using h.stored hm hpiece
  · have hread : read_of stream_id (c, .op (.stream_recv stream_id cap)) =
        (stream_recv stream_id cap c).1.toOption := if_pos rfl
    rw [hread]
    exact (h.read cap).1

theorem finWhole_step {out : Bytes} (c : Connection B) (s : Step)
    (hok : CutFrom S stream_id c s) (hfits : FinFits stream_id c s)
    (h : Intact S stream_id out c) (hw : FinWhole S stream_id c) :
    FinWhole S stream_id (s.apply c) := by
  rcases step_cases stream_id s c with
    ⟨hq, -⟩ | ⟨level, now, stream, n, streams, rfl, rfl, hm, hr⟩ | ⟨cap, rfl⟩
  · exact hw.of_quiet hq
  · have hpiece := hok stream rfl rfl (by rw [hr])
    have hafter : Step.apply (.dispatch level now (.Stream stream)) c =
      c.stream_stored stream streams n := congrArg Prod.snd hr
    rw [hafter]
    exact FinWhole.stored hm h hpiece (hfits stream rfl rfl (by rw [hr]))
  · exact ((h.read cap).2 hw).1

/-! ## Every run -/

theorem intact_started {c : Connection B} (h : Started c) : Intact S stream_id [] c := by
  obtain ⟨role, keys, tls, local_cid, remote_cid, tp, rfl⟩ := h.fresh
  exact ⟨List.nodup_nil, ⟨fun _ _ => rfl, fun _ _ => rfl⟩, nofun,
    fun _ => ⟨List.nil_prefix, .inl rfl⟩⟩

theorem intact_after {c : Connection B} (hstart : Started c) {steps : List Step}
    (hcut : run.Along Step.apply (CutFrom S stream_id) c steps) :
    Intact S stream_id (delivered stream_id (run.trace Step.apply c steps)) (c.after steps) :=
  run.history (fun pre c => Intact S stream_id (delivered stream_id pre) c) intact_step hcut
    (intact_started hstart)

theorem finWhole_after {c : Connection B} (hstart : Started c) {steps : List Step}
    (hcut : run.Along Step.apply (CutFrom S stream_id) c steps)
    (hfits : run.Along Step.apply (FinFits stream_id) c steps) :
    FinWhole S stream_id (c.after steps) := by
  have hboth : run.Along Step.apply (fun c s => CutFrom S stream_id c s ∧ FinFits stream_id c s)
    c steps := fun x hx => ⟨hcut x hx, hfits x hx⟩
  have hnone : FinWhole S stream_id c := by
    obtain ⟨role, keys, tls, local_cid, remote_cid, tp, rfl⟩ := hstart.fresh
    exact nofun
  exact (run.history (fun pre c => Intact S stream_id (delivered stream_id pre) c ∧
      FinWhole S stream_id c)
    (fun pre c s hok h => ⟨intact_step pre c s hok.1 h.1, finWhole_step c s hok.1 hok.2 h.1 h.2⟩)
    hboth ⟨intact_started hstart, hnone⟩).2

theorem eq_stream_recv_of_read_of {c : Connection B} {s : Step} {r : Bytes × Bool}
    (h : read_of stream_id (c, s) = some r) : ∃ cap, s = .op (.stream_recv stream_id cap) ∧
      (stream_recv stream_id cap c).1 = .ok r := by
  unfold read_of at h
  split at h
  · split at h
    · rename_i heq hid
      cases heq
      subst hid
      refine ⟨_, rfl, ?_⟩
      rcases hrun : (stream_recv _ _ c).1 with e | a
      · rw [hrun] at h
        cases h
      · rw [hrun] at h
        cases h
        rfl
    · cases h
  · cases h

/-- In every run whose frames of a stream are cut from `S`, in any order and overlap, and read
in any way, what was read is a prefix of `S` at every point. A read that reports the end has
delivered all of `S`, if every frame with the FIN was taken whole. -/
theorem reads_follow_the_stream {c : Connection B} (hstart : Started c) (S : Bytes)
    (stream_id : Nat) (calls : List Call)
    (hcut : run.Along Step.apply (CutFrom S stream_id) c (c.steps calls)) :
    (∀ pre, pre <+: c.steps calls →
      delivered stream_id (run.trace Step.apply c pre) <+: S) ∧
    (run.Along Step.apply (FinFits stream_id) c (c.steps calls) →
      ∀ pre s b, pre ++ [s] <+: c.steps calls →
        read_of stream_id (c.after pre, s) = some (b, true) →
        delivered stream_id (run.trace Step.apply c (pre ++ [s])) = S) := by
  refine ⟨fun pre hpre => (intact_after hstart (hcut.upto hpre)).delivered_le, ?_⟩
  intro hfits pre s b hpre hread
  have hpre' : pre <+: c.steps calls := (List.prefix_append _ _).trans hpre
  have hintact := intact_after hstart (hcut.upto hpre')
  have hwhole := finWhole_after hstart (hcut.upto hpre') (hfits.upto hpre')
  obtain ⟨cap, rfl, hok⟩ := eq_stream_recv_of_read_of hread
  have hall := ((hintact.read cap).2 hwhole).2 b hok
  rw [run.trace_append, run.trace_cons, run.trace_nil, delivered_concat]
  rw [show read_of stream_id (run.final Step.apply c pre, .op (.stream_recv stream_id cap)) =
    some (b, true) from hread]
  exact hall

/-! ## Runs -/

section Runs

open standin

/-- Twenty bytes of a stream the server opens, with the FIN. -/
def whole_stream : StreamFrame where
  stream_id := 1
  offset := 0
  data := [1, 2, 3, 4, 5, 6, 7, 8, 9, 10, 11, 12, 13, 14, 15, 16, 17, 18, 19, 20]
  fin := true

/-- The frame arrives, and the application reads. -/
def read_whole_stream : List Call :=
  [.recv (initial_from_server [8, 7, 6, 5] 0 [.Stream whole_stream]) 1500 1,
    .op (.stream_recv 1 100)]

/-- The first half of the stream, and its second half with the FIN. -/
def first_half : StreamFrame := { whole_stream with data := whole_stream.data.take 10, fin := false }

def second_half : StreamFrame :=
  { whole_stream with offset := 10, data := whole_stream.data.drop 10 }

/-- The halves arrive one after the other, each read before the next. -/
def read_two_halves : List Call :=
  [.recv (initial_from_server [8, 7, 6, 5] 0 [.Stream first_half]) 1500 1,
    .op (.stream_recv 1 100),
    .recv (initial_from_server [8, 7, 6, 5] 1 [.Stream second_half]) 1500 2,
    .op (.stream_recv 1 100)]

/-- The law on a run that reads all of the stream. -/
theorem two_halves_are_read_whole :
    delivered 1 (run.trace Step.apply (client .default_params)
      (((client .default_params).steps read_two_halves).take 11 ++ [.op (.stream_recv 1 100)])) =
        whole_stream.data :=
  (reads_follow_the_stream (client_started _) whole_stream.data 1 read_two_halves
    (by decide +kernel)).2 (by decide +kernel)
    (((client .default_params).steps read_two_halves).take 11) (.op (.stream_recv 1 100))
    (whole_stream.data.drop 10) (by decide +kernel) (by decide +kernel)

/-- A frame with the FIN that is longer than the buffer is cut off, and the read that empties
the buffer reports the end four bytes early. -/
theorem end_is_reported_early :
    ¬ ∀ (B : Build) (c : Connection B), Started c → ∀ S stream_id calls,
      run.Along Step.apply (CutFrom S stream_id) c (c.steps calls) →
      (∀ pre, pre <+: c.steps calls →
        delivered stream_id (run.trace Step.apply c pre) <+: S) ∧
      ∀ pre s b, pre ++ [s] <+: c.steps calls →
        read_of stream_id (c.after pre, s) = some (b, true) →
        delivered stream_id (run.trace Step.apply c (pre ++ [s])) = S := by
  intro h
  have hend := (h build (client .default_params) (client_started _) whole_stream.data 1
    read_whole_stream (by decide +kernel)).2
    (((client .default_params).steps read_whole_stream).take 5) (.op (.stream_recv 1 100))
    (whole_stream.data.take 16) (by decide +kernel) (by decide +kernel)
  exact absurd hend (by decide +kernel)

end Runs

end milli_http.connection.stream_integrity
