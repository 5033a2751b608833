-- Calls on the stream table (transport/stream.rs): which of them leave the table as it was
-- when they fail, and the final sizes it keeps. A FIN is written before the flow-control
-- check that may still refuse its frame, and neither a FIN nor a RESET_STREAM is held against
-- the data received before it.
import MilliHttp.Lib.Run
import MilliHttp.Transport.Stream

open method run

namespace milli_http.transport

open StreamMap

/-! ## Collecting streams -/

def SendStreamState.is_terminal (state : SendStreamState) : Bool :=
  state = .DataRecvd || state = .ResetRecvd

def RecvStreamState.is_terminal (state : RecvStreamState) : Bool :=
  state = .DataRead || state = .ResetRead

def stream_is_terminal (s : StreamState) : Bool :=
  let send_terminal := s.send.all (·.state.is_terminal)
  let recv_terminal := s.recv.all (·.state.is_terminal)
  send_terminal && recv_terminal

/-- Removes terminal streams to free slots. -/
def StreamMap.gc (m : StreamMap) : StreamMap :=
  { m with streams := m.streams.map fun slot => slot.filter (!stream_is_terminal ·) }

/-! ## Calls -/

/-- The calls that may refuse what the peer or the application asks for. -/
inductive StreamCall where
  | mark_recv (stream_id offset len : Nat) (fin : Bool)
  | handle_reset (stream_id final_size : Nat)
  | mark_reset_sent (stream_id : Nat)
  | handle_stop_sending (stream_id : Nat)
  | get_or_create (stream_id : Nat) (is_client : Bool) (initial_max_stream_data : Nat)

/-- Runs a call on a table of capacity `N`. -/
def StreamCall.run (N : Nat) : StreamCall → Method StreamMap Error Unit
  | mark_recv stream_id offset len fin => do
    let _ ← StreamMap.mark_recv stream_id offset len fin
    pure ()
  | handle_reset stream_id final_size => StreamMap.handle_reset stream_id final_size
  | mark_reset_sent stream_id => StreamMap.mark_reset_sent stream_id
  | handle_stop_sending stream_id => StreamMap.handle_stop_sending stream_id
  | get_or_create stream_id is_client initial_max_stream_data =>
    StreamMap.get_or_create N stream_id is_client initial_max_stream_data

/-- Everything the table's owner does to it. -/
inductive StreamOp where
  | call (c : StreamCall)
  | open_bidi (is_client : Bool)
  | open_uni (is_client : Bool)
  | mark_send (stream_id len : Nat) (fin : Bool)
  | mark_max_stream_data_sent (stream_id : Nat)
  | handle_max_stream_data (stream_id max_data : Nat)
  | set_stream_windows (stream_id : Nat) (send_max recv_max : Option Nat)
  | gc

/-- The table after an operation, whatever it answers. -/
def StreamOp.apply (N : Nat) : StreamOp → StreamMap → StreamMap
  | call c, m => (c.run N m).2
  | open_bidi is_client, m => (StreamMap.open_bidi N is_client m).2
  | open_uni is_client, m => (StreamMap.open_uni N is_client m).2
  | mark_send stream_id len fin, m => (StreamMap.mark_send stream_id len fin m).2
  | mark_max_stream_data_sent stream_id, m => m.mark_max_stream_data_sent stream_id
  | handle_max_stream_data stream_id max_data, m =>
    (StreamMap.handle_max_stream_data stream_id max_data m).2
  | set_stream_windows stream_id send_max recv_max, m =>
    m.set_stream_windows stream_id send_max recv_max
  | gc, m => m.gc

/-- The receive half of the stream with an id. -/
def StreamMap.recv_half (m : StreamMap) (stream_id : Nat) : Option RecvState :=
  (m.get stream_id).bind (·.recv)

/-! ## Failing cleanly -/

/-- A call that is refused changes nothing. -/
def FailsCleanly {σ α : Type} (f : Method σ Error α) (s : σ) : Prop :=
  ∀ e, (f s).1 = .error e → (f s).2 = s

/-- The half takes the FIN of a frame it then refuses for lack of window. -/
def RecvState.FinPastWindow (recv : RecvState) (end_ : Nat) : Prop :=
  (recv.state = .Recv ∨ recv.state = .SizeKnown) ∧ recv.fin_conflict end_ true = false ∧
    recv.max_data < end_ ∧ ¬(recv.fin_offset = some end_ ∧ recv.state = .SizeKnown)

/-- The call carries a FIN past the window of its stream. -/
def FinPastWindow (m : StreamMap) : StreamCall → Prop
  | .mark_recv stream_id offset len fin =>
    fin = true ∧ ∃ recv ∈ m.recv_half stream_id, recv.FinPastWindow (offset + len)
  | _ => False

section FailsCleanly

variable {m : StreamMap} {stream_id : Nat}

theorem discard_fails_cleanly_iff {σ α : Type} (f : Method σ Error α) (s : σ) :
    FailsCleanly (do let _ ← f; pure ()) s ↔ FailsCleanly f s := by
  unfold FailsCleanly
  rw [Method.bind_run]
  rcases f s with ⟨a | a, s'⟩ <;> simp

theorem with_recv_fails_cleanly_iff {α : Type} (f : Method RecvState Error α) :
    FailsCleanly (with_recv stream_id f) m ↔
      ∀ recv ∈ m.recv_half stream_id, FailsCleanly f recv := by
  unfold FailsCleanly
  simp only [with_recv_eq_self_iff, recv_half]
  rcases with_recv_cases stream_id f m with h | ⟨s, recv, hget, hrecv, h⟩
  · have hself : (with_recv stream_id f m).2 = m := by rw [h]
    rw [with_recv_eq_self_iff] at hself
    exact iff_of_true (fun _ _ => hself) fun recv hrecv _ _ => hself recv hrecv
  · rw [h]
    simp [hget, hrecv]

theorem with_send_fails_cleanly {α : Type} {f : Method SendState Error α}
    (h : ∀ send, FailsCleanly f send) : FailsCleanly (with_send stream_id f) m := by
  intro e he
  rw [with_send_eq_self_iff]
  rcases with_send_cases stream_id f m with hrun | ⟨s, send, hget, hsend, hrun⟩
  · have hself : (with_send stream_id f m).2 = m := by rw [hrun]
    exact with_send_eq_self_iff f |>.mp hself
  · rw [hrun] at he
    simp only [hget, hsend, Option.bind_some, Option.mem_def, Option.some.injEq, forall_eq']
    exact h send e he

theorem RecvState.mark_recv_fails_cleanly_iff (offset len : Nat) (fin : Bool) (recv : RecvState) :
    FailsCleanly (mark_recv offset len fin) recv ↔
      ¬(fin = true ∧ recv.FinPastWindow (offset + len)) := by
  unfold FailsCleanly mark_recv FinPastWindow
  by_cases hopen : recv.state ≠ .Recv ∧ recv.state ≠ .SizeKnown
  · simp [hopen]
  · have hopen' : recv.state = .Recv ∨ recv.state = .SizeKnown := by
      by_contra hcontra
      exact hopen (not_or.mp hcontra)
    rw [if_neg hopen]
    dsimp only
    cases fin with
    | false =>
      split
      · simp
      · split <;> simp [note_fin]
    | true =>
      by_cases hconflict : recv.fin_conflict (offset + len) true = true
      · simp [hconflict]
      · rw [if_neg hconflict]
        have hmax : (recv.note_fin (offset + len) true).max_data = recv.max_data := by simp [note_fin]
        rw [hmax]
        by_cases hover : offset + len > recv.max_data
        · -- The FIN is written, and the frame refused.
          rw [if_pos hover]
          have hsame : recv.note_fin (offset + len) true = recv ↔
              recv.fin_offset = some (offset + len) ∧ recv.state = .SizeKnown := by
            rcases recv with ⟨state, offset, max_data, max_data_next, initial_window, fin_offset⟩
            simp [note_fin, eq_comm, and_comm]
          simp [hsame, hopen', hover, hconflict]
        · rw [if_neg hover]
          have hfit : ¬recv.max_data < offset + len := hover
          simp [hfit]

theorem RecvState.handle_reset_fails_cleanly (final_size : Nat) (recv : RecvState) :
    FailsCleanly (handle_reset final_size) recv := by
  unfold FailsCleanly handle_reset
  split
  all_goals first | (split <;> simp) | simp

theorem SendState.mark_reset_sent_fails_cleanly (send : SendState) :
    FailsCleanly mark_reset_sent send := by
  unfold FailsCleanly mark_reset_sent
  split <;> simp

theorem SendState.handle_stop_sending_fails_cleanly (send : SendState) :
    FailsCleanly handle_stop_sending send := by
  unfold FailsCleanly handle_stop_sending
  split <;> simp

theorem StreamMap.get_or_create_fails_cleanly (N : Nat) (is_client : Bool)
    (initial_max_stream_data : Nat) :
    FailsCleanly (get_or_create N stream_id is_client initial_max_stream_data) m := by
  unfold FailsCleanly get_or_create
  split
  · simp
  · split
    · simp
    · split
      · simp
      · dsimp only
        split <;> simp

/-- A refused call leaves the whole table as it was, unless it carries a FIN past the window
of its stream. -/
theorem calls_fail_cleanly_iff (N : Nat) (m : StreamMap) (c : StreamCall) :
    FailsCleanly (c.run N) m ↔ ¬FinPastWindow m c := by
  cases c with
  | mark_recv stream_id offset len fin =>
    refine (discard_fails_cleanly_iff _ m).trans ?_
    rw [StreamMap.mark_recv, with_recv_fails_cleanly_iff]
    simp only [RecvState.mark_recv_fails_cleanly_iff, FinPastWindow, not_and, not_exists]
    constructor
    · intro h hfin recv hrecv
      exact h recv hrecv hfin
    · intro h recv hrecv hfin
      exact h hfin recv hrecv
  | handle_reset stream_id final_size =>
    refine iff_of_true ?_ nofun
    exact (with_recv_fails_cleanly_iff _).mpr fun recv _ => recv.handle_reset_fails_cleanly final_size
  | mark_reset_sent stream_id =>
    exact iff_of_true (with_send_fails_cleanly fun send => send.mark_reset_sent_fails_cleanly) nofun
  | handle_stop_sending stream_id =>
    exact iff_of_true (with_send_fails_cleanly fun send => send.handle_stop_sending_fails_cleanly)
      nofun
  | get_or_create stream_id is_client initial_max_stream_data =>
    exact iff_of_true (StreamMap.get_or_create_fails_cleanly N is_client _) nofun

end FailsCleanly

/-- A table of one stream, opened by the server, with a window of 1000 bytes. -/
def one_stream : StreamMap := (StreamMap.get_or_create 4 1 true 1000 .new).2

/-- The FIN at 2000 is refused and stays: a later FIN inside the window conflicts with it. -/
theorem refused_fin_stays :
    ¬FailsCleanly (StreamCall.run 4 (.mark_recv 1 0 2000 true)) one_stream ∧
    (StreamCall.run 4 (.mark_recv 1 0 500 true)
      (StreamOp.apply 4 (.call (.mark_recv 1 0 2000 true)) one_stream)).1 =
        .error (.Transport .FinalSizeError) := by
  refine ⟨fun h => ?_, by decide⟩
  have hsame := h (.Transport .FlowControlError) (by decide)
  exact absurd hsame (by decide)

/-! ## Final sizes -/

/-- The final size of the data a stream receives, once a FIN or a reset fixed it. -/
def StreamState.final_size (s : StreamState) : Option Nat := s.recv.bind (·.fin_offset)

/-- A known final size is between what was received and the limit we advertise. -/
def RecvState.SizeInWindow (recv : RecvState) : Prop :=
  ∀ F ∈ recv.fin_offset, recv.offset ≤ F ∧ F ≤ recv.max_data

/-- The property holds of every stream in the table. -/
def AllStreams (P : StreamState → Prop) (m : StreamMap) : Prop := ∀ s, some s ∈ m.streams → P s

def SizesInWindow : StreamMap → Prop := AllStreams fun s => ∀ recv ∈ s.recv, recv.SizeInWindow

/-- The stream is the same one, and its final size has not changed. -/
def SizeKept (s s' : StreamState) : Prop := s'.id = s.id ∧ ∀ F ∈ s.final_size, F ∈ s'.final_size

instance : IsPreorder StreamState SizeKept where
  refl _ := ⟨rfl, fun _ h => h⟩
  trans _ _ _ h₁ h₂ := ⟨h₂.1.trans h₁.1, fun F h => h₂.2 F (h₁.2 F h)⟩

/-- Over the whole run every known final size is in its window, and stays what it is. -/
def FinalSizeLaw (N : Nat) (ops : List StreamOp) : Prop :=
  Throughout (StreamOp.apply N) SizesInWindow .new ops ∧
    ∀ pre post, pre ++ post = ops →
      slots.Carried SizeKept (final (StreamOp.apply N) .new pre).streams
        (final (StreamOp.apply N) .new ops).streams

/-- A first final size that the half takes is in its window. -/
def FixesInWindow (m : StreamMap) : StreamOp → Prop
  | .call (.mark_recv stream_id offset len true) => ∀ recv ∈ m.recv_half stream_id,
      (recv.state = .Recv ∨ recv.state = .SizeKnown) → recv.fin_offset = none →
        recv.offset ≤ offset + len ∧ offset + len ≤ recv.max_data
  | .call (.handle_reset stream_id final_size) => ∀ recv ∈ m.recv_half stream_id,
      (recv.state = .Recv ∨ recv.state = .SizeKnown ∨ recv.state = .DataRecvd) →
        recv.fin_offset = none → recv.offset ≤ final_size ∧ final_size ≤ recv.max_data
  -- Windows are set when a stream is opened, before any final size is known.
  | .set_stream_windows stream_id _ (some max) => ∀ recv ∈ m.recv_half stream_id,
      ∀ F ∈ recv.fin_offset, F ≤ max
  | _ => True

/-! ## What every operation keeps -/

section AllStreams

variable {P : StreamState → Prop} {m : StreamMap} {stream_id : Nat} {s s' : StreamState}

theorem get_mem (h : m.get stream_id = some s) : some s ∈ m.streams := slots.lookup_mem h

theorem all_put (hall : AllStreams P m) (h : m.get stream_id = some s) (hp : P s') :
    AllStreams P (m.put stream_id s') := by
  intro t ht
  rcases slots.mem_update h ht with heq | hmem
  · exact Option.some.inj heq ▸ hp
  · exact hall t hmem

theorem all_put_iff (hall : AllStreams P m) (h : m.get stream_id = some s) (hid : s'.id = s.id) :
    AllStreams P (m.put stream_id s') ↔ P s' := by
  constructor
  · intro hput
    exact hput s' (get_mem (get_put_self h (hid.trans (get_id h))))
  · exact all_put hall h

theorem all_with_recv {α : Type} {f : Method RecvState Error α} (hall : AllStreams P m)
    (hp : ∀ s recv, s.recv = some recv → P s → P { s with recv := some (f recv).2 }) :
    AllStreams P (with_recv stream_id f m).2 := by
  rcases with_recv_cases stream_id f m with h | ⟨s, recv, hget, hrecv, h⟩ <;> rw [h]
  · exact hall
  · exact all_put hall hget (hp s recv hrecv (hall s (get_mem hget)))

theorem all_with_send {α : Type} {f : Method SendState Error α} (hall : AllStreams P m)
    (hp : ∀ s send, s.send = some send → P s → P { s with send := some (f send).2 }) :
    AllStreams P (with_send stream_id f m).2 := by
  rcases with_send_cases stream_id f m with h | ⟨s, send, hget, hsend, h⟩ <;> rw [h]
  · exact hall
  · exact all_put hall hget (hp s send hsend (hall s (get_mem hget)))

theorem all_insert {N : Nat} {streams : List (Option StreamState)} (hall : AllStreams P m)
    (h : slots.insert N s m.streams = some streams) (hp : P s) :
    AllStreams P { m with streams } := by
  intro t ht
  rcases slots.mem_insert h ht with rfl | hmem
  · exact hp
  · exact hall t hmem

theorem all_open_bidi {N : Nat} {is_client : Bool} (hall : AllStreams P m)
    (hp : ∀ id, P (local_stream id true)) :
    AllStreams P (open_bidi N is_client m).2 := by
  unfold open_bidi
  dsimp only
  split
  · exact hall
  · rename_i hins
    exact all_insert hall hins (hp _)

theorem all_open_uni {N : Nat} {is_client : Bool} (hall : AllStreams P m)
    (hp : ∀ id, P (local_stream id false)) :
    AllStreams P (open_uni N is_client m).2 := by
  unfold open_uni
  dsimp only
  split
  · exact hall
  · rename_i hins
    exact all_insert hall hins (hp _)

theorem all_get_or_create {N : Nat} {is_client : Bool} {initial_max_stream_data : Nat}
    (hall : AllStreams P m) (hp : P (remote_stream stream_id initial_max_stream_data)) :
    AllStreams P (get_or_create N stream_id is_client initial_max_stream_data m).2 := by
  unfold get_or_create
  split
  · exact hall
  · split
    · exact hall
    · split
      · exact hall
      · rename_i hins
        dsimp only
        split <;> exact all_insert hall hins hp

end AllStreams
/-! ## Streams in use -/

/-- The next limit is not below the advertised one, and the half was not read to its end. -/
def RecvState.Sound (recv : RecvState) : Prop :=
  recv.max_data ≤ recv.max_data_next ∧ recv.state.is_terminal = false

/-- A stream whose halves are in no terminal state: nothing ever puts them in one. -/
structure Sound (s : StreamState) : Prop where
  recv : ∀ recv ∈ s.recv, recv.Sound
  send : ∀ send ∈ s.send, send.state.is_terminal = false
  half : s.send.isSome ∨ s.recv.isSome

variable {recv : RecvState}

theorem RecvState.Sound.advance (h : recv.Sound) (end_ : Nat) : (recv.advance end_).Sound := by
  obtain ⟨hnext, hstate⟩ := h
  refine ⟨?_, ?_⟩
  · simp only [RecvState.advance]
    split <;> split <;> omega
  · simp only [RecvState.advance]
    split
    · split <;> split <;> first | rfl | exact hstate
    · exact hstate

theorem RecvState.Sound.note_fin (h : recv.Sound) (end_ : Nat) (fin : Bool) :
    (recv.note_fin end_ fin).Sound := by
  unfold RecvState.note_fin
  split
  · exact ⟨h.1, rfl⟩
  · exact h

theorem RecvState.Sound.mark_recv (h : recv.Sound) (offset len : Nat)
    (fin : Bool) : (mark_recv offset len fin recv).2.Sound := by
  rcases RecvState.mark_recv_cases offset len fin recv with ⟨e, hrun⟩ | ⟨-, hrun⟩ | ⟨-, -, -, hrun⟩ <;>
    rw [hrun]
  · exact h
  · exact h.note_fin _ fin
  · exact (h.note_fin _ fin).advance _

theorem RecvState.Sound.handle_reset (h : recv.Sound) (final_size : Nat) :
    (handle_reset final_size recv).2.Sound := by
  unfold RecvState.handle_reset
  split
  case h_4 => exact h
  all_goals
    split
    · exact h
    · exact ⟨h.1, rfl⟩

/-- No method of a send half ends it. -/
theorem send_stays_open {send : SendState} (h : send.state.is_terminal = false) :
    (∀ len fin, (SendState.mark_send len fin send).2.state.is_terminal = false) ∧
    (SendState.mark_reset_sent send).2.state.is_terminal = false ∧
    (SendState.handle_stop_sending send).2.state.is_terminal = false ∧
    ∀ max_data, (SendState.handle_max_stream_data max_data send).2.state.is_terminal = false := by
  refine ⟨fun len fin => ?_, ?_, ?_, fun max_data => ?_⟩
  · unfold SendState.mark_send
    split
    · exact h
    · dsimp only
      split
      · exact h
      · cases fin <;> rfl
  · unfold SendState.mark_reset_sent
    split <;> first | exact h | rfl
  · unfold SendState.handle_stop_sending
    split <;> first | exact h | rfl
  · unfold SendState.handle_max_stream_data
    split <;> exact h

theorem sound_local_stream (id : Nat) (bidirectional : Bool) :
    Sound (local_stream id bidirectional) := by
  cases bidirectional <;>
    exact ⟨by simp [local_stream, RecvState.new, RecvState.Sound, RecvStreamState.is_terminal],
      by simp [local_stream, SendState.new, SendStreamState.is_terminal], .inl rfl⟩

theorem sound_remote_stream (id initial_max_stream_data : Nat) :
    Sound (remote_stream id initial_max_stream_data) := by
  refine ⟨?_, ?_, .inr rfl⟩
  · simp [remote_stream, RecvState.new, RecvState.Sound, RecvStreamState.is_terminal]
  · simp only [remote_stream]
    split <;> simp [SendState.new, SendStreamState.is_terminal]

section Sound

variable {m : StreamMap} {stream_id : Nat}

theorem sound_with_recv {α : Type} {f : Method RecvState Error α} (h : AllStreams Sound m)
    (hf : ∀ recv : RecvState, recv.Sound → (f recv).2.Sound) :
    AllStreams Sound (with_recv stream_id f m).2 := by
  refine all_with_recv h fun s recv hrecv hs => ⟨?_, hs.send, .inr rfl⟩
  simpa using hf recv (hs.recv recv hrecv)

theorem sound_with_send {α : Type} {f : Method SendState Error α} (h : AllStreams Sound m)
    (hf : ∀ send : SendState, send.state.is_terminal = false →
      (f send).2.state.is_terminal = false) :
    AllStreams Sound (with_send stream_id f m).2 := by
  refine all_with_send h fun s send hsend hs => ⟨hs.recv, ?_, .inl rfl⟩
  simpa using hf send (hs.send send hsend)

theorem sound_mark_max_stream_data_sent (h : AllStreams Sound m) :
    AllStreams Sound (m.mark_max_stream_data_sent stream_id) := by
  unfold mark_max_stream_data_sent
  split
  · rename_i s hget
    split
    · rename_i recv hrecv
      have hs := h s (get_mem hget)
      refine all_put h hget ⟨?_, hs.send, .inr rfl⟩
      simpa using ⟨Nat.le_refl recv.max_data_next, (hs.recv recv hrecv).2⟩
    · exact h
  · exact h

theorem sound_set_stream_windows (h : AllStreams Sound m) (send_max recv_max : Option Nat) :
    AllStreams Sound (m.set_stream_windows stream_id send_max recv_max) := by
  unfold set_stream_windows
  split
  · rename_i s hget
    obtain ⟨hrecv, hsend, hhalf⟩ := h s (get_mem hget)
    refine all_put h hget ⟨?_, ?_, ?_⟩
    · cases recv_max <;> cases hr : s.recv <;> simp_all [RecvState.Sound]
    · cases send_max <;> cases hs : s.send <;> simp_all
    · cases recv_max <;> cases send_max <;> cases hr : s.recv <;> cases hs : s.send <;> simp_all
  · exact h

/-- No stream is ever collected. -/
theorem gc_eq_self (h : AllStreams Sound m) : m.gc = m := by
  have hslot : ∀ slot ∈ m.streams, slot.filter (!stream_is_terminal ·) = id slot := by
    intro slot hslot
    cases slot with
    | none => rfl
    | some s =>
      obtain ⟨hrecv, hsend, hhalf⟩ := h s hslot
      have hlive : stream_is_terminal s = false := by
        unfold stream_is_terminal
        cases hs : s.send with
        | some send => simp [hsend send hs]
        | none =>
          cases hr : s.recv with
          | some recv => simp [(hrecv recv hr).2]
          | none => simp [hs, hr] at hhalf
      simp [hlive]
  have hslots := (List.map_congr_left hslot).trans (List.map_id m.streams)
  simp only [gc, hslots]

theorem apply_mark_recv (N id offset len : Nat) (fin : Bool) :
    StreamOp.apply N (.call (.mark_recv id offset len fin)) m =
      (mark_recv id offset len fin m).2 := by
  have hrun : StreamOp.apply N (.call (.mark_recv id offset len fin)) m =
      ((do let _ ← mark_recv id offset len fin; pure () : Method StreamMap Error Unit) m).2 :=
    rfl
  rw [hrun, Method.bind_run]
  rcases mark_recv id offset len fin m with ⟨_ | _, m'⟩ <;> rfl

/-- Every operation keeps the streams in use. -/
theorem sound_apply (N : Nat) (op : StreamOp) (h : AllStreams Sound m) :
    AllStreams Sound (op.apply N m) := by
  cases op with
  | call c =>
    cases c with
    | mark_recv id offset len fin =>
      rw [apply_mark_recv]
      exact sound_with_recv h fun recv hr => hr.mark_recv offset len fin
    | handle_reset id final_size => exact sound_with_recv h fun recv hr => hr.handle_reset final_size
    | mark_reset_sent id => exact sound_with_send h fun send hs => (send_stays_open hs).2.1
    | handle_stop_sending id => exact sound_with_send h fun send hs => (send_stays_open hs).2.2.1
    | get_or_create id is_client window => exact all_get_or_create h (sound_remote_stream id window)
  | open_bidi is_client => exact all_open_bidi h fun id => sound_local_stream id true
  | open_uni is_client => exact all_open_uni h fun id => sound_local_stream id false
  | mark_send id len fin => exact sound_with_send h fun send hs => (send_stays_open hs).1 len fin
  | mark_max_stream_data_sent id => exact sound_mark_max_stream_data_sent h
  | handle_max_stream_data id max_data =>
    exact sound_with_send h fun send hs => (send_stays_open hs).2.2.2 max_data
  | set_stream_windows id send_max recv_max => exact sound_set_stream_windows h send_max recv_max
  | gc =>
    rw [StreamOp.apply, gc_eq_self h]
    exact h

end Sound

/-! ## A known final size stays -/

/-- A known final size is not changed. -/
def RecvState.SizeKept (recv recv' : RecvState) : Prop :=
  ∀ F ∈ recv.fin_offset, F ∈ recv'.fin_offset

theorem RecvState.size_kept_mark_recv (offset len : Nat) (fin : Bool) (recv : RecvState) :
    recv.SizeKept (mark_recv offset len fin recv).2 := by
  intro F hF
  have hnote : recv.fin_conflict (offset + len) fin = false →
      F ∈ (recv.note_fin (offset + len) fin).fin_offset := by
    intro hconflict
    rw [Option.mem_def] at hF
    cases fin <;> simp_all [fin_conflict, note_fin]
  unfold mark_recv
  split
  · exact hF
  · dsimp only
    split
    · exact hF
    · rename_i hconflict
      split <;> exact hnote (by simpa using hconflict)

theorem RecvState.size_kept_handle_reset (final_size : Nat) (recv : RecvState) :
    recv.SizeKept (handle_reset final_size recv).2 := by
  intro F hF
  unfold handle_reset
  split
  case h_4 => exact hF
  all_goals
    split
    · exact hF
    · rename_i hsame
      rw [Option.mem_def] at hF
      simp [hF] at hsame
      exact congrArg some hsame.symm

section SizeKept

variable {m : StreamMap} {stream_id : Nat}

theorem carried_put {s s' : StreamState} (h : m.get stream_id = some s) (hkept : SizeKept s s') :
    slots.Carried SizeKept m.streams (m.put stream_id s').streams :=
  slots.carried_update h rfl hkept

theorem carried_with_recv {α : Type} {f : Method RecvState Error α}
    (hf : ∀ recv : RecvState, recv.SizeKept (f recv).2) :
    slots.Carried SizeKept m.streams (with_recv stream_id f m).2.streams := by
  rcases with_recv_cases stream_id f m with h | ⟨s, recv, hget, hrecv, h⟩ <;> rw [h]
  · exact refl _
  · refine carried_put hget ⟨rfl, fun F hF => ?_⟩
    simp only [StreamState.final_size, hrecv, Option.bind_some] at hF ⊢
    exact hf recv F hF

theorem carried_with_send {α : Type} {f : Method SendState Error α} :
    slots.Carried SizeKept m.streams (with_send stream_id f m).2.streams := by
  rcases with_send_cases stream_id f m with h | ⟨s, send, hget, hsend, h⟩ <;> rw [h]
  · exact refl _
  · exact carried_put hget ⟨rfl, fun F hF => hF⟩

/-- No operation changes a known final size. -/
theorem sizes_kept_apply (N : Nat) (op : StreamOp) (h : AllStreams Sound m) :
    slots.Carried SizeKept m.streams (op.apply N m).streams := by
  cases op with
  | call c =>
    cases c with
    | mark_recv id offset len fin =>
      rw [apply_mark_recv]
      exact carried_with_recv fun recv => recv.size_kept_mark_recv offset len fin
    | handle_reset id final_size =>
      exact carried_with_recv fun recv => recv.size_kept_handle_reset final_size
    | mark_reset_sent id => exact carried_with_send
    | handle_stop_sending id => exact carried_with_send
    | get_or_create id is_client window =>
      simp only [StreamOp.apply, StreamCall.run, get_or_create]
      split
      · exact refl _
      · split
        · exact refl _
        · split
          · exact refl _
          · rename_i hins
            split <;> exact slots.carried_insert hins
  | open_bidi is_client =>
    simp only [StreamOp.apply, open_bidi]
    split
    · exact refl _
    · rename_i hins
      exact slots.carried_insert hins
  | open_uni is_client =>
    simp only [StreamOp.apply, open_uni]
    split
    · exact refl _
    · rename_i hins
      exact slots.carried_insert hins
  | mark_send id len fin => exact carried_with_send
  | mark_max_stream_data_sent id =>
    simp only [StreamOp.apply, mark_max_stream_data_sent]
    split
    · rename_i hget
      split
      · rename_i recv hrecv
        exact carried_put hget ⟨rfl, by simp [StreamState.final_size, hrecv]⟩
      · exact refl _
    · exact refl _
  | handle_max_stream_data id max_data => exact carried_with_send
  | set_stream_windows id send_max recv_max =>
    simp only [StreamOp.apply, set_stream_windows]
    split
    · rename_i s hget
      refine carried_put hget ⟨rfl, fun F hF => ?_⟩
      cases recv_max <;> cases hr : s.recv <;> simp_all [StreamState.final_size]
    · exact refl _
  | gc =>
    rw [StreamOp.apply, gc_eq_self h]
    exact refl _

end SizeKept

/-! ## Final sizes and windows -/

theorem RecvState.size_in_window_iff {F : Nat} (h : recv.fin_offset = some F) :
    recv.SizeInWindow ↔ recv.offset ≤ F ∧ F ≤ recv.max_data := by
  simp [SizeInWindow, h]

theorem RecvState.size_in_window_of_none (h : recv.fin_offset = none) : recv.SizeInWindow := by
  simp [SizeInWindow, h]

/-- A frame leaves the final size in its window exactly if a final size it fixes is there. -/
theorem RecvState.size_in_window_mark_recv (h : recv.SizeInWindow) (offset len : Nat) (fin : Bool) :
    (mark_recv offset len fin recv).2.SizeInWindow ↔
      (fin = true → recv.state = .Recv ∨ recv.state = .SizeKnown → recv.fin_offset = none →
        recv.offset ≤ offset + len ∧ offset + len ≤ recv.max_data) := by
  unfold mark_recv
  by_cases hclosed : recv.state ≠ .Recv ∧ recv.state ≠ .SizeKnown
  · rw [if_pos hclosed]
    exact iff_of_true h fun _ hopen => absurd hclosed (not_and_or.mpr (by simpa using hopen))
  · have hopen : recv.state = .Recv ∨ recv.state = .SizeKnown := by
      by_contra hcontra
      exact hclosed (not_or.mp hcontra)
    rw [if_neg hclosed]
    dsimp only
    cases hknown : recv.fin_offset with
    | some F =>
      obtain ⟨hlo, hhi⟩ := h F hknown
      refine iff_of_true ?_ (by simp)
      split
      · exact h
      · rename_i hconflict
        -- The frame ends at or before the known size, and a FIN exactly there.
        simp only [fin_conflict, hknown, Bool.or_eq_true, decide_eq_true_eq, Bool.and_eq_true,
          bne_iff_ne, not_or, not_and, not_not] at hconflict
        have hnote : (recv.note_fin (offset + len) fin).fin_offset = some F := by
          cases fin with
          | false => exact hknown
          | true => exact congrArg some (hconflict.2 rfl)
        have hmax : (recv.note_fin (offset + len) fin).max_data = recv.max_data := by
          cases fin <;> rfl
        rw [if_neg (by omega)]
        have hadvance : ((recv.note_fin (offset + len) fin).advance (offset + len)).fin_offset =
            some F := hnote
        rw [size_in_window_iff hadvance, advance_offset, note_fin_offset]
        exact ⟨by omega, hmax.symm ▸ hhi⟩
    | none =>
      rw [if_neg (by simp [fin_conflict, hknown])]
      cases fin with
      | false =>
        refine iff_of_true ?_ (by simp)
        split <;> exact size_in_window_of_none hknown
      | true =>
        have hnote : (recv.note_fin (offset + len) true).fin_offset = some (offset + len) := rfl
        have hmax : (recv.note_fin (offset + len) true).max_data = recv.max_data := rfl
        simp only [hopen, forall_const]
        split
        · rw [size_in_window_iff hnote, note_fin_offset, hmax]
        · rw [size_in_window_iff (F := offset + len) (by exact hnote), advance_offset, note_fin_offset]
          have hmax' : ((recv.note_fin (offset + len) true).advance (offset + len)).max_data =
              recv.max_data := rfl
          rw [hmax']
          omega

theorem RecvState.size_in_window_handle_reset (h : recv.SizeInWindow) (final_size : Nat) :
    (handle_reset final_size recv).2.SizeInWindow ↔
      (recv.state = .Recv ∨ recv.state = .SizeKnown ∨ recv.state = .DataRecvd →
        recv.fin_offset = none → recv.offset ≤ final_size ∧ final_size ≤ recv.max_data) := by
  have hset : (handle_reset final_size recv).2 =
      if (recv.state = .Recv ∨ recv.state = .SizeKnown ∨ recv.state = .DataRecvd) ∧
          recv.fin_offset.any (· != final_size) = false then
        { recv with fin_offset := some final_size, state := .ResetRecvd }
      else recv := by
    unfold handle_reset
    cases hstate : recv.state <;> simp only [reduceCtorEq, true_or, or_true, or_self, false_and,
      if_false, true_and] <;> split <;> simp_all
  rw [hset]
  cases hknown : recv.fin_offset with
  | some F =>
    refine iff_of_true ?_ (by simp)
    split
    · rename_i htake
      have hF : F = final_size := by simpa [hknown] using htake.2
      exact (size_in_window_iff rfl).mpr (hF ▸ h F hknown)
    · exact h
  | none =>
    by_cases hopen : recv.state = .Recv ∨ recv.state = .SizeKnown ∨ recv.state = .DataRecvd
    · rw [if_pos ⟨hopen, by simp⟩]
      simp only [hopen, forall_const]
      exact size_in_window_iff rfl
    · rw [if_neg (fun htake => hopen htake.1)]
      exact iff_of_true h fun h' => absurd h' hopen

section SizesInWindow

variable {m : StreamMap} {stream_id : Nat}

theorem sizes_put_iff {s s' : StreamState} (h : SizesInWindow m) (hget : m.get stream_id = some s)
    (hid : s'.id = s.id) :
    SizesInWindow (m.put stream_id s') ↔ ∀ recv ∈ s'.recv, recv.SizeInWindow :=
  all_put_iff h hget hid

theorem sizes_with_recv_iff {α : Type} {f : Method RecvState Error α} (h : SizesInWindow m) :
    SizesInWindow (with_recv stream_id f m).2 ↔
      ∀ recv ∈ m.recv_half stream_id, (f recv).2.SizeInWindow := by
  rcases with_recv_cases stream_id f m with hrun | ⟨s, recv, hget, hrecv, hrun⟩
  · refine iff_of_true (by rw [hrun]; exact h) fun recv hrecv => ?_
    -- No half was found.
    have hself : (with_recv stream_id f m).2 = m := by rw [hrun]
    have hsame := (with_recv_eq_self_iff f).mp hself recv hrecv
    obtain ⟨s, hget, hs⟩ := Option.bind_eq_some_iff.mp hrecv
    exact hsame.symm ▸ h s (get_mem hget) recv hs
  · rw [hrun, sizes_put_iff h hget (by rfl)]
    simp [recv_half, hget, hrecv]

theorem sizes_with_send {α : Type} {f : Method SendState Error α} (h : SizesInWindow m) :
    SizesInWindow (with_send stream_id f m).2 :=
  all_with_send h fun _ _ _ hs => hs

theorem sizes_local_stream (id : Nat) (bidirectional : Bool) :
    ∀ recv ∈ (local_stream id bidirectional).recv, recv.SizeInWindow := by
  cases bidirectional <;> simp [local_stream, RecvState.new, RecvState.SizeInWindow]

theorem sizes_remote_stream (id initial_max_stream_data : Nat) :
    ∀ recv ∈ (remote_stream id initial_max_stream_data).recv, recv.SizeInWindow := by
  simp [remote_stream, RecvState.new, RecvState.SizeInWindow]

/-- From a table with its final sizes in their windows, an operation leads to another one
exactly if a final size it fixes is in its window. -/
theorem sizes_in_window_apply_iff (N : Nat) (op : StreamOp) (hsound : AllStreams Sound m)
    (h : SizesInWindow m) : SizesInWindow (op.apply N m) ↔ FixesInWindow m op := by
  cases op with
  | call c =>
    cases c with
    | mark_recv id offset len fin =>
      rw [apply_mark_recv, mark_recv, sizes_with_recv_iff h]
      have hhalf : ∀ recv ∈ m.recv_half id, recv.SizeInWindow := by
        intro recv hrecv
        obtain ⟨s, hget, hs⟩ := Option.bind_eq_some_iff.mp hrecv
        exact h s (get_mem hget) recv hs
      cases fin with
      | false =>
        refine iff_of_true (fun recv hrecv => ?_) trivial
        exact (RecvState.size_in_window_mark_recv (hhalf recv hrecv) offset len false).mpr nofun
      | true =>
        simp only [FixesInWindow]
        refine forall₂_congr fun recv hrecv => ?_
        simp [RecvState.size_in_window_mark_recv (hhalf recv hrecv)]
    | handle_reset id final_size =>
      simp only [StreamOp.apply, StreamCall.run, handle_reset, sizes_with_recv_iff h, FixesInWindow]
      refine forall₂_congr fun recv hrecv => ?_
      obtain ⟨s, hget, hs⟩ := Option.bind_eq_some_iff.mp hrecv
      exact RecvState.size_in_window_handle_reset (h s (get_mem hget) recv hs) final_size
    | mark_reset_sent id => exact iff_of_true (sizes_with_send h) trivial
    | handle_stop_sending id => exact iff_of_true (sizes_with_send h) trivial
    | get_or_create id is_client window =>
      exact iff_of_true (all_get_or_create h (sizes_remote_stream id window)) trivial
  | open_bidi is_client =>
    exact iff_of_true (all_open_bidi h fun id => sizes_local_stream id true) trivial
  | open_uni is_client =>
    exact iff_of_true (all_open_uni h fun id => sizes_local_stream id false) trivial
  | mark_send id len fin => exact iff_of_true (sizes_with_send h) trivial
  | mark_max_stream_data_sent id =>
    refine iff_of_true ?_ trivial
    simp only [StreamOp.apply, mark_max_stream_data_sent]
    split
    · rename_i s hget
      split
      · rename_i recv hrecv
        have hnext := ((hsound s (get_mem hget)).recv recv hrecv).1
        have hsize := h s (get_mem hget) recv hrecv
        refine (sizes_put_iff h hget (by rfl)).mpr ?_
        simp only [Option.mem_def, Option.some.injEq, forall_eq']
        intro F hF
        exact ⟨(hsize F hF).1, Nat.le_trans (hsize F hF).2 hnext⟩
      · exact h
    · exact h
  | handle_max_stream_data id max_data => exact iff_of_true (sizes_with_send h) trivial
  | set_stream_windows id send_max recv_max =>
    simp only [StreamOp.apply, set_stream_windows]
    split
    · rename_i s hget
      have hsize := h s (get_mem hget)
      rw [sizes_put_iff h hget (by rfl)]
      cases recv_max with
      | none =>
        refine iff_of_true (fun recv hrecv => hsize recv ?_) trivial
        cases hr : s.recv with
        | none => simp [hr] at hrecv
        | some _ => simpa [hr] using hrecv
      | some max =>
        simp only [FixesInWindow, recv_half, hget, Option.bind_some]
        cases hr : s.recv with
        | none => simp
        | some recv =>
          simp only [Option.mem_def, Option.some.injEq, forall_eq']
          constructor
          · exact fun hnew F hF => (hnew F hF).2
          · exact fun hmax F hF => ⟨(hsize recv hr F hF).1, hmax F hF⟩
    · rename_i hget
      refine iff_of_true h ?_
      cases recv_max <;> simp [FixesInWindow, recv_half, hget]
  | gc =>
    rw [StreamOp.apply, gc_eq_self hsound]
    exact iff_of_true h trivial

end SizesInWindow

/-- A known final size never changes; over a whole run every one is in its window exactly if
each was when it was fixed. -/
theorem final_sizes_hold_iff (N : Nat) (ops : List StreamOp) :
    FinalSizeLaw N ops ↔ Along (StreamOp.apply N) FixesInWindow .new ops := by
  have hstart : AllStreams Sound .new := fun s hs => by cases hs
  have hwindow : SizesInWindow .new := fun s hs => by cases hs
  have hsound : ∀ pre, AllStreams Sound (final (StreamOp.apply N) .new pre) := fun pre =>
    run.invariant (fun m op _ h => sound_apply N op h)
      (show Along (StreamOp.apply N) (fun _ _ => True) .new pre from fun _ _ => trivial) hstart
  have hkept : ∀ pre post, pre ++ post = ops →
      slots.Carried SizeKept (final (StreamOp.apply N) .new pre).streams
        (final (StreamOp.apply N) .new ops).streams := by
    rintro pre post rfl
    rw [final_append]
    have hrun := hsound pre
    generalize final (StreamOp.apply N) .new pre = m at hrun
    induction post generalizing m with
    | nil => exact refl _
    | cons op post ih =>
      exact IsTrans.trans _ _ _ (sizes_kept_apply N op hrun) (ih _ (sound_apply N op hrun))
  refine ((and_iff_left hkept).trans ?_)
  exact run.throughout_iff_along (fun m op h => sound_apply N op h)
    (fun m op hs h => sizes_in_window_apply_iff N op hs h) hstart hwindow

/-- A FIN behind data already received. -/
theorem fin_behind_the_data : ¬FinalSizeLaw 4
    [.call (.get_or_create 1 true 1000), .call (.mark_recv 1 0 100 false),
      .call (.mark_recv 1 0 50 true)] := by
  intro h
  have hlast := h.1 _ (List.prefix_refl _)
  have hrecv := hlast
    { id := 1
      send := some (.new 1000)
      recv := some
        { state := .DataRecvd, offset := 100, max_data := 1000, max_data_next := 1000,
          initial_window := 1000, fin_offset := some 50 } }
    (by decide)
  exact absurd (hrecv _ rfl 50 rfl).1 (by decide)

end milli_http.transport
