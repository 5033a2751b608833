-- The stream table (transport/stream.rs): the state of every stream's two halves, and
-- what opening, sending, receiving, resetting and window updates do to them.
import MilliHttp.Lib.Method
import MilliHttp.Lib.Slots
import MilliHttp.Error

open method

namespace milli_http.transport

/-! ## Stream ids -/

def is_client_initiated (stream_id : Nat) : Bool := stream_id % 2 == 0

def is_server_initiated (stream_id : Nat) : Bool := stream_id % 2 == 1

def is_bidirectional (stream_id : Nat) : Bool := stream_id / 2 % 2 == 0

/-- The four kinds of stream, by the low two bits of the id. -/
inductive StreamType where
  | ClientBidi
  | ServerBidi
  | ClientUni
  | ServerUni
  deriving DecidableEq, Repr

def StreamType.code : StreamType → Nat
  | ClientBidi => 0
  | ServerBidi => 1
  | ClientUni => 2
  | ServerUni => 3

/-- The id of the nth stream of a kind. -/
def StreamType.stream_id (ty : StreamType) (n : Nat) : Nat := n * 4 + ty.code

/-! ## The two halves of a stream -/

inductive SendStreamState where
  | Ready
  | Send
  | DataSent
  | ResetSent
  | DataRecvd
  | ResetRecvd
  deriving DecidableEq, Repr

inductive RecvStreamState where
  | Recv
  | SizeKnown
  | DataRecvd
  | ResetRecvd
  | DataRead
  | ResetRead
  deriving DecidableEq, Repr

structure SendState where
  state : SendStreamState
  offset : Nat
  acked : Nat
  fin_sent : Bool
  max_data : Nat
  blocked : Bool
  deriving DecidableEq, Repr

def SendState.new (max_data : Nat) : SendState where
  state := .Ready
  offset := 0
  acked := 0
  fin_sent := false
  max_data := max_data
  blocked := false

structure RecvState where
  state : RecvStreamState
  offset : Nat
  max_data : Nat
  max_data_next : Nat
  initial_window : Nat
  fin_offset : Option Nat
  deriving DecidableEq, Repr

def RecvState.new (max_data : Nat) : RecvState where
  state := .Recv
  offset := 0
  max_data := max_data
  max_data_next := max_data
  initial_window := max_data
  fin_offset := none

structure StreamState where
  id : Nat
  send : Option SendState
  recv : Option RecvState
  deriving DecidableEq, Repr

/-- Records data we want to send. -/
def SendState.mark_send (len : Nat) (fin : Bool) : Method SendState Error Unit := fun send =>
  if send.state ≠ .Ready ∧ send.state ≠ .Send then (.error (.Transport .StreamStateError), send)
  else
    let new_offset := send.offset + len
    if new_offset > send.max_data then
      (.error (.Transport .FlowControlError), { send with blocked := true })
    else
      (.ok (), { send with
        offset := new_offset
        fin_sent := if fin then true else send.fin_sent
        state := if fin then .DataSent else .Send })

/-- Checks a frame against a final size already known. -/
def RecvState.fin_conflict (recv : RecvState) (end_ : Nat) (fin : Bool) : Bool :=
  match recv.fin_offset with
  | some fin_off => end_ > fin_off || (fin && end_ != fin_off)
  | none => false

/-- A FIN fixes the final size, before the flow-control check that may still refuse the
frame. -/
def RecvState.note_fin (recv : RecvState) (end_ : Nat) (fin : Bool) : RecvState :=
  if fin then { recv with fin_offset := some end_, state := .SizeKnown } else recv

/-- Moves the largest received offset to `end_`, notes that all data is in, and raises the
next limit when less than half a window is left. -/
def RecvState.advance (recv : RecvState) (end_ : Nat) : RecvState :=
  let offset := if end_ > recv.offset then end_ else recv.offset
  let state := match recv.fin_offset with
    | some fin_off => if offset ≥ fin_off then .DataRecvd else recv.state
    | none => recv.state
  let remaining := recv.max_data - offset
  { recv with
    offset
    state
    max_data_next :=
      if remaining < recv.initial_window / 2 then offset + recv.initial_window
      else recv.max_data_next }

/-- Records received data. Returns the increase of the largest received offset. -/
def RecvState.mark_recv (offset len : Nat) (fin : Bool) : Method RecvState Error Nat := fun recv =>
  if recv.state ≠ .Recv ∧ recv.state ≠ .SizeKnown then
    (.error (.Transport .StreamStateError), recv)
  else
    let end_ := offset + len
    if recv.fin_conflict end_ fin then (.error (.Transport .FinalSizeError), recv)
    else
      let recv := recv.note_fin end_ fin
      if end_ > recv.max_data then (.error (.Transport .FlowControlError), recv)
      else (.ok (end_ - recv.offset), recv.advance end_)

@[simp] theorem RecvState.note_fin_offset (recv : RecvState) (end_ : Nat) (fin : Bool) :
    (recv.note_fin end_ fin).offset = recv.offset := by
  unfold note_fin
  split <;> rfl

@[simp] theorem RecvState.advance_offset (recv : RecvState) (end_ : Nat) :
    (recv.advance end_).offset = max recv.offset end_ := by
  simp only [advance]
  split <;> omega

/-- Data is refused before anything is written, or by the flow-control check after the final
size was, or it is taken. -/
theorem RecvState.mark_recv_cases (offset len : Nat) (fin : Bool) (recv : RecvState) :
    (∃ e, mark_recv offset len fin recv = (.error e, recv)) ∨
    ((recv.note_fin (offset + len) fin).max_data < offset + len ∧
      mark_recv offset len fin recv =
        (.error (.Transport .FlowControlError), recv.note_fin (offset + len) fin)) ∨
    ((recv.state = .Recv ∨ recv.state = .SizeKnown) ∧
      recv.fin_conflict (offset + len) fin = false ∧
      offset + len ≤ (recv.note_fin (offset + len) fin).max_data ∧
      mark_recv offset len fin recv =
        (.ok (offset + len - recv.offset), (recv.note_fin (offset + len) fin).advance (offset + len))) := by
  unfold mark_recv
  by_cases hstate : recv.state ≠ .Recv ∧ recv.state ≠ .SizeKnown
  · exact .inl ⟨_, if_pos hstate⟩
  · rw [if_neg hstate]
    dsimp only
    by_cases hconflict : recv.fin_conflict (offset + len) fin = true
    · exact .inl ⟨_, if_pos hconflict⟩
    · rw [if_neg hconflict]
      right
      by_cases hmax : offset + len > (recv.note_fin (offset + len) fin).max_data
      · exact .inl ⟨hmax, if_pos hmax⟩
      · rw [if_neg hmax, RecvState.note_fin_offset]
        refine .inr ⟨?_, by simpa using hconflict, by omega, rfl⟩
        by_contra hcontra
        exact hstate (not_or.mp hcontra)

/-- We send RESET_STREAM. -/
def SendState.mark_reset_sent : Method SendState Error Unit := fun send =>
  match send.state with
  | .Ready | .Send | .DataSent => (.ok (), { send with state := .ResetSent })
  | _ => (.error (.Transport .StreamStateError), send)

/-- The peer sent RESET_STREAM. -/
def RecvState.handle_reset (final_size : Nat) : Method RecvState Error Unit := fun recv =>
  match recv.state with
  | .Recv | .SizeKnown | .DataRecvd =>
    if recv.fin_offset.any (· != final_size) then (.error (.Transport .FinalSizeError), recv)
    else (.ok (), { recv with fin_offset := some final_size, state := .ResetRecvd })
  | _ => (.error (.Transport .StreamStateError), recv)

/-- The peer sent STOP_SENDING. -/
def SendState.handle_stop_sending : Method SendState Error Unit := fun send =>
  match send.state with
  | .Ready | .Send | .DataSent => (.ok (), { send with state := .ResetSent })
  | .ResetSent => (.ok (), send)
  | _ => (.error (.Transport .StreamStateError), send)

/-- The peer sent MAX_STREAM_DATA. -/
def SendState.handle_max_stream_data (max_data : Nat) : Method SendState Error Unit := fun send =>
  if max_data > send.max_data then (.ok (), { send with max_data, blocked := false })
  else (.ok (), send)

/-! ## The table -/

structure StreamMap where
  streams : List (Option StreamState)
  next_bidi_local : Nat
  next_uni_local : Nat
  max_bidi_remote : Nat
  max_uni_remote : Nat
  deriving DecidableEq, Repr

/-- Placeholder limit of a locally opened stream. -/
def DEFAULT_INITIAL_MAX_STREAM_DATA : Nat := 65536

namespace StreamMap

def new : StreamMap where
  streams := []
  next_bidi_local := 0
  next_uni_local := 0
  max_bidi_remote := 0
  max_uni_remote := 0

/-- The stream with an id. -/
def get (m : StreamMap) (stream_id : Nat) : Option StreamState :=
  slots.lookup StreamState.id stream_id m.streams

/-- Writes back the stream with an id. -/
def put (m : StreamMap) (stream_id : Nat) (s : StreamState) : StreamMap :=
  { m with streams := slots.update StreamState.id stream_id (fun _ => some s) m.streams }

/-- A fresh locally opened stream. A unidirectional one has no receive half. -/
def local_stream (stream_id : Nat) (bidirectional : Bool) : StreamState where
  id := stream_id
  send := some (.new DEFAULT_INITIAL_MAX_STREAM_DATA)
  recv := if bidirectional then some (.new DEFAULT_INITIAL_MAX_STREAM_DATA) else none

/-- Opens a new locally initiated bidirectional stream. `N` is the table's capacity. -/
def open_bidi (N : Nat) (is_client : Bool) : Method StreamMap Error Nat := fun m =>
  let stype := if is_client then StreamType.ClientBidi else .ServerBidi
  let stream_id := stype.stream_id m.next_bidi_local
  match slots.insert N (local_stream stream_id true) m.streams with
  | none => (.error .StreamLimitExhausted, m)
  | some streams =>
    (.ok stream_id, { m with streams, next_bidi_local := m.next_bidi_local + 1 })

/-- Opens a new locally initiated unidirectional stream. -/
def open_uni (N : Nat) (is_client : Bool) : Method StreamMap Error Nat := fun m =>
  let stype := if is_client then StreamType.ClientUni else .ServerUni
  let stream_id := stype.stream_id m.next_uni_local
  match slots.insert N (local_stream stream_id false) m.streams with
  | none => (.error .StreamLimitExhausted, m)
  | some streams => (.ok stream_id, { m with streams, next_uni_local := m.next_uni_local + 1 })

/-- Whether the peer is the one that opens streams with this id. -/
def peer_initiated (is_client : Bool) (stream_id : Nat) : Bool :=
  if is_client then is_server_initiated stream_id else is_client_initiated stream_id

/-- A fresh peer-initiated stream. A unidirectional one has no send half. -/
def remote_stream (stream_id initial_max_stream_data : Nat) : StreamState where
  id := stream_id
  send := if is_bidirectional stream_id then some (.new initial_max_stream_data) else none
  recv := some (.new initial_max_stream_data)

/-- Gets or creates the stream incoming data is for. -/
def get_or_create (N stream_id : Nat) (is_client : Bool) (initial_max_stream_data : Nat) :
    Method StreamMap Error Unit := fun m =>
  if !peer_initiated is_client stream_id then (.error (.Transport .StreamStateError), m)
  else if (m.get stream_id).isSome then (.ok (), m)
  else
    match slots.insert N (remote_stream stream_id initial_max_stream_data) m.streams with
    | none => (.error .StreamLimitExhausted, m)
    | some streams =>
      let seq := stream_id / 4
      if is_bidirectional stream_id then
        (.ok (), { m with streams, max_bidi_remote := max m.max_bidi_remote (seq + 1) })
      else (.ok (), { m with streams, max_uni_remote := max m.max_uni_remote (seq + 1) })

/-- Runs a method of a stream's send half. -/
def with_send {α : Type} (stream_id : Nat) (f : Method SendState Error α) :
    Method StreamMap Error α := fun m =>
  match m.get stream_id with
  | none => (.error .InvalidState, m)
  | some s =>
    match s.send with
    | none => (.error .InvalidState, m)
    | some send => ((f send).1, m.put stream_id { s with send := some (f send).2 })

/-- Runs a method of a stream's receive half. -/
def with_recv {α : Type} (stream_id : Nat) (f : Method RecvState Error α) :
    Method StreamMap Error α := fun m =>
  match m.get stream_id with
  | none => (.error .InvalidState, m)
  | some s =>
    match s.recv with
    | none => (.error .InvalidState, m)
    | some recv => ((f recv).1, m.put stream_id { s with recv := some (f recv).2 })

def mark_send (stream_id len : Nat) (fin : Bool) : Method StreamMap Error Unit :=
  with_send stream_id (SendState.mark_send len fin)

def mark_recv (stream_id offset len : Nat) (fin : Bool) : Method StreamMap Error Nat :=
  with_recv stream_id (RecvState.mark_recv offset len fin)

def mark_reset_sent (stream_id : Nat) : Method StreamMap Error Unit :=
  with_send stream_id SendState.mark_reset_sent

def handle_reset (stream_id final_size : Nat) : Method StreamMap Error Unit :=
  with_recv stream_id (RecvState.handle_reset final_size)

def handle_stop_sending (stream_id : Nat) : Method StreamMap Error Unit :=
  with_send stream_id SendState.handle_stop_sending

def handle_max_stream_data (stream_id max_data : Nat) : Method StreamMap Error Unit :=
  with_send stream_id (SendState.handle_max_stream_data max_data)

/-- The first receive stream whose next limit is above the advertised one. -/
def should_send_max_stream_data (m : StreamMap) : Option (Nat × Nat) :=
  m.streams.findSome? fun slot =>
    match slot with
    | some s =>
      match s.recv with
      | some recv => if recv.max_data_next > recv.max_data then some (s.id, recv.max_data_next) else none
      | none => none
    | none => none

/-- Commits an emitted MAX_STREAM_DATA advertisement. -/
def mark_max_stream_data_sent (m : StreamMap) (stream_id : Nat) : StreamMap :=
  match m.get stream_id with
  | some s =>
    match s.recv with
    | some recv =>
      m.put stream_id { s with recv := some { recv with max_data := recv.max_data_next } }
    | none => m
  | none => m

/-- Sets the windows of a freshly opened stream. `none` leaves a window as it is. -/
def set_stream_windows (m : StreamMap) (stream_id : Nat) (send_max recv_max : Option Nat) :
    StreamMap :=
  match m.get stream_id with
  | some s =>
    m.put stream_id { s with
      send := match send_max, s.send with
        | some max, some send => some { send with max_data := max }
        | _, send => send
      recv := match recv_max, s.recv with
        | some max, some recv =>
          some { recv with max_data := max, max_data_next := max, initial_window := max }
        | _, recv => recv }
  | none => m

/-! ## Looking up and writing back -/

variable {m : StreamMap} {stream_id j : Nat} {s s' : StreamState} {α : Type}

theorem get_id (h : m.get stream_id = some s) : s.id = stream_id := slots.lookup_key h

theorem get_put_self (h : m.get stream_id = some s) (hid : s'.id = stream_id) :
    (m.put stream_id s').get stream_id = some s' :=
  slots.lookup_update_self h rfl hid

theorem get_put_ne (hj : j ≠ stream_id) (hid : s'.id = stream_id) :
    (m.put stream_id s').get j = m.get j :=
  slots.lookup_update_ne hj fun _ _ _ h => (Option.some.inj h) ▸ hid

/-- A method of a receive half runs on the half that is there, or finds none. -/
theorem with_recv_cases (stream_id : Nat) (f : Method RecvState Error α) (m : StreamMap) :
    with_recv stream_id f m = (.error .InvalidState, m) ∨
    ∃ s recv, m.get stream_id = some s ∧ s.recv = some recv ∧
      with_recv stream_id f m = ((f recv).1, m.put stream_id { s with recv := some (f recv).2 }) := by
  unfold with_recv
  cases hget : m.get stream_id with
  | none => exact .inl rfl
  | some s =>
    cases hrecv : s.recv with
    | none => exact .inl (by simp [hrecv])
    | some recv => exact .inr ⟨s, recv, rfl, hrecv, by simp [hrecv]⟩

/-- A method of a send half runs on the half that is there, or finds none. -/
theorem with_send_cases (stream_id : Nat) (f : Method SendState Error α) (m : StreamMap) :
    with_send stream_id f m = (.error .InvalidState, m) ∨
    ∃ s send, m.get stream_id = some s ∧ s.send = some send ∧
      with_send stream_id f m = ((f send).1, m.put stream_id { s with send := some (f send).2 }) := by
  unfold with_send
  cases hget : m.get stream_id with
  | none => exact .inl rfl
  | some s =>
    cases hsend : s.send with
    | none => exact .inl (by simp [hsend])
    | some send => exact .inr ⟨s, send, rfl, hsend, by simp [hsend]⟩

/-! ## What changes nothing -/

theorem put_eq_self_iff (h : m.get stream_id = some s) (hid : s'.id = s.id) :
    m.put stream_id s' = m ↔ s' = s := by
  constructor
  · intro heq
    have hget := get_put_self h (hid.trans (get_id h))
    rw [heq, h] at hget
    exact (Option.some.inj hget).symm
  · rintro rfl
    have hupdate := slots.update_self (f := fun _ => some s') h rfl
    simp only [put, hupdate]

theorem with_recv_eq_self_iff (f : Method RecvState Error α) :
    (with_recv stream_id f m).2 = m ↔
      ∀ recv ∈ (m.get stream_id).bind (·.recv), (f recv).2 = recv := by
  unfold with_recv
  cases hget : m.get stream_id with
  | none => simp
  | some s =>
    cases hrecv : s.recv with
    | none => simp [hrecv]
    | some recv =>
      simp only [Option.bind_some, hrecv, Option.mem_def, Option.some.injEq, forall_eq']
      rw [put_eq_self_iff hget (by rfl)]
      constructor
      · intro heq
        exact Option.some.inj ((congrArg StreamState.recv heq).trans hrecv)
      · intro heq
        rw [heq, ← hrecv]

theorem with_send_eq_self_iff (f : Method SendState Error α) :
    (with_send stream_id f m).2 = m ↔
      ∀ send ∈ (m.get stream_id).bind (·.send), (f send).2 = send := by
  unfold with_send
  cases hget : m.get stream_id with
  | none => simp
  | some s =>
    cases hsend : s.send with
    | none => simp [hsend]
    | some send =>
      simp only [Option.bind_some, hsend, Option.mem_def, Option.some.injEq, forall_eq']
      rw [put_eq_self_iff hget (by rfl)]
      constructor
      · intro heq
        exact Option.some.inj ((congrArg StreamState.send heq).trans hsend)
      · intro heq
        rw [heq, ← hsend]

/-! ## Sums over the streams -/

/-- The sum of a measure over all streams. -/
def total (g : StreamState → Nat) (m : StreamMap) : Nat := slots.total g m.streams

variable {g : StreamState → Nat}

/-- Writing back a stream moves the sum by what its own term moves. -/
theorem total_put (h : m.get stream_id = some s) :
    (m.put stream_id s').total g + g s = m.total g + g s' :=
  slots.total_update h rfl

theorem total_put_eq (h : m.get stream_id = some s) (hg : g s' = g s) :
    (m.put stream_id s').total g = m.total g := by
  have hput : (m.put stream_id s').total g + g s = m.total g + g s' := total_put h
  omega

theorem total_open_bidi {N : Nat} {is_client : Bool} (hg : ∀ id, g (local_stream id true) = 0) :
    (open_bidi N is_client m).2.total g = m.total g := by
  unfold open_bidi
  dsimp only
  split
  · rfl
  · rename_i h
    have htotal := slots.total_insert (g := g) h
    rwa [hg, Nat.zero_add] at htotal

theorem total_open_uni {N : Nat} {is_client : Bool} (hg : ∀ id, g (local_stream id false) = 0) :
    (open_uni N is_client m).2.total g = m.total g := by
  unfold open_uni
  dsimp only
  split
  · rfl
  · rename_i h
    have htotal := slots.total_insert (g := g) h
    rwa [hg, Nat.zero_add] at htotal

theorem total_get_or_create {N : Nat} {is_client : Bool} {initial_max_stream_data : Nat}
    (hg : g (remote_stream stream_id initial_max_stream_data) = 0) :
    (get_or_create N stream_id is_client initial_max_stream_data m).2.total g = m.total g := by
  unfold get_or_create
  split
  · rfl
  · split
    · rfl
    · split
      · rfl
      · rename_i h
        have htotal := slots.total_insert (g := g) h
        rw [hg, Nat.zero_add] at htotal
        split <;> exact htotal

/-- A method that leaves the measure of its half alone leaves the sum alone. -/
theorem total_with_send {f : Method SendState Error α}
    (hg : ∀ s send, s.send = some send → g { s with send := some (f send).2 } = g s) :
    (with_send stream_id f m).2.total g = m.total g := by
  rcases with_send_cases stream_id f m with h | ⟨s, send, hget, hsend, h⟩ <;> rw [h]
  exact total_put_eq hget (hg _ _ hsend)

theorem total_with_recv {f : Method RecvState Error α}
    (hg : ∀ s recv, s.recv = some recv → g { s with recv := some (f recv).2 } = g s) :
    (with_recv stream_id f m).2.total g = m.total g := by
  rcases with_recv_cases stream_id f m with h | ⟨s, recv, hget, hrecv, h⟩ <;> rw [h]
  exact total_put_eq hget (hg _ _ hrecv)

theorem total_mark_max_stream_data_sent
    (hg : ∀ s recv, s.recv = some recv →
      g { s with recv := some { recv with max_data := recv.max_data_next } } = g s) :
    (m.mark_max_stream_data_sent stream_id).total g = m.total g := by
  unfold mark_max_stream_data_sent
  split
  · rename_i hget
    split
    · rename_i hrecv
      exact total_put_eq hget (hg _ _ hrecv)
    · rfl
  · rfl

/-! ## How the table evolves -/

/-- The ids of streams we open. -/
def local_bidi (is_client : Bool) (n : Nat) : Nat :=
  (if is_client then StreamType.ClientBidi else .ServerBidi).stream_id n

def local_uni (is_client : Bool) (n : Nat) : Nat :=
  (if is_client then StreamType.ClientUni else .ServerUni).stream_id n

/-- The ids not yet given out are not in the table. -/
structure FreshIds (is_client : Bool) (m : StreamMap) : Prop where
  bidi : ∀ n, m.next_bidi_local ≤ n → m.get (local_bidi is_client n) = none
  uni : ∀ n, m.next_uni_local ≤ n → m.get (local_uni is_client n) = none

/-- Every stream stays in the table and moves only as `E` allows. -/
def Evolves (is_client : Bool) (E : StreamState → StreamState → Prop) (m m' : StreamMap) : Prop :=
  FreshIds is_client m →
    FreshIds is_client m' ∧
      ∀ j s, m.get j = some s → ∃ s', m'.get j = some s' ∧ E s s'

section Evolves

variable {is_client : Bool} {E : StreamState → StreamState → Prop} [IsPreorder StreamState E]

instance : IsPreorder StreamMap (Evolves is_client E) where
  refl m h := ⟨h, fun _ s hs => ⟨s, hs, refl s⟩⟩
  trans m₁ m₂ m₃ h₁₂ h₂₃ h₁ := by
    obtain ⟨h₂, hget₂⟩ := h₁₂ h₁
    obtain ⟨h₃, hget₃⟩ := h₂₃ h₂
    refine ⟨h₃, fun j s hs => ?_⟩
    obtain ⟨s₂, hs₂, he₂⟩ := hget₂ j s hs
    obtain ⟨s₃, hs₃, he₃⟩ := hget₃ j s₂ hs₂
    exact ⟨s₃, hs₃, IsTrans.trans _ _ _ he₂ he₃⟩

theorem evolves_put {stream_id : Nat}
    (h : m.get stream_id = some s) (hid : s'.id = s.id) (he : E s s') :
    Evolves is_client E m (m.put stream_id s') := by
  have hid' : s'.id = stream_id := hid.trans (get_id h)
  have hnone : ∀ j, m.get j = none → (m.put stream_id s').get j = none := by
    intro j hj
    have hne : j ≠ stream_id := by
      rintro rfl
      rw [h] at hj
      cases hj
    rwa [get_put_ne hne hid']
  intro hfresh
  refine ⟨⟨fun n hn => hnone _ (hfresh.bidi n hn), fun n hn => hnone _ (hfresh.uni n hn)⟩, ?_⟩
  intro j t ht
  by_cases hj : j = stream_id
  · subst hj
    rw [h] at ht
    cases ht
    exact ⟨s', get_put_self h hid', he⟩
  · exact ⟨t, by rwa [get_put_ne hj hid'], refl t⟩

theorem evolves_with_recv {stream_id : Nat} {f : Method RecvState Error α}
    (he : ∀ s recv, s.recv = some recv → E s { s with recv := some (f recv).2 }) :
    Method.Keeps (Evolves is_client E) (with_recv stream_id f) := by
  intro m
  rcases with_recv_cases stream_id f m with h | ⟨s, recv, hget, hrecv, h⟩ <;> rw [h]
  · exact refl m
  · exact evolves_put hget rfl (he s recv hrecv)

theorem evolves_with_send {stream_id : Nat} {f : Method SendState Error α}
    (he : ∀ s send, s.send = some send → E s { s with send := some (f send).2 }) :
    Method.Keeps (Evolves is_client E) (with_send stream_id f) := by
  intro m
  rcases with_send_cases stream_id f m with h | ⟨s, send, hget, hsend, h⟩ <;> rw [h]
  · exact refl m
  · exact evolves_put hget rfl (he s send hsend)

theorem local_bidi_ne_local_uni (n k : Nat) : local_bidi is_client n ≠ local_uni is_client k := by
  simp only [local_bidi, local_uni, StreamType.stream_id]
  cases is_client <;> simp [StreamType.code] <;> omega

theorem local_bidi_inj {n k : Nat} (h : local_bidi is_client n = local_bidi is_client k) : n = k := by
  simp only [local_bidi, StreamType.stream_id] at h
  omega

theorem local_uni_inj {n k : Nat} (h : local_uni is_client n = local_uni is_client k) : n = k := by
  simp only [local_uni, StreamType.stream_id] at h
  omega

theorem peer_initiated_ne_local {n : Nat} (h : peer_initiated is_client stream_id = true) :
    stream_id ≠ local_bidi is_client n ∧ stream_id ≠ local_uni is_client n := by
  simp only [local_bidi, local_uni, StreamType.stream_id]
  cases is_client <;>
    simp [peer_initiated, is_client_initiated, is_server_initiated, StreamType.code] at h ⊢ <;> omega

/-- A stream that was not there is put into the table. -/
theorem evolves_insert {N : Nat} {m' : StreamMap} (hins : slots.insert N s m.streams = some m'.streams)
    (hnone : FreshIds is_client m → m.get s.id = none)
    (hbidi : ∀ n, m'.next_bidi_local ≤ n → m.next_bidi_local ≤ n ∧ local_bidi is_client n ≠ s.id)
    (huni : ∀ n, m'.next_uni_local ≤ n → m.next_uni_local ≤ n ∧ local_uni is_client n ≠ s.id) :
    Evolves is_client E m m' := by
  intro hfresh
  have hother : ∀ j, j ≠ s.id → m'.get j = m.get j := fun j hj => slots.lookup_insert_ne hins hj
  refine ⟨⟨fun n hn => ?_, fun n hn => ?_⟩, fun j t ht => ⟨t, ?_, refl t⟩⟩
  · exact (hother _ (hbidi n hn).2).trans (hfresh.bidi n (hbidi n hn).1)
  · exact (hother _ (huni n hn).2).trans (hfresh.uni n (huni n hn).1)
  · refine (hother j ?_).trans ht
    rintro rfl
    rw [hnone hfresh] at ht
    cases ht

theorem evolves_open_bidi (N : Nat) :
    Method.Keeps (Evolves is_client E) (open_bidi N is_client) := by
  intro m
  unfold open_bidi
  dsimp only
  split
  · exact refl m
  · rename_i streams hins
    refine evolves_insert hins (fun h => h.bidi _ (Nat.le_refl _)) (fun n hn => ?_) fun n hn =>
      ⟨hn, (local_bidi_ne_local_uni _ _).symm⟩
    have hlt : m.next_bidi_local < n := hn
    exact ⟨hlt.le, fun h => hlt.ne' (local_bidi_inj h)⟩

theorem evolves_open_uni (N : Nat) :
    Method.Keeps (Evolves is_client E) (open_uni N is_client) := by
  intro m
  unfold open_uni
  dsimp only
  split
  · exact refl m
  · rename_i streams hins
    refine evolves_insert hins (fun h => h.uni _ (Nat.le_refl _))
      (fun n hn => ⟨hn, local_bidi_ne_local_uni _ _⟩) fun n hn => ?_
    have hlt : m.next_uni_local < n := hn
    exact ⟨hlt.le, fun h => hlt.ne' (local_uni_inj h)⟩

theorem evolves_get_or_create (N stream_id initial_max_stream_data : Nat) :
    Method.Keeps (Evolves is_client E)
      (get_or_create N stream_id is_client initial_max_stream_data) := by
  intro m
  unfold get_or_create
  split
  · exact refl m
  · rename_i hpeer
    have hlocal := fun n => peer_initiated_ne_local (n := n) (by simpa using hpeer)
    split
    · exact refl m
    · rename_i hnone
      split
      · exact refl m
      · rename_i streams hins
        have habsent : m.get stream_id = none := by simpa using hnone
        dsimp only
        split <;> exact evolves_insert hins (fun _ => habsent) (fun n hn => ⟨hn, (hlocal n).1.symm⟩)
          fun n hn => ⟨hn, (hlocal n).2.symm⟩

theorem evolves_mark_max_stream_data_sent (m : StreamMap) (stream_id : Nat)
    (he : ∀ s recv, s.recv = some recv →
      E s { s with recv := some { recv with max_data := recv.max_data_next } }) :
    Evolves is_client E m (m.mark_max_stream_data_sent stream_id) := by
  unfold mark_max_stream_data_sent
  split
  · rename_i hget
    split
    · rename_i hrecv
      exact evolves_put hget rfl (he _ _ hrecv)
    · exact refl m
  · exact refl m

end Evolves

end StreamMap

end milli_http.transport
