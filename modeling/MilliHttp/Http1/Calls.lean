-- The calls of an HTTP/1.1 connection and what each of them moves: feeds run the receive loop,
-- the application's reads take from what the loop left, sends go to the send buffer one part
-- after the other, and nothing else touches the parser.
import MilliHttp.Http1.Stalls

open bytes method
open method.Method (bind_ok bind_error keeps_seq)

namespace milli_http.http1

open parse Http1Connection

variable {L : Limits} {c : Http1Connection L}

/-! ## Sends -/

/-- A call that hands bytes over for sending. -/
inductive Send where
  | send_headers (stream_id : Nat) (headers : List (Bytes × Bytes))
  | send_data (stream_id : Nat) (data : Bytes)
  | open_stream (headers : List (Bytes × Bytes))
  deriving DecidableEq, Repr

def Send.run : Send → Method (Http1Connection L) Error Unit
  | .send_headers stream_id headers => Http1Connection.send_headers stream_id headers
  | .send_data stream_id data => do
    let _ ← Http1Connection.send_data stream_id data
    pure ()
  | .open_stream headers => do
    let _ ← Http1Connection.open_stream headers
    pure ()

/-- The parts a head is queued in. -/
def head_parts (role : Role) (headers : List (Bytes × Bytes)) : List Bytes :=
  match role with
  | .Client =>
    let host := last_value (ascii ":authority") [] headers
    [last_value (ascii ":method") (ascii "GET") headers, ascii " ",
      last_value (ascii ":path") (ascii "/") headers, ascii " HTTP/1.1" ++ CRLF] ++
      (if host = [] then [] else [ascii "Host: ", host, CRLF]) ++ field_lines headers
  | .Server =>
    let status := last_value (ascii ":status") (ascii "200") headers
    [ascii "HTTP/1.1 ", status, ascii " ", status_reason status, CRLF] ++ field_lines headers

/-- A head as it goes on the wire. -/
def head (role : Role) (headers : List (Bytes × Bytes)) : Bytes := (head_parts role headers).flatten

/-- The connection with more bytes to send. -/
def queued (bytes : Bytes) (c : Http1Connection L) : Http1Connection L :=
  { c with send_buf := c.send_buf ++ bytes }

theorem queued_queued (a b : Bytes) (c : Http1Connection L) :
    queued b (queued a c) = queued (a ++ b) c := by
  unfold queued
  rw [List.append_assoc]

theorem queue_send_run (data : Bytes) (c : Http1Connection L) :
    queue_send data c =
      if c.send_buf.length + data.length ≤ L.BUF then (.ok (), queued data c)
      else (.error (.BufferTooSmall (c.send_buf.length + data.length)), c) :=
  Method.require_bind_run _ _ _ c

theorem queue_all_cons (part : Bytes) (parts : List Bytes) :
    queue_all (L := L) (part :: parts) = queue_send part >>= fun _ => queue_all parts := rfl

theorem queued_length (part : Bytes) (c : Http1Connection L) :
    (queued part c).send_buf.length = c.send_buf.length + part.length := List.length_append

theorem queue_all_fits {parts : List Bytes} (h : c.send_buf.length + parts.flatten.length ≤ L.BUF) :
    queue_all parts c = (.ok (), queued parts.flatten c) := by
  induction parts generalizing c with
  | nil =>
    unfold queued
    rw [List.flatten_nil, List.append_nil]
    rfl
  | cons part parts ih =>
    rw [List.flatten_cons, List.length_append] at h
    have hpart : queue_send part c = (.ok (), queued part c) := by
      rw [queue_send_run, if_pos (by omega)]
    have hrest := ih (c := queued part c) (by
      rw [queued_length]
      omega)
    rw [queue_all_cons, bind_ok hpart, hrest, queued_queued, List.flatten_cons]

/-- The first part with a byte in it. -/
def first_part (parts : List Bytes) : Bytes := (parts.find? (· ≠ [])).getD []

/-- Parts that do not fit together are queued up to one of them, which is the first one with a
byte in it exactly if that one does not fit. -/
theorem queue_all_overflows {parts : List Bytes} (hne : parts ≠ [])
    (h : L.BUF < c.send_buf.length + parts.flatten.length) :
    ∃ e bytes, queue_all parts c = (.error e, queued bytes c) ∧
      (bytes = [] ↔ L.BUF < c.send_buf.length + (first_part parts).length) := by
  induction parts generalizing c with
  | nil => exact absurd rfl hne
  | cons part parts ih =>
    by_cases hfits : c.send_buf.length + part.length ≤ L.BUF
    · have hpart : queue_send part c = (.ok (), queued part c) := by
        rw [queue_send_run, if_pos hfits]
      rw [List.flatten_cons, List.length_append] at h
      have hparts : parts ≠ [] := by
        rintro rfl
        simp at h
        omega
      obtain ⟨e, bytes, hrun, hempty⟩ := ih (c := queued part c) hparts (by
        rw [queued_length]
        omega)
      refine ⟨e, part ++ bytes, ?_, ?_⟩
      · rw [queue_all_cons, bind_ok hpart, hrun, queued_queued]
      · by_cases hp : part = []
        · subst hp
          simpa [first_part, queued] using hempty
        · have hfirst : first_part (part :: parts) = part := by simp [first_part, hp]
          rw [hfirst]
          exact iff_of_false (by simp [hp]) (by omega)
    · have hpart : queue_send part c =
          (.error (.BufferTooSmall (c.send_buf.length + part.length)), c) := by
        rw [queue_send_run, if_neg hfits]
      refine ⟨.BufferTooSmall (c.send_buf.length + part.length), [], ?_, iff_of_true rfl ?_⟩
      · unfold queued
        rw [queue_all_cons, bind_error hpart, List.append_nil]
      · by_cases hp : part = []
        · subst hp
          simp at hfits
          omega
        · have hfirst : first_part (part :: parts) = part := by simp [first_part, hp]
          rw [hfirst]
          omega

theorem head_parts_ne_nil (role : Role) (headers : List (Bytes × Bytes)) :
    head_parts role headers ≠ [] := by
  cases role <;> simp [head_parts]

/-- Bytes were handed over since the last tick. -/
def note_sent (c : Http1Connection L) : Http1Connection L := { c with sent_since_tick := true }

/-- Queues a head. -/
def queue_head (role : Role) (headers : List (Bytes × Bytes)) :
    Method (Http1Connection L) Error Unit := do
  queue_all (head_parts role headers)
  .modify note_sent

theorem send_headers_run (stream_id : Nat) (headers : List (Bytes × Bytes))
    (c : Http1Connection L) :
    send_headers stream_id headers c =
      if stream_id = c.current_stream_id then queue_head c.role headers c
      else (.error .InvalidState, c) := by
  have hcheck : check_stream_id stream_id c =
      if stream_id = c.current_stream_id then (.ok (), c) else (.error .InvalidState, c) :=
    rfl
  unfold send_headers
  by_cases hid : stream_id = c.current_stream_id
  · rw [if_pos hid] at hcheck ⊢
    rw [bind_ok hcheck, Method.get_bind_run]
    cases c.role <;> rfl
  · rw [if_neg hid] at hcheck ⊢
    rw [bind_error hcheck]

theorem send_data_run (stream_id : Nat) (data : Bytes) (c : Http1Connection L) :
    send_data stream_id data c =
      if stream_id = c.current_stream_id then
        if c.send_buf.length + data.length ≤ L.BUF then
          (.ok data.length,
            if data = [] then queued data c else note_sent (queued data c))
        else (.error (.BufferTooSmall (c.send_buf.length + data.length)), c)
      else (.error .InvalidState, c) := by
  have hcheck : check_stream_id stream_id c =
      if stream_id = c.current_stream_id then (.ok (), c) else (.error .InvalidState, c) :=
    rfl
  have hqueue := queue_send_run data c
  unfold send_data
  by_cases hid : stream_id = c.current_stream_id
  · rw [if_pos hid] at hcheck ⊢
    rw [bind_ok hcheck]
    by_cases hfits : c.send_buf.length + data.length ≤ L.BUF
    · rw [if_pos hfits] at hqueue ⊢
      rw [bind_ok hqueue]
      rfl
    · rw [if_neg hfits] at hqueue ⊢
      rw [bind_error hqueue]
  · rw [if_neg hid] at hcheck ⊢
    rw [bind_error hcheck]

/-- The connection at the next stream. -/
def next_stream (c : Http1Connection L) : Http1Connection L :=
  { c with current_stream_id := c.current_stream_id + 1 }

theorem open_stream_run (headers : List (Bytes × Bytes)) (c : Http1Connection L) :
    Send.run (.open_stream headers) c = queue_head c.role headers (next_stream c) := by
  have hcall : Send.run (L := L) (.open_stream headers) =
      open_stream headers >>= fun _ => pure () := rfl
  have hrun : open_stream headers c =
      (send_headers (c.current_stream_id + 1) headers >>= fun _ => pure (c.current_stream_id + 1))
        (next_stream c) := rfl
  have hhead : send_headers (c.current_stream_id + 1) headers (next_stream c) =
      queue_head c.role headers (next_stream c) := by
    rw [send_headers_run]
    exact if_pos rfl
  rw [hcall, Method.bind_run, hrun, Method.bind_run, hhead]
  rcases queue_head c.role headers (next_stream c) with ⟨_ | _, _⟩ <;> rfl

theorem queue_head_fits {role : Role} {headers : List (Bytes × Bytes)}
    (h : c.send_buf.length + (head role headers).length ≤ L.BUF) :
    queue_head role headers c = (.ok (), note_sent (queued (head role headers) c)) :=
  bind_ok (queue_all_fits h)

theorem queue_head_overflows {role : Role} {headers : List (Bytes × Bytes)}
    (h : L.BUF < c.send_buf.length + (head role headers).length) :
    ∃ e bytes, queue_head role headers c = (.error e, queued bytes c) ∧
      (bytes = [] ↔ L.BUF < c.send_buf.length + (first_part (head_parts role headers)).length) := by
  obtain ⟨e, bytes, hrun, hempty⟩ := queue_all_overflows (head_parts_ne_nil role headers) h
  exact ⟨e, bytes, bind_error hrun, hempty⟩

section Keeps

variable {R : Http1Connection L → Http1Connection L → Prop} [IsPreorder _ R]

theorem keeps_queue_head (hbuf : ∀ bytes c, R c (queued bytes c)) (hsent : ∀ c, R c (note_sent c))
    (role : Role) (headers : List (Bytes × Bytes)) :
    Method.Keeps R (queue_head (L := L) role headers) := by
  intro c
  rcases Nat.lt_or_ge L.BUF (c.send_buf.length + (head role headers).length) with hover | hfits
  · obtain ⟨e, bytes, hrun, -⟩ := queue_head_overflows hover
    rw [hrun]
    exact hbuf _ _
  · rw [queue_head_fits hfits]
    exact IsTrans.trans _ _ _ (hbuf _ _) (hsent _)

/-- What growing the send buffer, noting a send and numbering a stream keep, a send keeps. -/
theorem keeps_send (hbuf : ∀ bytes c, R c (queued bytes c)) (hsent : ∀ c, R c (note_sent c))
    (hid : ∀ c, R c (next_stream c)) (s : Send) : Method.Keeps R (s.run (L := L)) := by
  intro c
  cases s with
  | send_headers stream_id headers =>
    show R c (send_headers stream_id headers c).2
    rw [send_headers_run]
    split
    · exact keeps_queue_head hbuf hsent _ _ c
    · exact refl c
  | send_data stream_id data =>
    refine keeps_seq (m := send_data stream_id data) (fun c => ?_)
      (fun _ => Method.keeps_pure _) c
    rw [send_data_run]
    split
    · split
      · dsimp only
        split
        · exact hbuf _ _
        · exact IsTrans.trans _ _ _ (hbuf _ _) (hsent _)
      · exact refl c
    · exact refl c
  | open_stream headers =>
    rw [open_stream_run]
    exact IsTrans.trans _ _ _ (hid c) (keeps_queue_head hbuf hsent _ _ _)

end Keeps

/-! ## Calls -/

/-- A call of the connection. -/
inductive Call where
  | feed_data (data : Bytes)
  | feed_data_timed (data : Bytes) (now : Nat)
  | poll_event
  | recv_headers (stream_id : Nat)
  | recv_body (stream_id room : Nat)
  | send (s : Send)
  | poll_output (room : Nat)
  | note_recv_activity (now : Nat)
  | set_timeouts (config : TimeoutConfig) (now : Nat)
  | handle_timeout (now : Nat)
  deriving DecidableEq, Repr

/-- The connection a call leaves behind. -/
def Call.apply : Call → Http1Connection L → Http1Connection L
  | .feed_data data, c => (Http1Connection.feed_data data c).2
  | .feed_data_timed data now, c => (Http1Connection.feed_data_timed data now c).2
  | .poll_event, c => (Http1Connection.poll_event c).2
  | .recv_headers stream_id, c => (Http1Connection.recv_headers stream_id c).2
  | .recv_body stream_id room, c => (Http1Connection.recv_body stream_id room c).2
  | .send s, c => (s.run c).2
  | .poll_output room, c => (Http1Connection.poll_output room c).2
  | .note_recv_activity now, c => Http1Connection.note_recv_activity now c
  | .set_timeouts config now, c => Http1Connection.set_timeouts config now c
  | .handle_timeout now, c => Http1Connection.handle_timeout now c

/-- What the parser and the reads of the application go by. -/
def read_side (c : Http1Connection L) :=
  (c.role, c.state, c.chunk_state, c.recv_buf, c.header_buf, c.headers_available, c.data_buf,
    c.body_finished, c.body_parked)

/-- The calls that run the receive loop or take from what it left. -/
def Call.reads : Call → Bool
  | .feed_data _ | .feed_data_timed _ _ | .recv_headers _ | .recv_body _ _ => true
  | _ => false

theorem read_side_send (s : Send) : Method.Keeps (Method.Same (read_side (L := L))) s.run :=
  keeps_send (R := Method.Same read_side) (fun _ _ => rfl) (fun _ => rfl) (fun _ => rfl) s

theorem read_side_poll_event :
    Method.Keeps (Method.Same (read_side (L := L))) Http1Connection.poll_event := by
  intro c
  unfold poll_event
  split <;> rfl

theorem read_side_poll_output (room : Nat) :
    Method.Keeps (Method.Same (read_side (L := L))) (Http1Connection.poll_output room) := by
  intro c
  unfold poll_output
  split
  · rfl
  · dsimp only
    split <;> rfl

theorem read_side_handle_timeout (now : Nat) (c : Http1Connection L) :
    read_side (Http1Connection.handle_timeout now c) = read_side c := by
  unfold handle_timeout
  split
  · rfl
  · dsimp only
    split
    · split
      · rfl
      · split <;> rfl
    · split
      · rfl
      · split <;> rfl

/-- The other calls leave the parser and the reads alone. -/
theorem read_side_apply {call : Call} (h : call.reads = false) (c : Http1Connection L) :
    read_side (call.apply c) = read_side c := by
  cases call with
  | feed_data data => cases h
  | feed_data_timed data now => cases h
  | recv_headers stream_id => cases h
  | recv_body stream_id room => cases h
  | poll_event => exact read_side_poll_event c
  | send s => exact read_side_send s c
  | poll_output room => exact read_side_poll_output room c
  | note_recv_activity now => rfl
  | set_timeouts config now => rfl
  | handle_timeout now => exact read_side_handle_timeout now c

/-! ## The receive loop -/

section Keeps

variable {R : Http1Connection L → Http1Connection L → Prop} [IsPreorder _ R]

theorem keeps_feed_data (hturn : Method.Keeps R (turn (L := L)))
    (htake : ∀ data c, R c (take_in (L := L) data c)) (data : Bytes) :
    Method.Keeps R (feed_data (L := L) data) := by
  refine keeps_seq Method.keeps_get fun c => ?_
  refine keeps_seq (Method.keeps_require _ _) fun _ => ?_
  exact keeps_seq (Method.keeps_modify (htake data)) fun _ =>
    Method.keeps_loop turn_lowers hturn

theorem keeps_feed_data_timed (hfeed : ∀ data, Method.Keeps R (feed_data (L := L) data))
    (htime : ∀ now c, R c { c with last_activity := now }) (data : Bytes) (now : Nat) :
    Method.Keeps R (feed_data_timed (L := L) data now) := by
  refine keeps_seq (Method.keeps_modify fun c => ?_) fun _ => hfeed data
  split
  · exact refl c
  · exact htime now c

end Keeps

end milli_http.http1
