-- The HTTP/1.1 server (http1/server.rs): a connection in the server's role, with buffers of its own.
-- None of the calls of the application and of the runner, but for a feed, moves the parser.
import MilliHttp.Http1.Stalls

open bytes method
open method.Method (keeps_seq keeps_get keeps_modify)

namespace milli_http.http1

open parse Http1Connection stalls

variable {L : Limits} {c : Http1Connection L}

/-- The server owns the buffers that are part of the connection. -/
abbrev Http1Server (L : Limits) := Http1Connection L

/-! ## The server -/

/-- The most header fields of a message, pseudo-headers included. -/
def MAX_HEADERS : Nat := 20

/-- Sends a response's status line with its header fields. -/
def send_response (stream_id status : Nat) (headers : List (Bytes × Bytes)) :
    Method (Http1Server L) Error Unit := do
  .require (1 + headers.length ≤ MAX_HEADERS) .TooManyHeaders
  send_headers stream_id ((ascii ":status", Section.to_bytes status) :: headers)

/-! ## Calls that leave the parser alone -/

namespace stalls

theorem parse_side_poll_event : Method.Keeps (Method.Same parse_side)
    (poll_event : Method (Http1Connection L) Error (Option Http1Event)) := by
  intro c
  unfold poll_event
  split <;> rfl

theorem parse_side_recv_headers (stream_id : Nat) :
    Method.Keeps (Method.Same (parse_side (L := L))) (recv_headers stream_id) := by
  intro c
  rw [recv_headers_run]
  split
  · split <;> rfl
  · rfl

theorem parse_side_recv_body (stream_id room : Nat) :
    Method.Keeps (Method.Same (parse_side (L := L))) (recv_body stream_id room) := by
  intro c
  rw [recv_body_run]
  split
  · split
    · split <;> rfl
    · rfl
  · rfl

theorem parse_side_queue_send (data : Bytes) :
    Method.Keeps (Method.Same (parse_side (L := L))) (queue_send data) := by
  refine keeps_seq keeps_get fun c => ?_
  exact keeps_seq (Method.keeps_require _ _) fun _ => keeps_modify fun _ => rfl

theorem parse_side_queue_all (parts : List Bytes) :
    Method.Keeps (Method.Same (parse_side (L := L))) (queue_all parts) := by
  induction parts with
  | nil => exact Method.keeps_pure _
  | cons part parts ih => exact keeps_seq (parse_side_queue_send part) fun _ => ih

theorem parse_side_check_stream_id (stream_id : Nat) :
    Method.Keeps (Method.Same (parse_side (L := L))) (check_stream_id stream_id) :=
  keeps_seq keeps_get fun _ => Method.keeps_require _ _

theorem parse_side_send_headers (stream_id : Nat) (headers : List (Bytes × Bytes)) :
    Method.Keeps (Method.Same (parse_side (L := L))) (send_headers stream_id headers) := by
  refine keeps_seq (parse_side_check_stream_id stream_id) fun _ => ?_
  refine keeps_seq keeps_get fun c => ?_
  cases c.role with
  | Client => exact keeps_seq (parse_side_queue_all _) fun _ => keeps_modify fun _ => rfl
  | Server => exact keeps_seq (parse_side_queue_all _) fun _ => keeps_modify fun _ => rfl

theorem parse_side_send_response (stream_id status : Nat) (headers : List (Bytes × Bytes)) :
    Method.Keeps (Method.Same (parse_side (L := L))) (send_response stream_id status headers) :=
  keeps_seq (Method.keeps_require _ _) fun _ => parse_side_send_headers _ _

theorem parse_side_send_data (stream_id : Nat) (data : Bytes) :
    Method.Keeps (Method.Same (parse_side (L := L))) (send_data stream_id data) := by
  refine keeps_seq (parse_side_check_stream_id stream_id) fun _ => ?_
  refine keeps_seq (parse_side_queue_send data) fun _ => ?_
  refine keeps_seq (keeps_modify fun c => ?_) fun _ => Method.keeps_pure _
  split <;> rfl

theorem parse_side_poll_output (room : Nat) :
    Method.Keeps (Method.Same (parse_side (L := L))) (poll_output room) := by
  intro c
  unfold poll_output
  split
  · rfl
  · dsimp only
    split <;> rfl

theorem parse_side_handle_timeout (now : Nat) (c : Http1Connection L) :
    parse_side (handle_timeout now c) = parse_side c := by
  unfold handle_timeout
  split
  · rfl
  · dsimp only
    split
    · split
      · rfl
      · split <;> rfl
    · split
      · rfl
      · split <;> rfl

/-- A feed leaves a server settled, whether it succeeds or not. -/
theorem Settled.fed (h : Settled c) (data : Bytes) : Settled (feed_data data c).2 := by
  rw [feed_data_run]
  split
  · refine process_recv_settles h.server h.framed ?_
    simpa [take_in] using ‹_›
  · exact h

theorem Settled.fed_timed (h : Settled c) (data : Bytes) (now : Nat) :
    Settled (feed_data_timed data now c).2 := by
  unfold feed_data_timed
  rw [Method.modify_bind_run]
  split
  · exact h.fed data
  · have htimed : Settled { c with last_activity := now } := h.of_same rfl
    exact htimed.fed data

theorem settled_new : Settled (new_server : Http1Connection L) :=
  ⟨rfl, nofun, Nat.zero_le _, stuck_of_empty rfl⟩

/-- A feed of no bytes only goes round the receive loop. -/
theorem feed_nothing (h : c.recv_buf.length ≤ L.BUF) : feed_data [] c = process_recv c := by
  have hsame : take_in [] c = c := by
    unfold take_in
    rw [List.append_nil]
  have hlen : c.recv_buf.length + ([] : Bytes).length ≤ L.BUF := h
  rw [feed_data_run, hsame, if_pos hlen]

theorem feed_nothing_timed (now : Nat) (h : c.recv_buf.length ≤ L.BUF) :
    feed_data_timed [] now c = process_recv c := feed_nothing h

end stalls

end milli_http.http1
