-- What a send leaves behind when it fails. A head is queued part by part, so one that does not
-- fit leaves the parts before the one that did not, and a stream is numbered before its head is
-- queued.
import MilliHttp.Http1.Calls

open bytes method

namespace milli_http.http1.failed_sends

open Http1Connection

variable {L : Limits}

/-- What a send that fails has to leave alone. -/
def sending (c : Http1Connection L) := (c.send_buf, c.send_offset, c.current_stream_id)

/-- If the send fails, it leaves nothing. -/
def FailsCleanly (s : Send) (c : Http1Connection L) : Prop :=
  ∀ e c', s.run c = (.error e, c') → sending c' = sending c

/-- The whole head fits, or the first byte of it does not. -/
def AllOrNothing (headers : List (Bytes × Bytes)) (c : Http1Connection L) : Prop :=
  c.send_buf.length + (head c.role headers).length ≤ L.BUF ∨
    L.BUF < c.send_buf.length + (first_part (head_parts c.role headers)).length

instance (headers : List (Bytes × Bytes)) (c : Http1Connection L) :
    Decidable (AllOrNothing headers c) :=
  inferInstanceAs (Decidable (_ ∨ _))

/-- The head of another stream is refused at once, and one of this stream fits as a whole or not
with its first byte. A stream is opened only where its head fits. -/
def Clean (s : Send) (c : Http1Connection L) : Prop :=
  match s with
  | .send_headers stream_id headers =>
    stream_id ≠ c.current_stream_id ∨ AllOrNothing headers c
  | .send_data _ _ => True
  | .open_stream headers => c.send_buf.length + (head c.role headers).length ≤ L.BUF

/-! ## Each send -/

theorem send_headers_clean_iff (stream_id : Nat) (headers : List (Bytes × Bytes))
    (c : Http1Connection L) :
    FailsCleanly (.send_headers stream_id headers) c ↔ Clean (.send_headers stream_id headers) c := by
  unfold FailsCleanly Clean
  dsimp only [Send.run]
  rw [send_headers_run]
  by_cases hid : stream_id = c.current_stream_id
  · rw [if_pos hid, or_iff_right (not_not.mpr hid)]
    rcases Nat.lt_or_ge L.BUF (c.send_buf.length + (head c.role headers).length) with hover | hfits
    · obtain ⟨e, bytes, hrun, hempty⟩ := queue_head_overflows hover
      rw [hrun, AllOrNothing, or_iff_right (Nat.not_le.mpr hover), ← hempty]
      constructor
      · intro h
        simpa [sending, queued] using h _ _ rfl
      · rintro rfl e' c' h
        cases h
        simp [sending, queued]
    · rw [queue_head_fits hfits]
      exact iff_of_true (fun e c' h => by cases h) (.inl hfits)
  · rw [if_neg hid]
    refine iff_of_true (fun e c' h => ?_) (.inl hid)
    cases h
    rfl

/-- Data is queued as a whole or not at all. -/
theorem send_data_clean (stream_id : Nat) (data : Bytes) (c : Http1Connection L) :
    FailsCleanly (.send_data stream_id data) c := by
  intro e c' h
  have hcall : Send.run (L := L) (.send_data stream_id data) =
      send_data stream_id data >>= fun _ => pure () := rfl
  rw [hcall, Method.bind_run, send_data_run] at h
  by_cases hid : stream_id = c.current_stream_id
  · rw [if_pos hid] at h
    by_cases hfits : c.send_buf.length + data.length ≤ L.BUF
    · rw [if_pos hfits] at h
      cases h
    · rw [if_neg hfits] at h
      cases h
      rfl
  · rw [if_neg hid] at h
    cases h
    rfl

/-- A stream that is not opened has its number nevertheless. -/
theorem open_stream_clean_iff (headers : List (Bytes × Bytes)) (c : Http1Connection L) :
    FailsCleanly (.open_stream headers) c ↔ Clean (.open_stream headers) c := by
  unfold FailsCleanly Clean
  rw [open_stream_run]
  rcases Nat.lt_or_ge L.BUF (c.send_buf.length + (head c.role headers).length) with hover | hfits
  · obtain ⟨e, bytes, hrun, -⟩ := queue_head_overflows (c := next_stream c) hover
    rw [hrun]
    refine iff_of_false (fun h => ?_) (Nat.not_le.mpr hover)
    simpa [sending, queued, next_stream] using h _ _ rfl
  · rw [queue_head_fits (c := next_stream c) hfits]
    exact iff_of_true (fun e c' h => by cases h) hfits

/-! ## The law -/

/-- A send that fails leaves nothing behind exactly if it is clean. -/
theorem sends_fail_cleanly_iff (s : Send) (c : Http1Connection L) : FailsCleanly s c ↔ Clean s c := by
  cases s with
  | send_headers stream_id headers => exact send_headers_clean_iff stream_id headers c
  | send_data stream_id data => exact iff_of_true (send_data_clean stream_id data c) trivial
  | open_stream headers => exact open_stream_clean_iff headers c

/-- Room for the first part of a status line and for nothing more. -/
def limits : Limits := { HDRBUF := 16, DATABUF := 16, BUF := 10 }

/-- A response that is reported as not sent is put out in part. -/
theorem refused_response_is_begun :
    ¬ FailsCleanly (.send_headers 0 []) (new_server : Http1Connection limits) ∧
      (poll_output 10 (Send.run (.send_headers 0 []) (new_server : Http1Connection limits)).2).1 =
        .ok (some (ascii "HTTP/1.1 ")) := by
  refine ⟨fun h => ?_, by decide⟩
  have hsame := h _ _ rfl
  exact absurd hsame (by decide)

end milli_http.http1.failed_sends
