-- The receive window of an HTTP/2 connection: what the peer was charged for is credited to it,
-- about to be, or still held.
import MilliHttp.H2.Writes

open bytes method

namespace milli_http.h2.receive_credit

open H2Connection H2Stream

variable {L : Limits}

/-! ## The books -/

/-- What the receive window of the connection depends on. -/
structure Books where
  streams : List H2Stream
  window : Int
  pending : Nat
  partial_data : Option PartialData
  queued : List H2Frame

/-- The books of a connection. -/
def books (c : H2Connection L) : Books where
  streams := c.streams
  window := c.conn_recv_fc.window
  pending := c.pending_conn_credit
  partial_data := c.partial_data
  queued := c.io.queued

/-- The unread bytes in the buffers of the streams. -/
def buffered (streams : List H2Stream) : Nat := (streams.map (·.data_buf.length)).sum

/-- The unread data of the DATA frame in progress. -/
def data_left (partial_data : Option PartialData) : Nat := (partial_data.map (·.data_remaining)).getD 0

/-- The unread padding of the DATA frame in progress. -/
def pad_left (partial_data : Option PartialData) : Nat := (partial_data.map (·.pad_remaining)).getD 0

/-- What a frame credits the connection with. -/
def credit_of : H2Frame → Nat
  | .WindowUpdate 0 increment => increment
  | _ => 0

/-- What frames credit the connection with. -/
def conn_credit (frames : List H2Frame) : Nat := (frames.map credit_of).sum

/-- A stream with something to read says so, and stream 0 has nothing. -/
structure Tidy (s : H2Stream) : Prop where
  readable : s.data_buf ≠ [] → s.data_available = true
  conn : s.id = 0 → s.data_buf = [] ∧ s.pending_recv_credit = 0

/-- The window, the credit and the bytes held make up the window the connection began with, and
the data received is credited or held, but for `owed` bytes just let go of. No more than
`padding` is still to be skipped. -/
structure Balanced (received padding owed : Nat) (b : Books) : Prop where
  window_nonneg : 0 ≤ b.window
  window : b.window + b.pending + owed + buffered b.streams + data_left b.partial_data = 65535
  received : received =
    conn_credit b.queued + b.pending + owed + buffered b.streams + data_left b.partial_data
  tidy : ∀ s ∈ b.streams, Tidy s
  stream_id : ∀ pd ∈ b.partial_data, pd.stream_id ≠ 0
  padding : pad_left b.partial_data ≤ padding

variable {received padding owed : Nat} {b : Books} {c : H2Connection L} {f : H2Stream → H2Stream}

@[simp] theorem conn_credit_append (fs gs : List H2Frame) :
    conn_credit (fs ++ gs) = conn_credit fs + conn_credit gs := by
  simp [conn_credit]

theorem Balanced.queue (h : Balanced received padding owed b) (sent : List H2Frame)
    (hsent : ∀ f ∈ sent, credit_of f = 0) :
    Balanced received padding owed { b with queued := b.queued ++ sent } := by
  have hzero : conn_credit sent = 0 := by
    apply List.sum_eq_zero
    simpa using hsent
  refine { h with received := ?_ }
  rw [conn_credit_append, hzero]
  exact h.received

theorem Balanced.streams (h : Balanced received padding owed b) {l : List H2Stream}
    (hsum : buffered l = buffered b.streams) (htidy : ∀ s ∈ l, Tidy s) :
    Balanced received padding owed { b with streams := l } := by
  refine { h with window := ?_, received := ?_, tidy := htidy }
  · rw [hsum]
    exact h.window
  · rw [hsum]
    exact h.received

/-! ## Rewriting a stream -/

/-- A change that leaves body and credit of a stream alone. -/
structure KeepsBody (f : H2Stream → H2Stream) : Prop where
  id : ∀ s, (f s).id = s.id
  data_buf : ∀ s, (f s).data_buf = s.data_buf
  readable : ∀ s, s.data_available = true → (f s).data_available = true
  credit : ∀ s, (f s).pending_recv_credit = s.pending_recv_credit

theorem keepsBody_shift_window (delta : Int) : KeepsBody (·.shift_window delta) :=
  ⟨fun _ => rfl, fun _ => rfl, fun _ => id, fun _ => rfl⟩

theorem Tidy.of_same {s s' : H2Stream} (h : Tidy s) (hid : s'.id = s.id)
    (hdata : s'.data_buf = s.data_buf) (hread : s.data_available = true → s'.data_available = true)
    (hcredit : s'.pending_recv_credit ≤ s.pending_recv_credit) : Tidy s' := by
  refine ⟨?_, ?_⟩
  · rw [hdata]
    exact fun hne => hread (h.readable hne)
  · rw [hid, hdata]
    intro h0
    obtain ⟨hbuf, hzero⟩ := h.conn h0
    exact ⟨hbuf, by omega⟩

theorem balanced_modify_stream (stream_id : Nat) (hf : KeepsBody f)
    (h : Balanced received padding owed (books c)) :
    Balanced received padding owed (books (c.modify_stream stream_id f)) := by
  refine h.streams (l := keyed.modify H2Stream.id stream_id f c.streams) ?_ ?_
  · rw [buffered, keyed.map_modify fun s => by rw [hf.data_buf]]
    rfl
  · refine keyed.forall_modify h.tidy fun s hs => ?_
    exact (h.tidy s (keyed.find_mem hs)).of_same (hf.id s) (hf.data_buf s) (hf.readable s)
      (Nat.le_of_eq (hf.credit s))

theorem balanced_reap (h : Balanced received padding owed (books c)) :
    Balanced received padding owed (books c.reap) := by
  refine h.streams (l := c.streams.filter (·.retained)) ?_ fun s hs =>
    h.tidy s (List.mem_of_mem_filter hs)
  -- A stream that is dropped has nothing to read.
  have hkeep : ∀ l : List H2Stream, (∀ s ∈ l, Tidy s) →
      buffered (l.filter (·.retained)) = buffered l := by
    intro l
    induction l with
    | nil => exact fun _ => rfl
    | cons s rest ih =>
      intro htidy
      obtain ⟨hs, hrest⟩ := List.forall_mem_cons.mp htidy
      have hsum := ih hrest
      unfold buffered at hsum ⊢
      rw [List.filter_cons]
      split
      · simp only [List.map_cons, List.sum_cons, hsum]
      next hdrop =>
        have hempty : s.data_buf = [] := by
          by_contra hne
          simp [retained, hs.readable hne] at hdrop
        simp only [List.map_cons, List.sum_cons, hsum, hempty, List.length_nil, Nat.zero_add]
  exact hkeep c.streams h.tidy

theorem tidy_new (id : Nat) (send_window recv_window : Int) :
    Tidy (H2Stream.new id send_window recv_window) :=
  ⟨fun h => absurd rfl h, fun _ => ⟨rfl, rfl⟩⟩

theorem balanced_ensure_stream (stream_id : Nat) (h : Balanced received padding owed (books c)) :
    Balanced received padding owed (books (c.ensure_stream stream_id).2) := by
  unfold ensure_stream
  split
  · exact h
  dsimp only
  have hroom : Balanced received padding owed
      (books (if c.streams.length ≥ L.MAX_STREAMS then c.reap else c)) := by
    split
    · exact balanced_reap h
    · exact h
  generalize (if c.streams.length ≥ L.MAX_STREAMS then c.reap else c) = c' at hroom ⊢
  split
  · exact hroom
  · refine hroom.streams ?_ ?_
    · simp [buffered, books, H2Stream.new]
    · simp only [List.forall_mem_append, List.forall_mem_singleton]
      exact ⟨hroom.tidy, tidy_new _ _ _⟩

/-! ## Credit -/

theorem credit_of_stream {stream_id increment : Nat} (h : stream_id ≠ 0) :
    credit_of (.WindowUpdate stream_id increment) = 0 := by
  cases stream_id with
  | zero => exact absurd rfl h
  | succ n => rfl

theorem balanced_settle_streams (h : Balanced received padding owed (books c)) :
    Balanced received padding owed (books c.settle_streams) := by
  obtain ⟨hsettle, sent, bytes, howed, hqueued⟩ := flush_streams_settles L.BUF c.streams c.io
  have hsent : ∀ f ∈ sent, credit_of f = 0 := by
    intro f hf
    obtain ⟨s, hs, ⟨hpos, rfl⟩ | ⟨code, rfl⟩⟩ := howed f hf
    · refine credit_of_stream fun h0 => ?_
      have hzero := ((h.tidy s hs).conn h0).2
      omega
    · rfl
  have hbooks : books c.settle_streams = { books c with
      streams := (flush_streams L.BUF c.streams c.io).1, queued := (books c).queued ++ sent } := by
    simp only [books, settle_streams]
    rw [hqueued]
  rw [hbooks]
  refine (h.streams ?_ ?_).queue sent hsent
  · exact congrArg List.sum (map_settled hsettle fun s s' hs => by rw [hs.same])
  · refine forall_settled hsettle (fun s s' hs ht => ?_) h.tidy
    exact ht.of_same (by rw [hs.same]) (by rw [hs.same]) (by rw [hs.same]; exact id) hs.credit

theorem balanced_flush_conn_credit (h : Balanced received padding 0 (books c)) :
    Balanced received padding 0 (books c.flush_conn_credit) := by
  unfold flush_conn_credit
  split
  · rcases try_queue_cases L.BUF (.WindowUpdate 0 c.pending_conn_credit) c.io with hq | ⟨data, hq⟩
    · rw [hq]
      exact h
    · rw [hq]
      have hwindow := h.window
      have hreceived := h.received
      have hpos := h.window_nonneg
      simp only [books] at hwindow hreceived hpos
      -- The credit fits into the window it came from.
      have hfits : ¬ c.conn_recv_fc.window + c.pending_conn_credit > 0x7fffffff := by omega
      refine { h with window_nonneg := ?_, window := ?_, received := ?_ }
      · simp only [books, FlowController.replenish, if_neg hfits]
        omega
      · simp only [books, FlowController.replenish, if_neg hfits]
        omega
      · simp only [books, conn_credit_append]
        rw [hreceived]
        simp [conn_credit, credit_of]
  · exact h

theorem balanced_flush (h : Balanced received padding 0 (books c)) :
    Balanced received padding 0 (books c.flush_window_updates) := by
  rw [flush_window_updates_eq]
  exact balanced_settle_streams (balanced_flush_conn_credit h)

/-- What was let go of is credited. -/
theorem balanced_credit (h : Balanced received padding owed (books c)) :
    Balanced received padding 0 (books (c.send_window_update 0 owed)) := by
  unfold send_window_update
  split
  next hzero =>
    subst hzero
    exact h
  · have hwindow := h.window
    have hpos := h.window_nonneg
    simp only [books] at hwindow hpos
    have hsum : saturating_add c.pending_conn_credit owed = c.pending_conn_credit + owed := by
      unfold saturating_add
      omega
    refine balanced_flush { h with window := ?_, received := ?_ }
    · simp only [books, if_pos, hsum]
      omega
    · have hreceived := h.received
      simp only [books] at hreceived
      simp only [books, if_pos, hsum]
      omega

theorem balanced_stream_credit {stream_id : Nat} (hid : stream_id ≠ 0) (n : Nat)
    (h : Balanced received padding 0 (books c)) :
    Balanced received padding 0 (books (c.send_window_update stream_id n)) := by
  unfold send_window_update
  split
  · exact h
  · refine balanced_flush (h.streams (l := keyed.modify H2Stream.id stream_id _ c.streams) ?_ ?_)
    · exact congrArg List.sum (keyed.map_modify fun s => rfl)
    · refine keyed.forall_modify h.tidy fun s hs => ?_
      have hs0 : s.id ≠ 0 := by
        rw [keyed.find_key hs]
        exact hid
      exact ⟨(h.tidy s (keyed.find_mem hs)).readable, fun h0 => absurd h0 hs0⟩

/-! ## Frames of the peer -/

/-- The books stay balanced. -/
abbrev Kept (received padding : Nat) : H2Connection L → H2Connection L → Prop :=
  Method.Preserves fun c => Balanced received padding 0 (books c)

open Method

theorem notes_kept : KeptByNotes (L := L) (Kept received padding) where
  note h hbalanced := by
    simp only [counted, Prod.mk.injEq] at h
    simp only [books, h]
    exact hbalanced
  queue _ _ sent h hbalanced := by
    refine hbalanced.queue sent fun f hf => ?_
    have hplain := h f hf
    cases f with
    | WindowUpdate => cases hplain
    | _ => rfl
  prefaced _ := id

theorem kept_modify_stream {stream_id : Nat} (hf : KeepsBody f)
    (c : H2Connection L) : Kept received padding c (c.modify_stream stream_id f) :=
  balanced_modify_stream stream_id hf

theorem kept_ensure_stream (stream_id : Nat) (c : H2Connection L) :
    Kept received padding c (c.ensure_stream stream_id).2 := balanced_ensure_stream stream_id

theorem balanced_abandon_partial_data (stream_id : Nat) (h : Balanced received padding owed (books c)) :
    Balanced received padding owed (books (c.abandon_partial_data stream_id)) := by
  rcases hpd : c.partial_data with _ | pd
  · have hsame : c.abandon_partial_data stream_id = c := by
      unfold abandon_partial_data
      rw [hpd, Option.map_none, ← hpd]
    rw [hsame]
    exact h
  · -- Only the destination of the bytes changes.
    have hleft : books (c.abandon_partial_data stream_id) = { books c with
        partial_data :=
          some (if pd.stream_id = stream_id then { pd with deliver := false } else pd) } := by
      simp only [books, abandon_partial_data, hpd, Option.map_some]
    have hbooks : { books c with partial_data := some pd } = books c := by
      rw [← hpd]
      rfl
    rw [hleft]
    rw [← hbooks] at h
    split
    · refine { h with stream_id := ?_ }
      rintro _ ⟨⟩
      exact h.stream_id pd rfl
    · exact h

/-- Bytes that leave the buffer of a stream are owed. -/
theorem balanced_shrink {stream_id n : Nat} {s : H2Stream}
    (hs : c.get_stream stream_id = some s) (hlen : (f s).data_buf.length + n = s.data_buf.length)
    (htidy : Tidy (f s)) (h : Balanced received padding 0 (books c)) :
    Balanced received padding n (books (c.modify_stream stream_id f)) := by
  have hwindow := h.window
  have hreceived := h.received
  simp only [books] at hwindow hreceived
  have hsum : buffered (keyed.modify H2Stream.id stream_id f c.streams) + n =
      buffered c.streams := by
    have := keyed.sum_modify (f := f) (n := fun s => s.data_buf.length) hs
    unfold buffered
    omega
  refine { h with window := ?_, received := ?_, tidy := ?_ }
  · simp only [books, modify_stream]
    omega
  · simp only [books, modify_stream]
    omega
  · refine keyed.forall_modify h.tidy fun s' hs' => ?_
    rw [Option.some.inj (hs'.symm.trans hs)]
    exact htidy

/-- A stream whose body is dropped owes the connection the bytes. -/
theorem balanced_drop_body (stream_id : Nat)
    (hid : ∀ s, (f s).id = s.id) (hempty : ∀ s, (f s).data_buf = [])
    (hcredit : ∀ s, (f s).pending_recv_credit = s.pending_recv_credit)
    (h : Balanced received padding 0 (books c)) :
    Balanced received padding (((c.get_stream stream_id).map (·.data_buf.length)).getD 0)
      (books (c.modify_stream stream_id f)) := by
  rcases hs : c.get_stream stream_id with _ | s
  · rw [modify_stream, keyed.modify_of_none hs]
    exact h
  · refine balanced_shrink hs ?_ ⟨fun hne => absurd (hempty s) hne, fun h0 => ?_⟩ h
    · rw [hempty]
      simp
    · rw [hid] at h0
      exact ⟨hempty s, (hcredit s).trans ((h.tidy s (keyed.find_mem hs)).conn h0).2⟩

theorem kept_handle_rst_stream (hdr : H2FrameHeader) (payload : Bytes) :
    Keeps (Kept (L := L) received padding) (handle_rst_stream hdr payload) := by
  refine keeps_seq (keeps_require _ _) fun _ => keeps_seq (keeps_require _ _) fun _ => fun c h => ?_
  have habandon := balanced_abandon_partial_data hdr.stream_id h
  exact balanced_credit (balanced_drop_body hdr.stream_id
    (f := reset_by_peer) (fun _ => rfl) (fun _ => rfl) (fun _ => rfl) habandon)

theorem kept_handle_frame (hdr : H2FrameHeader) (payload : Bytes) :
    Keeps (Kept (L := L) received padding) (handle_frame hdr payload) := by
  have hnotes : KeptByNotes (L := L) (Kept received padding) := notes_kept
  intro c
  refine hnotes.handle_frame (fun _ => ?_) (fun _ => ?_) ?_ ?_ fun _ => ?_
  · refine hnotes.handle_headers (fun _ _ => id) (fun _ _ => id) (kept_ensure_stream _)
      (kept_modify_stream ?_) (fun c fragment => kept_modify_stream ?_ c) (fun _ _ => id) payload c
    · constructor <;> intro s <;> simp only [begin_block, open_] <;> split <;> simp
    · constructor <;> intro s <;> simp only [store_block] <;> split <;>
        simp [recv_end_stream]
  · exact hnotes.handle_continuation (fun _ => id)
      (kept_modify_stream ⟨fun _ => rfl, fun _ => rfl, fun _ => id, fun _ => rfl⟩) c
  · refine hnotes.handle_settings (fun _ _ => id) (fun c delta h => h.streams ?_ ?_) hdr payload c
    · exact congrArg List.sum (map_adjust_windows (fun _ _ => rfl) _ _)
    · exact forall_adjust_windows (fun s _ hs => ⟨hs.readable, hs.conn⟩) (fun _ hs => hs) h.tidy
  · exact hnotes.handle_window_update (fun _ _ => id)
      (fun c delta => kept_modify_stream (keepsBody_shift_window delta) c) payload c
  · exact kept_handle_rst_stream hdr payload c

/-! ## DATA -/

/-- The books with a DATA frame in progress that the connection has taken out of its hands. -/
abbrev Pumping (received padding owed : Nat) (pd : PartialData) (c : H2Connection L) : Prop :=
  Balanced received padding owed { books c with partial_data := some pd }

variable {pd : PartialData}

theorem pumping_discard_data (pd : PartialData) (h : Pumping received padding 0 pd c) :
    Pumping received padding 0 (discard_data pd c).1 (discard_data pd c).2 := by
  have hwindow := h.window
  have hreceived := h.received
  simp only [books, data_left, Option.map_some, Option.getD_some] at hwindow hreceived
  let n := min pd.data_remaining c.io.recv_buf.length
  let pd' := { pd with data_remaining := pd.data_remaining - n }
  have howed : Balanced received padding n (books ({ c.drain_recv n with partial_data := some pd' } :
      H2Connection L)) := by
    refine { h with window := ?_, received := ?_, stream_id := ?_ }
    · simp only [books, drain_recv, H2Io.drain_recv, data_left, Option.map_some, Option.getD_some, n,
        pd']
      omega
    · simp only [books, drain_recv, H2Io.drain_recv, data_left, Option.map_some, Option.getD_some, n,
        pd']
      omega
    · rintro _ ⟨⟩
      exact h.stream_id pd rfl
  have hcredit := balanced_credit howed
  rw [send_window_update_partial_data] at hcredit
  exact hcredit

theorem pumping_deliver_data {stream : H2Stream} (hs : c.get_stream pd.stream_id = some stream)
    (h : Pumping received padding 0 pd c) :
    Pumping received padding 0 (deliver_data stream pd c).1 (deliver_data stream pd c).2 := by
  unfold deliver_data
  dsimp only
  split
  · exact h
  have hwindow := h.window
  have hreceived := h.received
  simp only [books, data_left, Option.map_some, Option.getD_some] at hwindow hreceived
  generalize hn : min (min pd.data_remaining c.io.recv_buf.length)
    (L.DATABUF - stream.data_buf.length) = n
  have hlen : (c.io.recv_buf.take n).length = n := by
    rw [List.length_take]
    omega
  have hbuffered : buffered (keyed.modify H2Stream.id pd.stream_id
      (·.deliver (c.io.recv_buf.take n)) c.streams) = buffered c.streams + n := by
    have hsum := keyed.sum_modify (f := (·.deliver (c.io.recv_buf.take n)))
      (n := fun s => s.data_buf.length) hs
    have hdelivered : (stream.deliver (c.io.recv_buf.take n)).data_buf.length =
        stream.data_buf.length + n := by
      rw [H2Stream.deliver, List.length_append, hlen]
    rw [hdelivered] at hsum
    unfold buffered
    omega
  have htidy : ∀ s ∈ keyed.modify H2Stream.id pd.stream_id (·.deliver (c.io.recv_buf.take n))
      c.streams, Tidy s := by
    refine keyed.forall_modify h.tidy fun s hs => ⟨fun _ => rfl, fun h0 => ?_⟩
    exact absurd ((keyed.find_key hs).symm.trans h0) (h.stream_id pd rfl)
  refine { h with window := ?_, received := ?_, tidy := htidy, stream_id := ?_ }
  · simp only [books, push_event, drain_recv, H2Io.drain_recv, modify_stream, data_left,
      Option.map_some, Option.getD_some, hbuffered]
    omega
  · simp only [books, push_event, drain_recv, H2Io.drain_recv, modify_stream, data_left,
      Option.map_some, Option.getD_some, hbuffered]
    omega
  · rintro _ ⟨⟩
    exact h.stream_id pd rfl

theorem pumping_payload (h : Pumping received padding 0 pd c) :
    Pumping received padding 0 (pump_payload pd c).1 (pump_payload pd c).2 := by
  unfold pump_payload
  split
  · exact h
  split
  · split
    next stream hs => exact pumping_deliver_data hs h
    · exact pumping_discard_data { pd with deliver := false } { h with
        stream_id := by rintro _ ⟨⟩; exact h.stream_id pd rfl }
  · exact pumping_discard_data pd h

theorem pumping_padding (h : Pumping received padding 0 pd c) :
    Pumping received padding 0 (pump_padding pd c).1 (pump_padding pd c).2 := by
  unfold pump_padding
  split
  · refine { h with stream_id := ?_, padding := ?_ }
    · rintro _ ⟨⟩
      exact h.stream_id pd rfl
    · exact Nat.le_trans (Nat.sub_le _ _) h.padding
  · exact h

theorem balanced_finish_data (hdone : pd.data_remaining = 0) (hc : c.partial_data = none)
    (h : Pumping received padding 0 pd c) : Balanced received padding 0 (books (finish_data pd c)) := by
  have hc' : Balanced received padding 0 (books c) := by
    have hwindow := h.window
    have hreceived := h.received
    simp only [books, data_left, Option.map_some, Option.getD_some, hdone] at hwindow hreceived
    refine { h with window := ?_, received := ?_, stream_id := ?_, padding := ?_ }
    · simpa [books, data_left, hc] using hwindow
    · simpa [books, data_left, hc] using hreceived
    · intro pd' hpd
      rw [show (books c).partial_data = c.partial_data from rfl, hc] at hpd
      cases hpd
    · simp [books, pad_left, hc]
  unfold finish_data
  split
  · have hbody : KeepsBody (·.data_done pd.end_stream) := by
      constructor <;> intro s <;> simp only [data_done] <;> split <;>
        simp [recv_end_stream]
    have hmodify := balanced_modify_stream pd.stream_id hbody hc'
    dsimp only
    split
    · exact hmodify
    · exact hmodify
  · exact hc'

theorem balanced_pump (h : Balanced received padding 0 (books c)) :
    Balanced received padding 0 (books c.pump_partial_data) := by
  unfold pump_partial_data
  split
  · exact h
  next pd hpd =>
    have hstart : Pumping received padding 0 pd ({ c with partial_data := none } : H2Connection L) := by
      have hbooks : { books c with partial_data := some pd } = books c := by
        rw [← hpd]
        rfl
      rw [← hbooks] at h
      exact h
    have hpumped := pumping_padding (pumping_payload hstart)
    dsimp only
    split
    next hdone =>
      refine balanced_finish_data hdone.1 ?_ hpumped
      rw [pump_padding_partial_data, pump_payload_partial_data]
    · exact hpumped

theorem balanced_start_data {hdr : H2FrameHeader} {data_total pad_total : Nat}
    (hbegin : BeginsData c hdr data_total pad_total) (h : Balanced received padding 0 (books c)) :
    Balanced (received + data_total) pad_total 0 (books (start_data hdr data_total pad_total c)) := by
  have hwindow := h.window
  have hreceived := h.received
  have hfits := hbegin.fits
  simp only [books, data_left, hbegin.idle, Option.map_none, Option.getD_none] at hwindow hreceived
  refine { h with
    window_nonneg := ?_, window := ?_, received := ?_, stream_id := ?_, padding := Nat.le_refl _ }
  · simp only [books, start_data]
    omega
  · simp only [books, start_data, data_left, Option.map_some, Option.getD_some]
    omega
  · simp only [books, start_data, H2Io.drain_recv, data_left, Option.map_some, Option.getD_some]
    omega
  · rintro _ ⟨⟩
    exact hbegin.stream_id

/-! ## Calls -/

theorem balanced_generate_output (h : Balanced received padding 0 (books c)) :
    Balanced received padding 0 (books c.generate_output) := by
  obtain ⟨bytes, sent, settings_sent, hsent, heq⟩ := generate_output_cases c
  rw [heq]
  refine balanced_flush (h.queue sent fun f hf => ?_)
  rw [hsent f hf]
  rfl

theorem balanced_poll_output (len : Nat) (h : Balanced received padding 0 (books c)) :
    Balanced received padding 0 (books (c.poll_output len).2) := by
  obtain ⟨send_offset, send_buf, heq⟩ := poll_output_cases len c
  rw [heq]
  exact balanced_generate_output h

theorem kept_send_headers (stream_id : Nat) (headers : List hpack.Header) (end_stream : Bool)
    (c : H2Connection L) :
    Kept received padding c (send_headers stream_id headers end_stream c).2 := by
  refine notes_kept.send_headers (kept_ensure_stream stream_id) (kept_modify_stream ?_) headers c
  constructor <;> intro s <;> simp only [headers_sent, send_end_stream,
    open_] <;> split <;> split <;> simp

theorem balanced_recv_body (stream_id len : Nat) (h : Balanced received padding 0 (books c)) :
    Balanced received padding 0 (books (recv_body stream_id len c).2) := by
  rcases hs : c.get_stream stream_id with _ | stream
  · rw [recv_body_none hs]
    exact h
  have htidy := h.tidy stream (keyed.find_mem hs)
  rcases recv_body_cases stream_id len hs with ⟨hempty, heq | heq⟩ | ⟨hne, n, hn, heq⟩
  · rw [heq]
    exact h
  · rw [heq]
    refine balanced_shrink hs ?_ ⟨fun hne => absurd rfl hne, fun h0 => ⟨rfl, (htidy.conn h0).2⟩⟩ h
    rw [hempty]
    rfl
  · -- Stream 0 has no body, so the credit of the stream is not the connection's.
    have hid : stream_id ≠ 0 := by
      intro h0
      exact hne (htidy.conn ((keyed.find_key hs).trans h0)).1
    rw [heq]
    refine balanced_stream_credit hid _ (balanced_credit (balanced_shrink hs ?_ ?_ h))
    · simp only [body_read, List.length_drop]
      omega
    · refine ⟨fun hrest => decide_eq_true hrest, fun h0 => ?_⟩
      exact absurd ((keyed.find_key hs).symm.trans h0) hid

theorem balanced_discard_body (stream_id error_code : Nat) (h : Balanced received padding 0 (books c)) :
    Balanced received padding 0 (books (discard_body stream_id error_code c).2) := by
  rcases hs : c.get_stream stream_id with _ | stream
  · rw [discard_body_none hs]
    exact h
  have hdrop := balanced_drop_body stream_id (f := (·.abandon error_code)) (fun _ => rfl)
    (fun _ => rfl) (fun _ => rfl) (balanced_abandon_partial_data stream_id h)
  rw [show (c.abandon_partial_data stream_id).get_stream stream_id = some stream from hs] at hdrop
  have hcredit := balanced_credit hdrop
  rcases discard_body_cases stream_id error_code hs with heq | heq
  · rw [heq]
    exact hcredit
  · rw [heq]
    exact balanced_flush hcredit

theorem balanced_op (o : Op) (h : Balanced received padding 0 (books c)) :
    Balanced received padding 0 (books (o.apply c)) := by
  have hnotes : KeptByNotes (L := L) (Kept received padding) := notes_kept
  cases o with
  | generate_output => exact balanced_generate_output h
  | poll_output len => exact balanced_poll_output len h
  | poll_event => exact h
  | send_headers stream_id headers end_stream => exact kept_send_headers _ _ _ c h
  | open_stream headers end_stream =>
    exact hnotes.open_stream (fun _ _ => id) (fun _ => kept_send_headers _ headers end_stream) c h
  | send_data stream_id data end_stream =>
    refine hnotes.send_data (fun c bytes payload last h => ?_) (fun _ _ => id) (fun c delta => ?_)
      ?_ data end_stream c h
    · exact h.queue [_] (List.forall_mem_singleton.mpr rfl)
    · exact kept_modify_stream (keepsBody_shift_window delta) c
    · exact kept_modify_stream (f := send_end_stream)
        ⟨fun _ => rfl, fun _ => rfl, fun _ => id, fun _ => rfl⟩
  | send_goaway error_code => exact hnotes.send_goaway error_code c h
  | recv_headers stream_id =>
    exact hnotes.recv_headers (fun _ _ => id)
      (kept_modify_stream ⟨fun _ => rfl, fun _ => rfl, fun _ => id, fun _ => rfl⟩) c h
  | recv_body stream_id len => exact balanced_recv_body stream_id len h
  | discard_body stream_id error_code => exact balanced_discard_body stream_id error_code h
  | set_timeouts config now => exact h
  | handle_timeout now => exact hnotes.handle_timeout now c h
  | note_recv_activity now => exact h

/-! ## Runs -/

/-- The length of the DATA frame a step begins: data, pad length and padding. -/
def payload_begun (c : H2Connection L) : Step → Nat
  | .frame =>
    match c.round with
    | .data hdr _ _ => hdr.length
    | _ => 0
  | _ => 0

/-- The data of the DATA frame a step begins. -/
def data_begun (c : H2Connection L) : Step → Nat
  | .frame =>
    match c.round with
    | .data _ data_total _ => data_total
    | _ => 0
  | _ => 0

/-- A step does not begin a DATA frame with padding. -/
def Unpadded (c : H2Connection L) : Step → Prop
  | .frame =>
    match c.round with
    | .data hdr _ _ => hdr.has FLAG_PADDED = false
    | _ => True
  | _ => True

instance (c : H2Connection L) (s : Step) : Decidable (Unpadded c s) :=
  match s with
  | .frame =>
    match h : c.round with
    | .data hdr _ _ => decidable_of_iff (hdr.has FLAG_PADDED = false) (by simp [Unpadded, h])
    | .pump | .wait | .refuse _ | .frame _ _ => isTrue (by simp [Unpadded, h])
  | .receive _ | .preface | .reap | .op _ => isTrue trivial

/-- The flow-controlled bytes received. -/
def flow_controlled (steps : List (H2Connection L × Step)) : Nat :=
  (steps.map fun x => payload_begun x.1 x.2).sum

/-- The bytes received are credited on stream 0, about to be, or held: unread in the buffers of
the streams, or the unread part of the DATA frame in progress. -/
def Conserved (steps : List (H2Connection L × Step)) (c : H2Connection L) : Prop :=
  flow_controlled steps = conn_credit c.io.queued + c.pending_conn_credit +
    buffered c.streams + (data_left c.partial_data + pad_left c.partial_data)

instance (steps : List (H2Connection L × Step)) (c : H2Connection L) :
    Decidable (Conserved steps c) :=
  inferInstanceAs (Decidable (_ = _))

theorem data_lengths_spec {hdr : H2FrameHeader} {pad_length : UInt8} {data_total pad_total : Nat}
    (h : data_lengths hdr pad_length = .ok (data_total, pad_total)) :
    (hdr.has FLAG_PADDED = false ∧ data_total = hdr.length ∧ pad_total = 0) ∨
      (hdr.has FLAG_PADDED = true ∧ data_total + 1 + pad_total = hdr.length) := by
  unfold data_lengths at h
  split at h
  next hpadded =>
    split at h
    · cases h
    split at h
    · cases h
    · cases h
      exact .inr ⟨hpadded, by omega⟩
  next hpadded =>
    cases h
    exact .inl ⟨by simpa using hpadded, rfl, rfl⟩

theorem balanced_step {s : Step} (hdata : s = .frame → ∀ hdr d p, c.round ≠ .data hdr d p)
    (h : Balanced received padding 0 (books c)) :
    Balanced received padding 0 (books (s.apply c)) := by
  cases s with
  | receive data => exact h
  | preface =>
    simp only [Step.apply]
    rcases validate_client_preface_cases c with heq | ⟨n, seen, validated, heq⟩
    · rw [heq]
      exact h
    · rw [heq]
      exact h
  | reap => exact balanced_reap h
  | op o => exact balanced_op o h
  | frame =>
    simp only [Step.apply]
    rw [process_frame_eq]
    rcases hround : c.round with _ | _ | e | ⟨hdr, d, p⟩ | ⟨hdr, payload⟩
    · exact balanced_pump h
    · exact h
    · exact h
    · exact absurd hround (hdata rfl hdr d p)
    · have hframe := kept_handle_frame hdr payload c h
      rw [take_frame_run]
      rcases hrun : handle_frame hdr payload c with ⟨_ | _, c'⟩
      · rw [hrun] at hframe
        exact hframe
      · rw [hrun] at hframe
        exact hframe

/-- The data received so far. -/
def data_received (steps : List (H2Connection L × Step)) : Nat :=
  (steps.map fun x => data_begun x.1 x.2).sum

/-- The data received is accounted for. Pad lengths and padding are received, too, but of them
only the padding still to be skipped is held. -/
def Ledger (steps : List (H2Connection L × Step)) (c : H2Connection L) : Prop :=
  ∃ padding, Balanced (data_received steps) padding 0 (books c) ∧
    (((∀ x ∈ steps, Unpadded x.1 x.2) ∧ flow_controlled steps = data_received steps ∧ padding = 0) ∨
      ((¬ ∀ x ∈ steps, Unpadded x.1 x.2) ∧
        data_received steps + padding < flow_controlled steps))

theorem ledger_step (pre : List (H2Connection L × Step)) (c : H2Connection L) (s : Step)
    (h : Ledger pre c) : Ledger (pre ++ [(c, s)]) (s.apply c) := by
  obtain ⟨padding, hbalanced, hpadding⟩ := h
  have hflow : flow_controlled (pre ++ [(c, s)]) = flow_controlled pre + payload_begun c s := by
    simp [flow_controlled]
  have hdata : data_received (pre ++ [(c, s)]) = data_received pre + data_begun c s := by
    simp [data_received]
  unfold Ledger
  rw [hflow, hdata, List.forall_mem_append, List.forall_mem_singleton]
  by_cases hbegin : s = .frame ∧ ∃ hdr d p, c.round = .data hdr d p
  · obtain ⟨rfl, hdr, d, p, hround⟩ := hbegin
    have hb := round_data hround
    refine ⟨p, ?_, ?_⟩
    · simp only [data_begun, hround, Step.apply]
      rw [process_frame_eq, hround]
      exact balanced_start_data hb hbalanced
    · simp only [payload_begun, data_begun, Unpadded, hround]
      rcases data_lengths_spec hb.lengths with ⟨hflag, hd, hp⟩ | ⟨hflag, hlen⟩
      · rw [hd, hp]
        simp only [hflag, and_true]
        rcases hpadding with ⟨hall, hsum, -⟩ | ⟨hnot, hsum⟩
        · exact .inl ⟨hall, by omega⟩
        · exact .inr ⟨hnot, by omega⟩
      · simp only [hflag, Bool.true_eq_false, and_false, false_and, not_false_eq_true, true_and,
          false_or]
        rcases hpadding with ⟨-, hsum, -⟩ | ⟨-, hsum⟩
        · omega
        · omega
  · have hnone : s = .frame → ∀ hdr d p, c.round ≠ .data hdr d p :=
      fun hs hdr d p hround => hbegin ⟨hs, hdr, d, p, hround⟩
    have hzero : payload_begun c s = 0 ∧ data_begun c s = 0 ∧ Unpadded c s := by
      cases s with
      | frame =>
        simp only [payload_begun, data_begun, Unpadded]
        rcases hround : c.round with _ | _ | e | ⟨hdr, d, p⟩ | ⟨hdr, payload⟩
        · exact ⟨rfl, rfl, trivial⟩
        · exact ⟨rfl, rfl, trivial⟩
        · exact ⟨rfl, rfl, trivial⟩
        · exact absurd hround (hnone rfl hdr d p)
        · exact ⟨rfl, rfl, trivial⟩
      | receive | preface | reap | op => exact ⟨rfl, rfl, trivial⟩
    obtain ⟨hpayload, hdata, hunpadded⟩ := hzero
    refine ⟨padding, ?_, ?_⟩
    · rw [hdata, Nat.add_zero]
      exact balanced_step hnone hbalanced
    · rw [hpayload, hdata]
      simpa only [hunpadded, and_true, Nat.add_zero] using hpadding

theorem ledger_new (L : Limits) (role : Role) : Ledger [] (H2Connection.new L role) := by
  refine ⟨0, ?_, .inl ⟨by simp, rfl, rfl⟩⟩
  have hnone : ∀ pd ∈ (books (H2Connection.new L role)).partial_data, pd.stream_id ≠ 0 := by
    intro pd hpd
    cases hpd
  exact ⟨Int.natCast_nonneg 65535, rfl, rfl, List.forall_mem_nil _, hnone, Nat.le_refl _⟩

/-- The books tell whether the bytes received are conserved. -/
theorem conserved_iff {steps : List (H2Connection L × Step)}
    (h : Ledger steps c) : Conserved steps c ↔ ∀ x ∈ steps, Unpadded x.1 x.2 := by
  obtain ⟨padding, hbalanced, hpadding⟩ := h
  have hreceived := hbalanced.received
  have hleft := hbalanced.padding
  simp only [books] at hreceived hleft
  unfold Conserved
  rcases hpadding with ⟨hall, hsum, hzero⟩ | ⟨hnot, hsum⟩
  · exact iff_of_true (by omega) hall
  · exact iff_of_false (by omega) hnot

/-- In every state of a run the flow-controlled bytes received are the credit queued on stream 0,
the credit pending and the bytes held, exactly when no DATA frame of the run has padding. -/
theorem received_is_credited_or_held_iff_unpadded (L : Limits) (role : Role) (cs : List Call) :
    run.Always Step.apply Conserved (H2Connection.new L role) ((H2Connection.new L role).steps cs) ↔
      run.Along Step.apply Unpadded (H2Connection.new L role)
        ((H2Connection.new L role).steps cs) := by
  have hledger : run.Always Step.apply Ledger (H2Connection.new L role)
      ((H2Connection.new L role).steps cs) := by
    intro pre hpre
    have hany : run.Along Step.apply (fun _ _ => True) (H2Connection.new L role) pre :=
      fun _ _ => trivial
    exact run.history Ledger (fun pre c s _ h => ledger_step pre c s h) hany (ledger_new L role)
  constructor
  · intro h
    exact (conserved_iff (hledger _ (List.prefix_refl _))).mp (h _ (List.prefix_refl _))
  · intro h pre hpre
    exact (conserved_iff (hledger pre hpre)).mpr (h.upto hpre)

/-! ## An upload with padding -/

/-- A small server. -/
def small : Limits := { MAX_STREAMS := 4, HDRBUF := 64, DATABUF := 64, BUF := 256 }

/-- The preface, a request for stream 1, and two bytes of its body in a frame with a byte of
padding. -/
def padded_upload : Bytes :=
  CONNECTION_PREFACE ++ [0, 0, 3, 0x1, 0x4, 0, 0, 0, 1, 0x83, 0x84, 0x86] ++
    [0, 0, 4, 0x0, 0x8, 0, 0, 0, 1, 1, 0x61, 0x62, 0]

/-- Of the four bytes of the frame, the pad length and the padding are never credited. -/
theorem padding_is_neither_credited_nor_held :
    ¬ run.Always Step.apply Conserved (H2Connection.new small .Server)
      ((H2Connection.new small .Server).steps [.feed_data padded_upload]) := by
  intro h
  exact absurd (h _ (List.prefix_refl _)) (by decide +kernel)

end milli_http.h2.receive_credit
