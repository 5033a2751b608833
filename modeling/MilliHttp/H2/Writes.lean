-- What a call or a frame of the peer writes, piece by piece. A relation between connections that
-- the pieces keep is kept by the whole, so that the calls and the handlers are looked at once.
import MilliHttp.H2.Effects

open bytes method

namespace milli_http.h2.H2Connection

open hpack

variable {L : Limits} {stream_id : Nat} {hdr : H2FrameHeader}

/-- The fields of a connection but for its bookkeeping: how far it has come, its times and its
events. -/
def counted (c : H2Connection L) :=
  (c.role, c.peer_settings, c.streams, c.decoder, c.send_offset, c.conn_send_fc, c.conn_recv_fc,
    c.pending_conn_credit, c.next_stream_id, c.last_peer_stream_id, c.continuation_stream_id,
    c.preface_sent, c.preface_validated, c.preface_bytes_seen, c.partial_data, c.io)

/-- One piece, then another. -/
theorem through {R : H2Connection L → H2Connection L → Prop} [IsTrans (H2Connection L) R]
    {a b c : H2Connection L} (hab : R a b) (hbc : R b c) : R a c :=
  IsTrans.trans a b c hab hbc

/-- A frame that neither carries data nor gives credit. -/
def plain_frame : H2Frame → Bool
  | .Data .. | .WindowUpdate .. => false
  | _ => true

/-- What the writes keep that queue plain frames and keep books. -/
structure KeptByNotes (R : H2Connection L → H2Connection L → Prop) : Prop where
  note {c c' : H2Connection L} (h : counted c' = counted c) : R c c'
  queue (c : H2Connection L) (bytes : Bytes) (sent : List H2Frame)
    (h : ∀ f ∈ sent, plain_frame f = true) :
    R c { c with io := { c.io with
      send_buf := c.io.send_buf ++ bytes, queued := c.io.queued ++ sent } }
  prefaced (c : H2Connection L) : R c { c with preface_sent := true }

/-- What the writes keep that also give credit. -/
structure KeptByCredit (R : H2Connection L → H2Connection L → Prop) : Prop extends KeptByNotes R where
  credit {c c' : H2Connection L} (h : Recredited c c') : R c c'

namespace KeptByNotes

variable {R : H2Connection L → H2Connection L → Prop}

theorem append (h : KeptByNotes R) (bytes : Bytes) (c : H2Connection L) :
    R c { c with io := { c.io with send_buf := c.io.send_buf ++ bytes } } := by
  have hqueue := h.queue c bytes [] (List.forall_mem_nil _)
  rwa [List.append_nil] at hqueue

theorem queue_one (h : KeptByNotes R) (bytes : Bytes) {frame : H2Frame}
    (hframe : plain_frame frame = true) (c : H2Connection L) :
    R c { c with io := { c.io with
      send_buf := c.io.send_buf ++ bytes, queued := c.io.queued ++ [frame] } } :=
  h.queue c bytes [frame] (List.forall_mem_singleton.mpr hframe)

variable [IsPreorder (H2Connection L) R]

/-! ## Calls -/

theorem send_goaway (h : KeptByNotes R) (error_code : Nat) (c : H2Connection L) :
    R c (send_goaway error_code c).2 := by
  rcases send_goaway_cases error_code c with ⟨e, heq⟩ | ⟨data, heq⟩
  · rw [heq]
    exact refl c
  · rw [heq]
    exact through (h.queue_one data rfl c) (h.note rfl)

theorem handle_timeout (h : KeptByNotes R) (now : Nat) (c : H2Connection L) :
    R c (c.handle_timeout now) := by
  obtain ⟨_, _, _, _, _, bytes, sent, hsent, heq⟩ := handle_timeout_cases now c
  rw [heq]
  refine through (h.queue c bytes sent fun f hf => ?_) (h.note rfl)
  obtain ⟨last_stream_id, error_code, rfl⟩ := hsent f hf
  rfl

theorem recv_headers (_ : KeptByNotes R)
    (hdecoded : ∀ (c : H2Connection L) decoder, R c { c with decoder })
    (hread : ∀ c : H2Connection L, R c (c.modify_stream stream_id H2Stream.block_read))
    (c : H2Connection L) : R c (c.recv_headers stream_id).2.2 := by
  rcases recv_headers_cases stream_id c with heq | ⟨stream, -, -, ⟨e, -, heq⟩ | ⟨-, heq⟩⟩
  · rw [heq]
    exact refl c
  · rw [heq]
    exact hdecoded c _
  · rw [heq]
    exact through (hdecoded c _) (hread _)

/-- DATA of ours: a frame is queued, charged to both windows, and may end the stream. -/
theorem send_data (h : KeptByNotes R)
    (hdata : ∀ (c : H2Connection L) bytes payload last, R c { c with io := { c.io with
      send_buf := c.io.send_buf ++ bytes
      queued := c.io.queued ++ [.Data stream_id payload last] } })
    (hcharged : ∀ (c : H2Connection L) conn_send_fc, R c { c with conn_send_fc })
    (hshift : ∀ (c : H2Connection L) delta,
      R c (c.modify_stream stream_id (·.shift_window delta)))
    (hend : ∀ c : H2Connection L, R c (c.modify_stream stream_id (·.send_end_stream)))
    (data : Bytes) (end_stream : Bool) (c : H2Connection L) :
    R c (send_data stream_id data end_stream c).2 := by
  have hcharge : ∀ len, ∀ c : H2Connection L, R c (charge stream_id len c).2 := by
    intro len c
    unfold charge
    split
    · exact refl c
    rw [Method.bind_run, Method.on_run]
    rcases FlowController.consume len c.conn_send_fc with ⟨_ | _, fc⟩
    · exact hcharged c fc
    · exact through (hcharged c fc) (hshift _ _)
  rcases send_data_run stream_id data end_stream c with ⟨bytes, heq⟩ | ⟨payload, last, bytes, -, heq⟩
  · rw [heq]
    exact h.append bytes c
  rw [heq]
  have hqueued := hdata c bytes payload last
  generalize ({ c with io := { c.io with
    send_buf := c.io.send_buf ++ bytes
    queued := c.io.queued ++ [.Data stream_id payload last] } } : H2Connection L) = c₁ at hqueued ⊢
  have hsent := through hqueued (hcharge payload.length c₁)
  rcases hrun : charge stream_id payload.length c₁ with ⟨_ | _, c₂⟩
  · rw [hrun] at hsent
    exact hsent
  · rw [hrun] at hsent
    refine through hsent ?_
    cases last with
    | false => exact h.note rfl
    | true => exact through (hend c₂) (h.note rfl)

theorem ensure_stream (_ : KeptByNotes R) (hreap : ∀ c : H2Connection L, R c c.reap)
    (hcreate : ∀ c : H2Connection L, c.get_stream stream_id = none →
      R c (c.create_stream stream_id))
    (c : H2Connection L) : R c (c.ensure_stream stream_id).2 := by
  rcases ensure_stream_cases stream_id c with ⟨-, heq⟩ | ⟨-, heq⟩ | ⟨hnone, heq | heq⟩
  · rw [heq]
    exact refl c
  · rw [heq]
    exact hreap c
  · rw [heq]
    exact hcreate c hnone
  · rw [heq]
    refine through (hreap c) (hcreate _ (keyed.find_eq_none.mpr fun s hs => ?_))
    exact keyed.find_eq_none.mp hnone s (List.mem_of_mem_filter hs)

theorem send_headers (h : KeptByNotes R) {end_stream : Bool}
    (hensure : ∀ c : H2Connection L, R c (c.ensure_stream stream_id).2)
    (hsent : ∀ c : H2Connection L, R c (c.modify_stream stream_id (·.headers_sent end_stream)))
    (headers : List Header) (c : H2Connection L) :
    R c (send_headers stream_id headers end_stream c).2 := by
  rcases send_headers_cases stream_id headers end_stream c with
    ⟨-, heq⟩ | ⟨-, bytes, heq⟩ | ⟨-, bytes, block, heq⟩
  · rw [heq]
    exact hensure c
  · rw [heq]
    exact through (hensure c) (h.append bytes _)
  · rw [heq]
    exact through (hensure c) (through (h.queue_one bytes rfl _) (through (hsent _) (h.note rfl)))

theorem open_stream (_ : KeptByNotes R) {headers : List Header} {end_stream : Bool}
    (hnext : ∀ (c : H2Connection L) next_stream_id, R c { c with next_stream_id })
    (hsend : ∀ stream_id, ∀ c : H2Connection L,
      R c (H2Connection.send_headers stream_id headers end_stream c).2)
    (c : H2Connection L) : R c (open_stream headers end_stream c).2 := by
  rcases open_stream_cases headers end_stream c with heq | heq
  · rw [heq]
    exact refl c
  · rw [heq]
    exact through (hnext c _) (hsend _ _)

/-! ## Frames of the peer -/

theorem handle_ping (h : KeptByNotes R) (hdr : H2FrameHeader) (payload : Bytes)
    (c : H2Connection L) : R c (handle_ping hdr payload c).2 := by
  rcases hrun : H2Connection.handle_ping hdr payload c with ⟨r, c'⟩
  rcases handle_ping_cases hrun with rfl | ⟨data, rfl⟩
  · exact refl _
  · exact h.queue_one data rfl c

theorem handle_goaway (h : KeptByNotes R) (hdr : H2FrameHeader) (payload : Bytes)
    (c : H2Connection L) : R c (handle_goaway hdr payload c).2 := by
  rcases hrun : H2Connection.handle_goaway hdr payload c with ⟨r, c'⟩
  rcases handle_goaway_cases hrun with rfl | ⟨events, rfl⟩
  · exact refl _
  · exact h.note rfl

theorem handle_window_update (_ : KeptByNotes R)
    (hcharged : ∀ (c : H2Connection L) conn_send_fc, R c { c with conn_send_fc })
    (hshift : ∀ (c : H2Connection L) delta,
      R c (c.modify_stream hdr.stream_id (·.shift_window delta)))
    (payload : Bytes) (c : H2Connection L) : R c (handle_window_update hdr payload c).2 := by
  rcases hrun : H2Connection.handle_window_update hdr payload c with ⟨r, c'⟩
  rcases handle_window_update_cases hrun with
    ⟨e, -, rfl⟩ | ⟨-, -, -, rfl⟩ | ⟨-, -, -, rfl⟩ | ⟨-, -, stream, -, -, rfl⟩
  · exact refl _
  · exact hcharged c _
  · exact refl _
  · exact hshift c _

theorem handle_settings (h : KeptByNotes R)
    (hpeer : ∀ (c : H2Connection L) peer_settings, R c { c with peer_settings })
    (hadjust : ∀ (c : H2Connection L) delta,
      R c { c with streams := (adjust_windows delta c.streams).2 })
    (hdr : H2FrameHeader) (payload : Bytes) (c : H2Connection L) :
    R c (handle_settings hdr payload c).2 := by
  rcases hrun : H2Connection.handle_settings hdr payload c with ⟨r, c'⟩
  rcases handle_settings_cases hrun with ⟨e, -, rfl⟩ | ⟨-, _, _, _, rfl⟩ |
    ⟨-, -, ⟨_, -, -, rfl⟩ | ⟨-, -, -, rfl⟩ | ⟨-, -, bytes, state, events, headers_phase_complete, hmoved⟩⟩
  · exact refl _
  · exact h.note rfl
  · exact hpeer c _
  · exact through (hpeer c _) (h.note rfl)
  · have hacked := through (hpeer c (H2Settings.apply_payload payload c.peer_settings).2)
      (h.queue_one bytes (show plain_frame (.Settings true []) = true from rfl) _)
    have hmet : R c { c with
        peer_settings := (H2Settings.apply_payload payload c.peer_settings).2
        peer_settings_received := true
        io := { c.io with
          send_buf := c.io.send_buf ++ bytes, queued := c.io.queued ++ [.Settings true []] }
        state, events, headers_phase_complete } :=
      through hacked (h.note rfl)
    unfold adjust_streams at hmoved
    split at hmoved
    · cases hmoved
      exact hmet
    · cases hmoved
      exact through hmet (hadjust _ _)

theorem handle_continuation (h : KeptByNotes R) {payload : Bytes}
    (hnoted : ∀ c : H2Connection L, R c (c.note_block_end hdr))
    (happend : ∀ c : H2Connection L, R c (c.modify_stream hdr.stream_id
      (·.append_block payload (hdr.has FLAG_END_HEADERS))))
    (c : H2Connection L) : R c (handle_continuation hdr payload c).2 := by
  rcases hrun : H2Connection.handle_continuation hdr payload c with ⟨r, c'⟩
  rcases handle_continuation_cases hrun with
    ⟨e, -, rfl⟩ | ⟨-, -, rfl⟩ | ⟨e, stream, -, -, rfl⟩ | ⟨stream, -, -, rfl⟩
  · exact refl _
  · exact hnoted c
  · exact hnoted c
  · refine through (through (hnoted c) (happend _)) ?_
    unfold announce_block
    split
    · exact h.note rfl
    · exact refl _

/-- HEADERS of the peer: a block is decoded and dropped, or its stream is made sure of, the block
begun, stored and announced. -/
theorem handle_headers (h : KeptByNotes R)
    (hdecoded : ∀ (c : H2Connection L) decoder, R c { c with decoder })
    (hseen : ∀ (c : H2Connection L) last_peer_stream_id, R c { c with last_peer_stream_id })
    (hensure : ∀ c : H2Connection L, R c (c.ensure_stream hdr.stream_id).2)
    (hbegin : ∀ c : H2Connection L, R c (c.modify_stream hdr.stream_id (·.begin_block)))
    (hstore : ∀ (c : H2Connection L) fragment, R c (c.modify_stream hdr.stream_id
      (·.store_block fragment (hdr.has FLAG_END_HEADERS) (hdr.has FLAG_END_STREAM))))
    (hlatch : ∀ (c : H2Connection L) continuation_stream_id, R c { c with continuation_stream_id })
    (payload : Bytes) (c : H2Connection L) : R c (handle_headers hdr payload c).2 := by
  rcases hrun : H2Connection.handle_headers hdr payload c with ⟨r, c'⟩
  have hensured := through (hseen c (max c.last_peer_stream_id hdr.stream_id)) (hensure _)
  rcases handle_headers_cases hrun with ⟨e, -, rfl⟩ | ⟨fragment, -, ⟨-, -, -, rfl⟩ |
    ⟨-, -, ⟨e, -, -, rfl⟩ | ⟨e, -, -, rfl⟩ | ⟨-, -, rfl⟩⟩⟩
  · exact refl _
  · exact hdecoded c _
  · exact hensured
  · exact through hensured (hbegin _)
  · refine through (through (through hensured (hbegin _)) (hstore _ fragment)) ?_
    unfold announce_headers
    dsimp only
    split
    · split
      · exact h.note rfl
      · exact through (hlatch _ (some hdr.stream_id)) (h.note rfl)
    · split
      · exact h.note rfl
      · exact hlatch _ (some hdr.stream_id)

/-- A frame of the peer, kind by kind. -/
theorem handle_frame (h : KeptByNotes R) {payload : Bytes} {c : H2Connection L}
    (hheaders : hdr.frame_type = .Headers → R c (H2Connection.handle_headers hdr payload c).2)
    (hcontinuation : hdr.frame_type = .Continuation →
      R c (H2Connection.handle_continuation hdr payload c).2)
    (hsettings : R c (H2Connection.handle_settings hdr payload c).2)
    (hwindow : R c (H2Connection.handle_window_update hdr payload c).2)
    (hreset : hdr.frame_type = .RstStream → R c (H2Connection.handle_rst_stream hdr payload c).2) :
    R c (handle_frame hdr payload c).2 := by
  unfold H2Connection.handle_frame
  cases htype : hdr.frame_type with
  | Headers => exact hheaders htype
  | Continuation => exact hcontinuation htype
  | Settings => exact hsettings
  | WindowUpdate => exact hwindow
  | RstStream => exact hreset htype
  | Ping => exact h.handle_ping hdr payload c
  | GoAway => exact h.handle_goaway hdr payload c
  | Data => exact refl c
  | Priority => exact refl c
  | PushPromise => exact refl c
  | Unknown ty => exact refl c

end KeptByNotes

/-! ## Writes that give credit -/

namespace KeptByCredit

variable {R : H2Connection L → H2Connection L → Prop} [IsPreorder (H2Connection L) R]

theorem generate_output (h : KeptByCredit R) (c : H2Connection L) : R c c.generate_output := by
  obtain ⟨bytes, sent, settings_sent, hsent, heq⟩ := generate_output_cases c
  rw [heq]
  refine through (h.queue c bytes sent fun f hf => ?_) (through (h.prefaced _) (through ?_
    (h.credit (recredited_flush _))))
  · rw [hsent f hf]
    rfl
  · exact h.note rfl

theorem poll_output (h : KeptByCredit R)
    (hpolled : ∀ (c : H2Connection L) send_offset send_buf,
      R c { c with send_offset, io := { c.io with send_buf } }) (len : Nat) (c : H2Connection L) :
    R c (c.poll_output len).2 := by
  obtain ⟨send_offset, send_buf, heq⟩ := poll_output_cases len c
  rw [heq]
  exact through (h.generate_output c) (hpolled _ send_offset send_buf)

theorem recv_body (h : KeptByCredit R)
    (hread : ∀ (c : H2Connection L) rest, R c (c.modify_stream stream_id (·.body_read rest)))
    (len : Nat) (c : H2Connection L) : R c (recv_body stream_id len c).2 := by
  rcases hs : c.get_stream stream_id with _ | stream
  · rw [recv_body_none hs]
    exact refl c
  rcases recv_body_cases stream_id len hs with ⟨-, heq | heq⟩ | ⟨-, n, -, heq⟩
  · rw [heq]
    exact refl c
  · rw [heq]
    exact hread c []
  · rw [heq]
    exact through (hread c _) (through (h.credit (recredited_send_window_update 0 n _))
      (h.credit (recredited_send_window_update stream_id n _)))

theorem discard_body (h : KeptByCredit R) {stream_id error_code : Nat}
    (habandon : ∀ c : H2Connection L,
      R c ((c.abandon_partial_data stream_id).modify_stream stream_id (·.abandon error_code)))
    (c : H2Connection L) : R c (discard_body stream_id error_code c).2 := by
  rcases hs : c.get_stream stream_id with _ | stream
  · rw [discard_body_none hs]
    exact refl c
  have hdiscard := through (habandon c)
    (h.credit (recredited_send_window_update 0 stream.data_buf.length _))
  rcases discard_body_cases stream_id error_code hs with heq | heq
  · rw [heq]
    exact hdiscard
  · rw [heq]
    exact through hdiscard (h.credit (recredited_flush _))

theorem handle_rst_stream (h : KeptByCredit R)
    (hreset : ∀ c : H2Connection L,
      R c ((c.abandon_partial_data hdr.stream_id).modify_stream hdr.stream_id (·.reset_by_peer)))
    (payload : Bytes) (c : H2Connection L) : R c (handle_rst_stream hdr payload c).2 := by
  rcases hrun : H2Connection.handle_rst_stream hdr payload c with ⟨r, c'⟩
  rcases handle_rst_stream_cases hrun with ⟨e, -, rfl⟩ | ⟨-, -, buffered, error_code, rfl⟩
  · exact refl _
  · exact through (hreset c) (through (h.credit (recredited_send_window_update 0 buffered _))
      (h.note rfl))

/-- The DATA frame in progress goes on: bytes are delivered or credited, and it may end. -/
theorem pump (h : KeptByCredit R)
    (hheld : ∀ (c : H2Connection L) partial_data, R c { c with partial_data })
    (hdrain : ∀ (c : H2Connection L) n, R c (c.drain_recv n))
    (hdeliver : ∀ (c : H2Connection L) stream_id bytes,
      R c (c.modify_stream stream_id (·.deliver bytes)))
    (hdone : ∀ (c : H2Connection L) stream_id end_stream,
      R c (c.modify_stream stream_id (·.data_done end_stream)))
    (c : H2Connection L) : R c c.pump_partial_data := by
  rcases hpd : c.partial_data with _ | pd
  · unfold pump_partial_data
    rw [hpd]
    exact refl c
  obtain ⟨pd', c', hrun, n, left, -, heq⟩ := pump_partial_data_cases hpd
  have hpayload : R c c' := by
    refine through (hheld c none) ?_
    rcases pump_payload_cases pd { c with partial_data := none } with
      hidle | ⟨stream, m, -, -, -, -, htaken⟩ | ⟨m, -, -, -, htaken⟩
    · obtain ⟨-, rfl⟩ := Prod.mk.inj (hrun.symm.trans hidle)
      exact refl _
    · obtain ⟨-, rfl⟩ := Prod.mk.inj (hrun.symm.trans htaken)
      exact through (hdeliver _ pd.stream_id _) (through (hdrain _ m) (h.note rfl))
    · obtain ⟨-, rfl⟩ := Prod.mk.inj (hrun.symm.trans htaken)
      exact through (hdrain _ m) (h.credit (recredited_send_window_update 0 m _))
  have hdrained := through hpayload (hdrain c' n)
  rcases heq with ⟨-, -, heq⟩ | heq
  · rw [heq]
    refine through hdrained ?_
    unfold finish_data
    split
    · dsimp only
      split
      · exact through (hdone _ pd'.stream_id pd'.end_stream) (h.note rfl)
      · exact hdone _ pd'.stream_id pd'.end_stream
    · exact refl _
  · rw [heq]
    exact through hdrained (hheld _ _)

end KeptByCredit

end milli_http.h2.H2Connection
