-- What most steps leave alone. Streams are seen by a part of them: an identifier, a header
-- block, the end of the stream. Credit, windows, bodies and our own frames do not touch such a
-- part, nor the stream numbers, the header block in progress and the decoder.
import MilliHttp.H2.Writes

open bytes method

namespace milli_http.h2

open hpack

variable {L : Limits}

namespace H2Connection

/-! ## Parts -/

/-- A part of a stream that credit, windows, the body and our own frames do not touch. -/
structure Plain {β : Type} (part : H2Stream → β) : Prop where
  credit : ∀ s s', uncredited s' = uncredited s → part s' = part s
  body_read : ∀ s rest, part (s.body_read rest) = part s
  deliver : ∀ s bytes, part (s.deliver bytes) = part s
  shift_window : ∀ s delta, part (s.shift_window delta) = part s
  reset_by_peer : ∀ s, part s.reset_by_peer = part s
  send_end_stream : ∀ s, part s.send_end_stream = part s
  open_ : ∀ s, part s.open_ = part s

/-- The fields of a connection beside the streams that most steps leave alone. -/
structure Core where
  role : Role
  decoder : HpackDecoder
  next_stream_id : Nat
  last_peer_stream_id : Nat
  continuation_stream_id : Option Nat

/-- These fields of a connection. -/
def core (c : H2Connection L) : Core where
  role := c.role
  decoder := c.decoder
  next_stream_id := c.next_stream_id
  last_peer_stream_id := c.last_peer_stream_id
  continuation_stream_id := c.continuation_stream_id

/-- Streams may be dropped, and the DATA frame in progress may be given up; the rest of what
counts stays. -/
structure Quiet {β : Type} (part : H2Stream → β) (c c' : H2Connection L) : Prop where
  streams : (c'.streams.map part).Sublist (c.streams.map part)
  core : core c' = core c
  partial_data : ∀ pd ∈ c'.partial_data, pd.deliver = true → pd ∈ c.partial_data

/-- A stream is made. -/
structure Adds {β : Type} (part : H2Stream → β) (stream_id : Nat) (c c' : H2Connection L) :
    Prop where
  absent : c.get_stream stream_id = none
  streams : ∃ l send_window recv_window, l.Sublist (c.streams.map part) ∧
    c'.streams.map part = l ++ [part (H2Stream.new stream_id send_window recv_window)]
  core : core c' = core c
  partial_data : c'.partial_data = c.partial_data

variable {β : Type} {part : H2Stream → β} {c c' c₁ c₂ c₃ : H2Connection L}

instance : IsPreorder (H2Connection L) (Quiet part) where
  refl c := ⟨List.Sublist.refl _, rfl, fun _ h _ => h⟩
  trans c₁ c₂ c₃ h₁ h₂ := by
    refine ⟨h₂.streams.trans h₁.streams, h₂.core.trans h₁.core, fun pd hpd hdeliver => ?_⟩
    exact h₁.partial_data pd (h₂.partial_data pd hpd hdeliver) hdeliver

theorem Quiet.trans (h₁ : Quiet part c₁ c₂) (h₂ : Quiet part c₂ c₃) : Quiet part c₁ c₃ :=
  IsTrans.trans _ _ _ h₁ h₂

theorem quiet_of_same (hstreams : c'.streams = c.streams) (hcore : core c' = core c)
    (hheld : c'.partial_data = c.partial_data) : Quiet part c c' := by
  refine ⟨?_, hcore, fun pd hpd _ => hheld ▸ hpd⟩
  rw [hstreams]

theorem quiet_modify_stream {stream_id : Nat} {f : H2Stream → H2Stream} (c : H2Connection L)
    (hf : ∀ s, part (f s) = part s) : Quiet part c (c.modify_stream stream_id f) := by
  refine ⟨?_, rfl, fun pd hpd _ => hpd⟩
  rw [modify_stream, keyed.map_modify hf]

theorem quiet_reap (c : H2Connection L) : Quiet part c c.reap :=
  ⟨List.filter_sublist.map _, rfl, fun _ h _ => h⟩

theorem quiet_abandon_partial_data (stream_id : Nat) (c : H2Connection L) :
    Quiet part c (c.abandon_partial_data stream_id) := by
  refine ⟨List.Sublist.refl _, rfl, fun pd hpd hdeliver => ?_⟩
  unfold abandon_partial_data at hpd
  rcases hold : c.partial_data with _ | old
  · simp [hold] at hpd
  · simp only [hold, Option.map_some, Option.mem_def, Option.some.injEq] at hpd ⊢
    split at hpd
    · subst hpd
      cases hdeliver
    · exact hpd

theorem quiet_preface (c : H2Connection L) : Quiet part c (validate_client_preface c).2 := by
  rcases validate_client_preface_cases c with heq | ⟨_, _, _, heq⟩
  · rw [heq]
    exact refl c
  · rw [heq]
    exact quiet_of_same rfl rfl rfl

/-! ## What touches streams -/

section Credit

variable (hpart : Plain part)

include hpart

theorem quiet_recredited (h : Recredited c c') : Quiet part c c' := by
  obtain ⟨hstreams, sent, bytes, -, heq⟩ := h
  refine ⟨?_, by rw [heq]; rfl, fun pd hpd _ => by rw [heq] at hpd; exact hpd⟩
  -- The part of a stream can be read off what credit does not touch.
  have hlookup : ∀ l l' : List H2Stream, l'.map uncredited = l.map uncredited →
      l'.map part = l.map part := by
    intro l
    induction l with
    | nil => intro l' h; rw [List.map_eq_nil_iff.mp h]
    | cons s rest ih =>
      intro l' h
      rcases l' with _ | ⟨s', rest'⟩
      · cases h
      · obtain ⟨hs, hrest⟩ := List.cons.inj h
        rw [List.map_cons, List.map_cons, hpart.credit s s' hs, ih rest' hrest]
  rw [hlookup _ _ hstreams]

theorem quiet_flush (c : H2Connection L) : Quiet part c c.flush_window_updates :=
  quiet_recredited hpart (recredited_flush c)

theorem quiet_send_window_update (stream_id n : Nat) (c : H2Connection L) :
    Quiet part c (c.send_window_update stream_id n) :=
  quiet_recredited hpart (recredited_send_window_update stream_id n c)

/-- What leaves a part of the streams keeps it through the frames and the books of a connection. -/
theorem notes_quiet : KeptByCredit (L := L) (Quiet part) where
  note h := by
    simp only [counted, Prod.mk.injEq] at h
    exact quiet_of_same (by simp [h]) (by simp [core, h]) (by simp [h])
  queue _ _ _ _ := quiet_of_same rfl rfl rfl
  prefaced _ := quiet_of_same rfl rfl rfl
  credit := quiet_recredited hpart

theorem quiet_discard_body (habandon : ∀ s code, part (s.abandon code) = part s)
    (stream_id error_code : Nat) (c : H2Connection L) :
    Quiet part c (discard_body stream_id error_code c).2 :=
  (notes_quiet hpart).discard_body (fun c => (quiet_abandon_partial_data stream_id c).trans
    (quiet_modify_stream _ fun s => habandon s error_code)) c

theorem quiet_send_data (stream_id : Nat) (data : Bytes) (end_stream : Bool) (c : H2Connection L) :
    Quiet part c (send_data stream_id data end_stream c).2 :=
  (notes_quiet hpart).send_data (fun _ _ _ _ => quiet_of_same rfl rfl rfl)
    (fun _ _ => quiet_of_same rfl rfl rfl)
    (fun c delta => quiet_modify_stream c fun s => hpart.shift_window s delta)
    (fun c => quiet_modify_stream c hpart.send_end_stream) data end_stream c

end Credit

/-! ## Making a stream -/

theorem quiet_ensure_stream (stream_id : Nat) (c : H2Connection L) :
    Quiet part c (c.ensure_stream stream_id).2 ∨
      Adds part stream_id c (c.ensure_stream stream_id).2 := by
  rcases ensure_stream_cases stream_id c with ⟨-, heq⟩ | ⟨-, heq⟩ | ⟨hnone, heq | heq⟩
  · rw [heq]
    exact .inl (refl c)
  · rw [heq]
    exact .inl (quiet_reap c)
  · rw [heq]
    exact .inr ⟨hnone, ⟨_, _, _, List.Sublist.refl _, List.map_append⟩, rfl, rfl⟩
  · rw [heq]
    exact .inr ⟨hnone, ⟨_, _, _, (quiet_reap c).streams, List.map_append⟩, rfl, rfl⟩

theorem made_after {stream_id : Nat} (h : Quiet part c c₁ ∨ Adds part stream_id c c₁)
    (hstreams : c'.streams.map part = c₁.streams.map part) (hcore : core c' = core c₁)
    (hheld : c'.partial_data = c₁.partial_data) :
    Quiet part c c' ∨ Adds part stream_id c c' := by
  rcases h with h | h
  · refine .inl (h.trans ⟨?_, hcore, fun pd hpd _ => hheld ▸ hpd⟩)
    rw [hstreams]
  · obtain ⟨l, sw, rw', hl, heq⟩ := h.streams
    exact .inr ⟨h.absent, ⟨l, sw, rw', hl, hstreams.trans heq⟩, hcore.trans h.core,
      hheld.trans h.partial_data⟩

theorem quiet_send_headers (hpart : Plain part) (stream_id : Nat) (headers : List Header)
    (end_stream : Bool) (c : H2Connection L) :
    Quiet part c (send_headers stream_id headers end_stream c).2 ∨
      Adds part stream_id c (send_headers stream_id headers end_stream c).2 := by
  have hsent : ∀ s : H2Stream, part (s.headers_sent end_stream) = part s := by
    intro s
    unfold H2Stream.headers_sent
    split
    · rw [hpart.send_end_stream, hpart.open_]
    · exact hpart.open_ s
  have hensure : Quiet part c (c.ensure_stream stream_id).2 ∨
      Adds part stream_id c (c.ensure_stream stream_id).2 := quiet_ensure_stream stream_id c
  rcases send_headers_cases stream_id headers end_stream c with
    ⟨-, heq⟩ | ⟨-, send_buf, heq⟩ | ⟨-, send_buf, block, heq⟩
  · rw [heq]
    exact hensure
  · rw [heq]
    exact made_after hensure rfl rfl rfl
  · rw [heq]
    exact made_after hensure (keyed.map_modify hsent) rfl rfl

/-! ## Kinds of steps -/

/-- The calls that make no stream and take no header block. -/
def plain_op : Op → Bool
  | .send_headers _ _ _ | .open_stream _ _ | .recv_headers _ | .discard_body _ _ => false
  | _ => true

theorem quiet_op (hpart : Plain part) {o : Op} (ho : plain_op o = true) (c : H2Connection L) :
    Quiet part c (o.apply c) := by
  have hnotes : KeptByCredit (L := L) (Quiet part) := notes_quiet hpart
  cases o with
  | generate_output => exact hnotes.generate_output c
  | poll_output len => exact hnotes.poll_output (fun _ _ _ => quiet_of_same rfl rfl rfl) len c
  | poll_event => exact quiet_of_same rfl rfl rfl
  | send_headers stream_id headers end_stream => cases ho
  | open_stream headers end_stream => cases ho
  | send_data stream_id data end_stream => exact quiet_send_data hpart stream_id data end_stream c
  | send_goaway error_code => exact hnotes.send_goaway error_code c
  | recv_headers stream_id => cases ho
  | recv_body stream_id len =>
    exact hnotes.recv_body (fun c rest => quiet_modify_stream c fun s => hpart.body_read s rest) len c
  | discard_body stream_id error_code => cases ho
  | set_timeouts config now => exact quiet_of_same rfl rfl rfl
  | handle_timeout now => exact hnotes.handle_timeout now c
  | note_recv_activity now => exact quiet_of_same rfl rfl rfl

theorem quiet_handle_frame (hpart : Plain part) {hdr : H2FrameHeader} (payload : Bytes)
    (c : H2Connection L) (hheaders : hdr.frame_type ≠ .Headers)
    (hcontinuation : hdr.frame_type ≠ .Continuation) :
    Quiet part c (handle_frame hdr payload c).2 := by
  have hnotes : KeptByCredit (L := L) (Quiet part) := notes_quiet hpart
  refine hnotes.handle_frame (fun h => absurd h hheaders) (fun h => absurd h hcontinuation) ?_ ?_
    fun _ => ?_
  · refine hnotes.handle_settings (fun _ _ => quiet_of_same rfl rfl rfl) (fun c delta => ?_) hdr
      payload c
    refine ⟨?_, rfl, fun _ h _ => h⟩
    rw [map_adjust_windows hpart.shift_window]
  · exact hnotes.handle_window_update (fun _ _ => quiet_of_same rfl rfl rfl)
      (fun c delta => quiet_modify_stream c fun s => hpart.shift_window s delta) payload c
  · exact hnotes.handle_rst_stream (fun c => (quiet_abandon_partial_data hdr.stream_id c).trans
      (quiet_modify_stream _ hpart.reset_by_peer)) payload c

/-- The DATA frame in progress goes on, or ends. -/
theorem quiet_pump (hpart : Plain part) {pd : PartialData} (hpd : c.partial_data = some pd) :
    ∃ pd' c', pd'.stream_id = pd.stream_id ∧ pd'.end_stream = pd.end_stream ∧
      (pd'.deliver = true → pd.deliver = true) ∧
      (pd.deliver = true → pd'.deliver = true ∨ c.get_stream pd.stream_id = none) ∧
      Quiet part { c with partial_data := none } c' ∧ c'.partial_data = none ∧
      (c.pump_partial_data = finish_data pd' c' ∨
        c.pump_partial_data = { c' with partial_data := some pd' }) := by
  obtain ⟨pd', c', hrun, n, left, -, heq⟩ := pump_partial_data_cases hpd
  have hheld := pump_payload_partial_data pd ({ c with partial_data := none } : H2Connection L)
  rw [hrun] at hheld
  have hpayload : pd'.stream_id = pd.stream_id ∧ pd'.end_stream = pd.end_stream ∧
      (pd'.deliver = true → pd.deliver = true) ∧
      (pd.deliver = true → pd'.deliver = true ∨ c.get_stream pd.stream_id = none) ∧
      Quiet part { c with partial_data := none } c' := by
    rcases pump_payload_cases pd { c with partial_data := none } with
      h | ⟨stream, m, hdeliver, -, -, -, h⟩ | ⟨m, hgone, -, -, h⟩
    · obtain ⟨rfl, rfl⟩ := Prod.mk.inj (hrun.symm.trans h)
      exact ⟨rfl, rfl, id, .inl, refl _⟩
    · obtain ⟨rfl, rfl⟩ := Prod.mk.inj (hrun.symm.trans h)
      have hdelivered : Quiet part { c with partial_data := none }
          (({ c with partial_data := none } : H2Connection L).modify_stream pd.stream_id
            (·.deliver (c.io.recv_buf.take m))) :=
        quiet_modify_stream _ fun s => hpart.deliver s _
      exact ⟨rfl, rfl, fun _ => hdeliver, .inl, hdelivered.trans (quiet_of_same rfl rfl rfl)⟩
    · obtain ⟨rfl, rfl⟩ := Prod.mk.inj (hrun.symm.trans h)
      refine ⟨rfl, rfl, nofun, fun hdeliver => .inr ?_,
        Quiet.trans ?_ (quiet_send_window_update hpart 0 m _)⟩
      · rcases hgone with hno | hgone
        · rw [hdeliver] at hno
          cases hno
        · exact hgone
      · exact quiet_of_same rfl rfl rfl
  obtain ⟨hid, hend, hdeliver, hgone, hquiet⟩ := hpayload
  refine ⟨{ pd' with pad_remaining := left }, c'.drain_recv n, hid, hend, hdeliver, hgone, ?_,
    hheld, ?_⟩
  · exact hquiet.trans (quiet_of_same rfl rfl rfl)
  · rcases heq with ⟨-, -, heq⟩ | heq
    · exact .inl heq
    · exact .inr heq

end H2Connection

end milli_http.h2
