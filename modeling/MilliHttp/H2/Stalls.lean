-- Where the receive loop of an HTTP/2 server stands when a feed ends, and why a feed of no bytes
-- shows the application nothing from there, whatever it has read.
import MilliHttp.H2.Writes

open bytes method
open method.Method (keeps_pure keeps_seq bind_run get_run)

namespace milli_http.h2.stalls

open hpack H2Connection

variable {L : Limits} {c c' : H2Connection L}

/-- A DATA frame in progress has bytes in the receive buffer that wait for room. -/
def recv_blocked (c : H2Connection L) : Bool := c.partial_data.isSome && !c.io.recv_buf.isEmpty

/-! ## What the application can see -/

/-- What the application sees of a stream. -/
def shown (s : H2Stream) := (s.id, s.headers_data, s.headers_received, s.data_buf, s.fin_received)

/-- No event, no header and no body byte is there that was not there before. -/
structure Quiet (c c' : H2Connection L) : Prop where
  events : c'.events = c.events
  streams : (c'.streams.map shown).Sublist (c.streams.map shown)

instance (c c' : H2Connection L) : Decidable (Quiet c c') :=
  decidable_of_iff (c'.events = c.events ∧ (c'.streams.map shown).Sublist (c.streams.map shown))
    ⟨fun ⟨h₁, h₂⟩ => ⟨h₁, h₂⟩, fun h => ⟨h.events, h.streams⟩⟩

instance : IsPreorder (H2Connection L) Quiet where
  refl _ := ⟨rfl, List.Sublist.refl _⟩
  trans _ _ _ h₁ h₂ := ⟨h₂.events.trans h₁.events, h₂.streams.trans h₁.streams⟩

theorem Quiet.of_same (hevents : c'.events = c.events) (hstreams : c'.streams = c.streams) :
    Quiet c c' := by
  refine ⟨hevents, ?_⟩
  rw [hstreams]

theorem quiet_reap (c : H2Connection L) : Quiet c c.reap := ⟨rfl, List.filter_sublist.map _⟩

theorem quiet_recredited (h : Recredited c c') : Quiet c c' := by
  obtain ⟨hstreams, sent, bytes, -, heq⟩ := h
  refine ⟨by rw [heq], ?_⟩
  have hshown : ∀ l : List H2Stream, l.map shown = (l.map uncredited).map shown := by
    intro l
    rw [List.map_map]
    exact List.map_congr_left fun _ _ => rfl
  rw [hshown, hstreams, ← hshown]

theorem quiet_generate_output (c : H2Connection L) : Quiet c c.generate_output := by
  obtain ⟨bytes, sent, settings_sent, -, heq⟩ := generate_output_cases c
  rw [heq]
  refine IsTrans.trans _ _ _ ?_ (quiet_recredited (recredited_flush _))
  exact .of_same rfl rfl

/-! ## What the receive loop reads -/

/-- The receive buffer, and how far the preface and the DATA frame in progress have come. -/
def recv_side (c : H2Connection L) :=
  (c.role, c.preface_validated, c.preface_bytes_seen, c.io.recv_buf,
    c.partial_data.map fun pd => (pd.data_remaining, pd.pad_remaining))

theorem recv_side_abandon (stream_id : Nat) (c : H2Connection L) :
    recv_side (c.abandon_partial_data stream_id) = recv_side c := by
  unfold abandon_partial_data
  rcases hold : c.partial_data with _ | pd
  · simp [recv_side, hold]
  · by_cases hid : pd.stream_id = stream_id
    · simp [recv_side, hold, hid]
    · simp [recv_side, hold, hid]

theorem notes_recv_side : KeptByCredit (L := L) (Method.Same recv_side) where
  note h := by
    simp only [counted, Prod.mk.injEq] at h
    simp [Method.Same, recv_side, h]
  queue _ _ _ _ := rfl
  prefaced _ := rfl
  credit h := by
    obtain ⟨-, sent, bytes, -, heq⟩ := h
    rw [heq]
    rfl

theorem recv_side_ensure (stream_id : Nat) (c : H2Connection L) :
    recv_side (c.ensure_stream stream_id).2 = recv_side c :=
  notes_recv_side.ensure_stream (fun _ => rfl) (fun _ _ => rfl) c

theorem recv_side_generate_output (c : H2Connection L) :
    recv_side c.generate_output = recv_side c := notes_recv_side.generate_output c

theorem recv_side_credit (stream_id n : Nat) (c : H2Connection L) :
    recv_side (c.send_window_update stream_id n) = recv_side c :=
  notes_recv_side.credit (recredited_send_window_update stream_id n c)

theorem recv_side_send_headers (stream_id : Nat) (headers : List Header) (end_stream : Bool)
    (c : H2Connection L) :
    recv_side (send_headers stream_id headers end_stream c).2 = recv_side c :=
  notes_recv_side.send_headers (recv_side_ensure stream_id) (fun _ => rfl) headers c

/-- No call of the application moves the receive loop. -/
theorem recv_side_op (o : Op) (c : H2Connection L) : recv_side (o.apply c) = recv_side c := by
  cases o with
  | generate_output => exact recv_side_generate_output c
  | poll_output len => exact notes_recv_side.poll_output (fun _ _ _ => rfl) len c
  | poll_event => rfl
  | send_headers stream_id headers end_stream =>
    exact recv_side_send_headers stream_id headers end_stream c
  | open_stream headers end_stream =>
    exact notes_recv_side.open_stream (fun _ _ => rfl)
      (fun stream_id => recv_side_send_headers stream_id headers end_stream) c
  | send_data stream_id data end_stream =>
    exact notes_recv_side.send_data (fun _ _ _ _ => rfl) (fun _ _ => rfl) (fun _ _ => rfl)
      (fun _ => rfl) data end_stream c
  | send_goaway error_code => exact notes_recv_side.send_goaway error_code c
  | recv_headers stream_id => exact notes_recv_side.recv_headers (fun _ _ => rfl) (fun _ => rfl) c
  | recv_body stream_id len => exact notes_recv_side.recv_body (fun _ _ => rfl) len c
  | discard_body stream_id error_code =>
    exact notes_recv_side.discard_body (fun c => recv_side_abandon stream_id c) c
  | set_timeouts config now => rfl
  | handle_timeout now => exact notes_recv_side.handle_timeout now c
  | note_recv_activity now => rfl

/-! ## Frames of the peer -/

theorem recv_side_handle_frame (hdr : H2FrameHeader) (payload : Bytes) (c : H2Connection L) :
    recv_side (handle_frame hdr payload c).2 = recv_side c := by
  refine notes_recv_side.handle_frame (fun _ => ?_) (fun _ => ?_) ?_ ?_ fun _ => ?_
  · exact notes_recv_side.handle_headers (fun _ _ => rfl) (fun _ _ => rfl)
      (recv_side_ensure hdr.stream_id) (fun _ => rfl) (fun _ _ => rfl) (fun _ _ => rfl) payload c
  · exact notes_recv_side.handle_continuation (fun _ => rfl) (fun _ => rfl) c
  · exact notes_recv_side.handle_settings (fun _ _ => rfl) (fun _ _ => rfl) hdr payload c
  · exact notes_recv_side.handle_window_update (fun _ _ => rfl) (fun _ _ => rfl) payload c
  · exact notes_recv_side.handle_rst_stream (fun c => recv_side_abandon hdr.stream_id c) payload c

/-! ## Rounds -/

/-- The bytes are the beginning of a frame that cannot be processed yet, by their length alone. -/
def Incomplete (buf : Bytes) : Prop :=
  buf.length < 9 ∨
    ((decode_frame_header buf).frame_type = .Data ∧
      buf.length < data_header_len (decode_frame_header buf)) ∨
    ((decode_frame_header buf).frame_type ≠ .Data ∧
      buf.length < 9 + (decode_frame_header buf).length)

theorem data_round_incomplete {hdr : H2FrameHeader}
    (h : c.io.recv_buf.length < data_header_len hdr) :
    c.data_round hdr = .wait ∨ ∃ e, c.data_round hdr = .refuse e := by
  unfold data_round
  by_cases hid : hdr.stream_id = 0
  · rw [if_pos hid]
    exact .inr ⟨_, rfl⟩
  · rw [if_neg hid, if_pos h]
    exact .inl rfl

theorem whole_round_incomplete {hdr : H2FrameHeader} (h : c.io.recv_buf.length < 9 + hdr.length) :
    c.whole_round hdr = .wait ∨ ∃ e, c.whole_round hdr = .refuse e := by
  unfold whole_round
  by_cases hbuf : L.BUF < 9 + hdr.length
  · rw [if_pos hbuf]
    exact .inr ⟨_, rfl⟩
  · rw [if_neg hbuf, if_pos h]
    exact .inl rfl

/-- Before a frame is there, the loop waits for it or refuses it. -/
theorem round_incomplete (hidle : c.partial_data = none) (h : Incomplete c.io.recv_buf) :
    c.round = .wait ∨ ∃ e, c.round = .refuse e := by
  unfold H2Connection.round
  rw [hidle, if_neg (by simp)]
  by_cases hlen : c.io.recv_buf.length < 9
  · rw [if_pos hlen]
    exact .inl rfl
  · rw [if_neg hlen]
    dsimp only
    split
    · exact .inr ⟨_, rfl⟩
    · split
      · exact .inr ⟨_, rfl⟩
      · rcases h with h | ⟨htype, h⟩ | ⟨htype, h⟩
        · exact absurd h hlen
        · rw [if_pos htype]
          exact data_round_incomplete h
        · rw [if_neg htype]
          exact whole_round_incomplete h

/-- What the lengths are in a round. -/
def There (c : H2Connection L) : Round → Prop
  | .pump => c.partial_data.isSome = true
  | .wait => c.partial_data = none ∧ Incomplete c.io.recv_buf
  | .refuse _ => True
  | .data hdr _ _ => c.partial_data = none ∧ data_header_len hdr ≤ c.io.recv_buf.length
  | .frame hdr _ => c.partial_data = none ∧ 9 + hdr.length ≤ c.io.recv_buf.length

theorem round_there (c : H2Connection L) : There c c.round := by
  unfold H2Connection.round
  by_cases hpart : c.partial_data.isSome = true
  · rw [if_pos hpart]
    exact hpart
  · have hidle : c.partial_data = none := by simpa using hpart
    rw [if_neg hpart]
    by_cases hlen : c.io.recv_buf.length < 9
    · rw [if_pos hlen]
      exact ⟨hidle, .inl hlen⟩
    · rw [if_neg hlen]
      dsimp only
      split
      · trivial
      · split
        · trivial
        · split
          · rename_i htype
            unfold data_round
            split
            · trivial
            · split
              · exact ⟨hidle, .inr (.inl ⟨htype, ‹_›⟩)⟩
              · split
                · trivial
                · split
                  · trivial
                  · split
                    · trivial
                    · exact ⟨hidle, Nat.not_lt.mp ‹_›⟩
          · rename_i htype
            unfold whole_round
            split
            · trivial
            · split
              · exact ⟨hidle, .inr (.inr ⟨htype, ‹_›⟩)⟩
              · exact ⟨hidle, Nat.not_lt.mp ‹_›⟩

/-! ## The DATA frame in progress -/

/-- A DATA frame in progress misses some of its payload or of its padding. -/
def Unfinished (c : H2Connection L) : Prop :=
  ∀ pd ∈ c.partial_data, ¬ (pd.data_remaining = 0 ∧ pd.pad_remaining = 0)

/-- The connection while its DATA frame in progress is worked on. -/
def taken_out (c : H2Connection L) : H2Connection L := { c with partial_data := none }

theorem pump_partial_data_eq {pd : PartialData} (hpd : c.partial_data = some pd) :
    c.pump_partial_data =
      let paid := pump_payload pd (taken_out c)
      let padded := pump_padding paid.1 paid.2
      if padded.1.data_remaining = 0 ∧ padded.1.pad_remaining = 0 then finish_data padded.1 padded.2
      else { padded.2 with partial_data := some padded.1 } := by
  unfold pump_partial_data
  rw [hpd]
  rfl

theorem pump_payload_recv_le (pd : PartialData) (c : H2Connection L) :
    (pump_payload pd c).2.io.recv_buf.length ≤ c.io.recv_buf.length := by
  rcases pump_payload_cases pd c with heq | ⟨stream, n, -, -, -, -, heq⟩ | ⟨n, -, -, -, heq⟩
  · simp [heq]
  · rw [heq]
    simp [push_event, drain_recv, modify_stream, H2Io.drain_recv]
  · rw [heq]
    have hside := recv_side_credit 0 n (c.drain_recv n)
    simp only [recv_side, Prod.mk.injEq] at hside
    dsimp only
    rw [hside.2.2.2.1]
    simp [drain_recv, H2Io.drain_recv]

theorem finish_data_rest (pd : PartialData) (c : H2Connection L) :
    (finish_data pd c).io = c.io ∧ (finish_data pd c).partial_data = c.partial_data := by
  unfold finish_data
  split
  · dsimp only
    split
    · exact ⟨rfl, rfl⟩
    · exact ⟨rfl, rfl⟩
  · exact ⟨rfl, rfl⟩

/-- A round on a DATA frame in progress takes no bytes back, and leaves it unfinished or gone. -/
theorem pump_leaves {pd : PartialData} (hpd : c.partial_data = some pd) :
    c.pump_partial_data.io.recv_buf.length ≤ c.io.recv_buf.length ∧
      Unfinished c.pump_partial_data := by
  rw [pump_partial_data_eq hpd]
  have hle : (pump_payload pd (taken_out c)).2.io.recv_buf.length ≤ c.io.recv_buf.length :=
    pump_payload_recv_le pd (taken_out c)
  have hheld : (pump_payload pd (taken_out c)).2.partial_data = none :=
    pump_payload_partial_data pd (taken_out c)
  obtain ⟨n, left, -, hpad⟩ := pump_padding_cases (pump_payload pd (taken_out c)).1
    (pump_payload pd (taken_out c)).2
  generalize pump_payload pd (taken_out c) = paid at hle hheld hpad
  have hlen : (paid.2.drain_recv n).io.recv_buf.length ≤ c.io.recv_buf.length := by
    simp only [drain_recv, H2Io.drain_recv, List.length_drop]
    omega
  dsimp only
  rw [hpad]
  split
  · obtain ⟨hio, hnone⟩ := finish_data_rest { paid.1 with pad_remaining := left } (paid.2.drain_recv n)
    refine ⟨?_, ?_⟩
    · rw [hio]
      exact hlen
    · intro pd' hpd'
      rw [hnone] at hpd'
      cases hheld.symm.trans hpd'
  · rename_i hmore
    refine ⟨hlen, ?_⟩
    rintro pd' hpd'
    cases hpd'
    exact hmore

theorem pump_without_bytes {pd : PartialData} (hpd : c.partial_data = some pd)
    (hempty : c.io.recv_buf = []) (h : Unfinished c) : c.pump_partial_data = c := by
  have hempty' : (taken_out c).io.recv_buf = [] := hempty
  have hdrained : (taken_out c).drain_recv 0 = taken_out c := rfl
  have hpayload : pump_payload pd (taken_out c) = (pd, taken_out c) := by
    unfold pump_payload
    exact if_pos (.inr hempty)
  have hpadding : pump_padding pd (taken_out c) = (pd, taken_out c) := by
    unfold pump_padding
    split
    · simp [hempty', hdrained]
    · rfl
  rw [pump_partial_data_eq hpd, hpayload]
  dsimp only
  rw [hpadding]
  dsimp only
  rw [if_neg (h pd hpd), ← hpd]
  rfl

/-! ## The receive loop -/

/-- Nothing of what is in the receive buffer can be worked on. -/
structure Stopped (c : H2Connection L) : Prop where
  unfinished : Unfinished c
  waits : c.partial_data = none → Incomplete c.io.recv_buf

/-- How much work the loop has left. -/
def work (c : H2Connection L) : Nat := c.io.recv_buf.length + if c.partial_data.isSome then 1 else 0

theorem pump_works (h : c.partial_data.isSome = true) :
    Unfinished c.pump_partial_data ∧
      (c.pump_partial_data.partial_data = none → work c.pump_partial_data < work c) := by
  obtain ⟨pd, hpd⟩ := Option.isSome_iff_exists.mp h
  obtain ⟨hle, hleft⟩ := pump_leaves hpd
  refine ⟨hleft, fun hgone => ?_⟩
  unfold work
  rw [hgone, if_pos h, if_neg (by simp)]
  omega

/-- A round that goes on does some of the work; one that stops leaves nothing to do. -/
theorem process_frame_works {progress : Progress} (h : process_frame c = (.ok progress, c')) :
    (progress = .Continue → work c' < work c) ∧ (progress = .Break → Stopped c') := by
  have hthere := round_there c
  rw [process_frame_eq] at h
  cases hround : c.round with
  | pump =>
    rw [hround] at h hthere
    obtain ⟨hleft, hworks⟩ := pump_works hthere
    cases h
    rcases hpart : c.pump_partial_data.partial_data with _ | pd
    · exact ⟨fun _ => hworks hpart, nofun⟩
    · refine ⟨nofun, fun _ => ⟨hleft, fun hnone => ?_⟩⟩
      rw [hpart] at hnone
      cases hnone
  | wait =>
    rw [hround] at h hthere
    obtain ⟨hidle, hshort⟩ := hthere
    cases h
    refine ⟨nofun, fun _ => ⟨fun pd hpd => ?_, fun _ => hshort⟩⟩
    rw [hidle] at hpd
    cases hpd
  | refuse e =>
    rw [hround] at h
    cases h
  | data hdr data_total pad_total =>
    rw [hround] at h hthere
    obtain ⟨hidle, hlen⟩ := hthere
    cases h
    refine ⟨fun _ => ?_, nofun⟩
    have hheader : 9 ≤ data_header_len hdr := by
      unfold data_header_len
      split <;> omega
    simp only [work, start_data, H2Io.drain_recv, List.length_drop, hidle, Option.isSome_some,
      Option.isSome_none, if_true]
    omega
  | frame hdr payload =>
    rw [hround] at h hthere
    rw [take_frame_run] at h
    obtain ⟨hidle, hlen⟩ := hthere
    have hside := recv_side_handle_frame hdr payload c
    rcases hrun : handle_frame hdr payload c with ⟨_ | _, c₁⟩
    · rw [hrun] at h
      cases h
    · rw [hrun] at h hside
      cases h
      refine ⟨fun _ => ?_, nofun⟩
      simp only [recv_side, Prod.mk.injEq] at hside
      obtain ⟨_, _, _, hrecv, hpart⟩ := hside
      have hidle₁ : c₁.partial_data = none := by simpa [hidle] using hpart
      simp only [work, drain_recv, H2Io.drain_recv, List.length_drop, hrecv, hidle, hidle₁]
      omega

/-- The loop has turns enough to stop by itself. -/
theorem process_frames_stop {fuel : Nat} (hfuel : work c < fuel)
    (h : process_frames fuel c = (.ok (), c')) : Stopped c' := by
  induction fuel generalizing c with
  | zero => exact absurd hfuel (Nat.not_lt_zero _)
  | succ fuel ih =>
    unfold process_frames at h
    obtain ⟨progress, c₁, hrun, hrest⟩ := Method.bind_eq_ok h
    obtain ⟨hgo, hstop⟩ := process_frame_works hrun
    cases progress with
    | Continue =>
      have hless := hgo rfl
      exact ih (by omega) hrest
    | Break =>
      cases hrest
      exact hstop rfl

/-! ## Feeds -/

/-- A server between two calls. -/
structure Settled (c : H2Connection L) : Prop where
  preface : c.role = .Server → c.preface_validated = false →
    c.io.recv_buf = [] ∧ c.preface_bytes_seen < CONNECTION_PREFACE.length
  stopped : Stopped c

theorem Unfinished.of_same (h : Unfinished c)
    (hpart : c'.partial_data.map (fun pd => (pd.data_remaining, pd.pad_remaining)) =
      c.partial_data.map fun pd => (pd.data_remaining, pd.pad_remaining)) : Unfinished c' := by
  intro pd' hpd'
  rw [Option.mem_def.mp hpd'] at hpart
  rcases hold : c.partial_data with _ | pd
  · simp [hold] at hpart
  · have hmore := h pd hold
    simp only [hold, Option.map_some, Option.some.injEq, Prod.mk.injEq] at hpart
    rw [hpart.1, hpart.2]
    exact hmore

theorem Stopped.of_same (h : Stopped c) (hrecv : c'.io.recv_buf = c.io.recv_buf)
    (hpart : c'.partial_data.map (fun pd => (pd.data_remaining, pd.pad_remaining)) =
      c.partial_data.map fun pd => (pd.data_remaining, pd.pad_remaining)) : Stopped c' := by
  refine ⟨h.unfinished.of_same hpart, fun hnone => ?_⟩
  rw [hrecv]
  refine h.waits ?_
  rw [hnone] at hpart
  simpa using hpart.symm

theorem Settled.of_same (h : Settled c) (hside : recv_side c' = recv_side c) : Settled c' := by
  simp only [recv_side, Prod.mk.injEq] at hside
  obtain ⟨hrole, hvalidated, hseen, hrecv, hpart⟩ := hside
  refine ⟨?_, h.stopped.of_same hrecv hpart⟩
  rw [hrole, hvalidated, hrecv, hseen]
  exact h.preface

theorem settled_new (role : Role) : Settled (new L role) := by
  have hlen : 0 < CONNECTION_PREFACE.length := by decide
  exact ⟨fun _ _ => ⟨rfl, hlen⟩, nofun, fun _ => .inl (Nat.zero_lt_succ 8)⟩

theorem stopped_reap (h : Stopped c) : Stopped c.reap := h.of_same rfl rfl

/-- How far the preface has come. -/
def preface_side (c : H2Connection L) := (c.role, c.preface_validated, c.preface_bytes_seen)

theorem preface_of_recv_side (h : recv_side c' = recv_side c) : preface_side c' = preface_side c := by
  simp only [recv_side, Prod.mk.injEq] at h
  simp [preface_side, h]

theorem preface_side_payload (pd : PartialData) (c : H2Connection L) :
    preface_side (pump_payload pd c).2 = preface_side c := by
  rcases pump_payload_cases pd c with heq | ⟨stream, n, -, -, -, -, heq⟩ | ⟨n, -, -, -, heq⟩
  · rw [heq]
  · rw [heq]
    rfl
  · rw [heq]
    exact (preface_of_recv_side (recv_side_credit 0 n (c.drain_recv n))).trans rfl

theorem preface_side_finish (pd : PartialData) (c : H2Connection L) :
    preface_side (finish_data pd c) = preface_side c := by
  unfold finish_data
  split
  · dsimp only
    split <;> rfl
  · rfl

theorem preface_side_pump (c : H2Connection L) :
    preface_side c.pump_partial_data = preface_side c := by
  rcases hpd : c.partial_data with _ | pd
  · unfold pump_partial_data
    rw [hpd]
  · have hpayload : preface_side (pump_payload pd (taken_out c)).2 = preface_side c :=
      preface_side_payload pd (taken_out c)
    obtain ⟨n, left, -, hpad⟩ := pump_padding_cases (pump_payload pd (taken_out c)).1
      (pump_payload pd (taken_out c)).2
    rw [pump_partial_data_eq hpd, ← hpayload]
    dsimp only
    rw [hpad]
    split
    · exact preface_side_finish _ _
    · rfl

theorem preface_side_process_frame : Method.Keeps (Method.Same preface_side)
    (process_frame : Method (H2Connection L) Error Progress) := by
  intro c
  rw [process_frame_eq]
  cases hround : c.round with
  | pump => exact preface_side_pump c
  | wait => rfl
  | refuse e => rfl
  | data hdr data_total pad_total => rfl
  | frame hdr payload =>
    rw [take_frame_run]
    have hside := preface_of_recv_side (recv_side_handle_frame hdr payload c)
    rcases hrun : handle_frame hdr payload c with ⟨_ | _, c₁⟩
    · rw [hrun] at hside
      exact hside
    · rw [hrun] at hside
      exact hside

theorem preface_side_process_frames (fuel : Nat) : Method.Keeps (Method.Same preface_side)
    (process_frames fuel : Method (H2Connection L) Error Unit) := by
  induction fuel with
  | zero => exact keeps_pure _
  | succ fuel ih =>
    refine keeps_seq preface_side_process_frame fun progress => ?_
    cases progress with
    | Continue => exact ih
    | Break => exact keeps_pure _

/-- How many of the received bytes are checked against the preface. -/
def preface_len (c : H2Connection L) : Nat :=
  min (CONNECTION_PREFACE.length - c.preface_bytes_seen) c.io.recv_buf.length

/-- Bytes of the preface were taken. -/
def prefaced (c : H2Connection L) : H2Connection L :=
  { c.drain_recv (preface_len c) with
    preface_bytes_seen := c.preface_bytes_seen + preface_len c
    preface_validated := c.preface_validated ||
      decide (c.preface_bytes_seen + preface_len c ≥ CONNECTION_PREFACE.length) }

theorem validate_client_preface_run (c : H2Connection L) :
    validate_client_preface c = (.ok (), prefaced c) ∨
      validate_client_preface c = (.error .InvalidState, c) := by
  have hlen : min (CONNECTION_PREFACE.drop c.preface_bytes_seen).length c.io.recv_buf.length =
      preface_len c := by
    rw [List.length_drop]
    rfl
  unfold validate_client_preface
  rw [Method.get_bind_run]
  rw [Method.require_bind_run, hlen]
  split
  · exact .inl rfl
  · exact .inr rfl

/-- Before the preface is there as a whole everything received belongs to it. -/
theorem prefaced_takes_all (h : (prefaced c).preface_validated = false) :
    (prefaced c).io.recv_buf = [] ∧ (prefaced c).preface_bytes_seen < CONNECTION_PREFACE.length := by
  simp only [prefaced, Bool.or_eq_false_iff, decide_eq_false_iff_not, Nat.not_le] at h
  refine ⟨?_, h.2⟩
  have hall : preface_len c = c.io.recv_buf.length := by
    have hmore := h.2
    unfold preface_len at hmore ⊢
    omega
  simp [prefaced, drain_recv, H2Io.drain_recv, hall]

/-- A feed that succeeds leaves nothing behind that can be worked on. -/
theorem process_recv_settles (hunfinished : Unfinished c) (h : process_recv c = (.ok (), c')) :
    Settled c' := by
  -- the frames, once there is no preface to wait for
  have hframes : ∀ c : H2Connection L, ¬ (c.role = .Server ∧ c.preface_validated = false) →
      (do
        process_frames (L := L) c.rounds
        Method.modify reap : Method (H2Connection L) Error Unit) c = (.ok (), c') → Settled c' := by
    intro c hvalidated h
    obtain ⟨_, c₁, hrun, h⟩ := Method.bind_eq_ok h
    cases h
    have hwork : work c < c.rounds := by
      unfold work rounds
      split <;> omega
    have hside := preface_side_process_frames c.rounds c
    rw [hrun] at hside
    obtain ⟨hrole, hval, -⟩ : c₁.role = c.role ∧ c₁.preface_validated = c.preface_validated ∧
        c₁.preface_bytes_seen = c.preface_bytes_seen := by simpa [Method.Same, preface_side] using hside
    refine ⟨fun hserver hno => ?_, stopped_reap (process_frames_stop hwork hrun)⟩
    exact absurd ⟨hrole.symm.trans hserver, hval.symm.trans hno⟩ hvalidated
  unfold process_recv at h
  rw [bind_run, get_run] at h
  dsimp only at h
  by_cases hpreface : c.role = .Server ∧ c.preface_validated = false
  · rw [if_pos hpreface, bind_run] at h
    rcases validate_client_preface_run c with hrun | hrun
    · rw [hrun] at h
      dsimp only at h
      rw [bind_run, get_run] at h
      dsimp only at h
      by_cases hwaits : (prefaced c).role = .Server ∧ (prefaced c).preface_validated = false
      · rw [if_pos hwaits] at h
        cases h
        obtain ⟨hempty, hmore⟩ := prefaced_takes_all hwaits.2
        refine ⟨fun _ _ => ⟨hempty, hmore⟩, hunfinished, fun _ => ?_⟩
        rw [hempty]
        exact .inl (Nat.zero_lt_succ 8)
      · rw [if_neg hwaits] at h
        exact hframes _ hwaits h
    · rw [hrun] at h
      cases h
  · rw [if_neg hpreface, bind_run, get_run] at h
    dsimp only at h
    rw [if_neg hpreface] at h
    exact hframes c hpreface h

theorem feed_data_run (data : Bytes) (c : H2Connection L) :
    feed_data data c =
      if c.generate_output.io.recv_buf.length + data.length ≤ L.BUF then
        process_recv (c.generate_output.receive data)
      else (.error (.BufferTooSmall (c.generate_output.io.recv_buf.length + data.length)),
        c.generate_output) := by
  unfold feed_data
  rw [Method.modify_bind_run]
  rw [Method.get_bind_run]
  rw [Method.require_bind_run]
  rfl

theorem unfinished_generate_output (h : Unfinished c) : Unfinished c.generate_output := by
  have hside := recv_side_generate_output c
  simp only [recv_side, Prod.mk.injEq] at hside
  exact h.of_same hside.2.2.2.2

/-- The receive buffer does not grow. -/
def Shrinks (c c' : H2Connection L) : Prop := c'.io.recv_buf.length ≤ c.io.recv_buf.length

instance : IsPreorder (H2Connection L) Shrinks where
  refl _ := Nat.le_refl _
  trans _ _ _ h₁ h₂ := Nat.le_trans h₂ h₁

theorem shrinks_of_recv_side (h : recv_side c' = recv_side c) : Shrinks c c' := by
  simp only [recv_side, Prod.mk.injEq] at h
  exact Nat.le_of_eq (congrArg List.length h.2.2.2.1)

theorem shrinks_drain (n : Nat) (c : H2Connection L) : Shrinks c (c.drain_recv n) := by
  simp [Shrinks, drain_recv, H2Io.drain_recv]

theorem process_frame_shrinks :
    Method.Keeps Shrinks (process_frame : Method (H2Connection L) Error Progress) := by
  intro c
  have hthere := round_there c
  rw [process_frame_eq]
  cases hround : c.round with
  | pump =>
    rw [hround] at hthere
    obtain ⟨pd, hpd⟩ := Option.isSome_iff_exists.mp hthere
    exact (pump_leaves hpd).1
  | wait => exact refl c
  | refuse e => exact refl c
  | data hdr data_total pad_total =>
    show (c.io.drain_recv (data_header_len hdr)).recv_buf.length ≤ _
    simp [H2Io.drain_recv]
  | frame hdr payload =>
    rw [take_frame_run]
    have hside := shrinks_of_recv_side (recv_side_handle_frame hdr payload c)
    rcases hrun : handle_frame hdr payload c with ⟨_ | _, c₁⟩
    · rw [hrun] at hside
      exact hside
    · rw [hrun] at hside
      exact IsTrans.trans _ _ _ hside (shrinks_drain _ c₁)

theorem process_frames_shrinks (fuel : Nat) :
    Method.Keeps Shrinks (process_frames fuel : Method (H2Connection L) Error Unit) := by
  induction fuel with
  | zero => exact keeps_pure _
  | succ fuel ih =>
    refine keeps_seq process_frame_shrinks fun progress => ?_
    cases progress with
    | Continue => exact ih
    | Break => exact keeps_pure _

theorem process_recv_shrinks :
    Method.Keeps Shrinks (process_recv : Method (H2Connection L) Error Unit) := by
  intro c
  have hreap : ∀ c : H2Connection L, Shrinks c c.reap := fun c => Nat.le_refl _
  have hframes : ∀ c : H2Connection L, Shrinks c ((do
      process_frames (L := L) c.rounds
      Method.modify reap : Method (H2Connection L) Error Unit) c).2 := fun c =>
    keeps_seq (process_frames_shrinks _) (fun _ => Method.keeps_modify hreap) c
  unfold process_recv
  rw [bind_run, get_run]
  dsimp only
  by_cases hpreface : c.role = .Server ∧ c.preface_validated = false
  · rw [if_pos hpreface, bind_run]
    rcases validate_client_preface_run c with hrun | hrun
    · rw [hrun]
      have hdrained : Shrinks c (prefaced c) := shrinks_drain _ c
      dsimp only
      rw [bind_run, get_run]
      dsimp only
      split
      · exact hdrained
      · exact IsTrans.trans _ _ _ hdrained (hframes _)
    · rw [hrun]
      exact refl c
  · rw [if_neg hpreface, bind_run, get_run]
    dsimp only
    rw [if_neg hpreface]
    exact hframes c

theorem feed_nothing_run (c : H2Connection L) (h : c.io.recv_buf.length ≤ L.BUF) :
    feed_data [] c = process_recv c.generate_output := by
  have hsame : c.generate_output.receive [] = c.generate_output := by
    unfold receive
    rw [List.append_nil]
  have hside := recv_side_generate_output c
  simp only [recv_side, Prod.mk.injEq] at hside
  have hlen : c.generate_output.io.recv_buf.length + ([] : Bytes).length ≤ L.BUF := by
    rw [hside.2.2.2.1]
    exact h
  rw [feed_data_run, hsame, if_pos hlen]

theorem feed_timed_nothing (now : Nat) (c : H2Connection L) :
    feed_data_timed [] now c = feed_data [] c := by
  unfold feed_data_timed
  rw [Method.modify_bind_run]
  rw [if_pos rfl]

/-! ## A feed of no bytes -/

theorem process_frame_stopped (h : Stopped c) (hblocked : recv_blocked c = false) :
    process_frame c = (.ok .Break, c) ∨ ∃ e, process_frame c = (.error e, c) := by
  rw [process_frame_eq]
  rcases hpart : c.partial_data with _ | pd
  · rcases round_incomplete hpart (h.waits hpart) with hround | ⟨e, hround⟩
    · rw [hround]
      exact .inl rfl
    · rw [hround]
      exact .inr ⟨e, rfl⟩
  · have hempty : c.io.recv_buf = [] := by simpa [recv_blocked, hpart] using hblocked
    have hround : c.round = .pump := by
      unfold H2Connection.round
      rw [hpart]
      rfl
    have hpump := pump_without_bytes hpart hempty h.unfinished
    rw [hround]
    refine .inl ?_
    show (Except.ok (if c.pump_partial_data.partial_data.isSome then Progress.Break else .Continue),
      c.pump_partial_data) = _
    rw [hpump, hpart]
    rfl

/-- The loop stops at once, and at most closed streams are dropped. -/
theorem quiet_process_recv (h : Settled c) (hblocked : recv_blocked c = false) :
    Quiet c (process_recv c).2 := by
  have hframes : Quiet c ((do
      process_frames (L := L) c.rounds
      Method.modify reap : Method (H2Connection L) Error Unit) c).2 := by
    have hrounds : c.rounds = (c.io.recv_buf.length + 1) + 1 := rfl
    rw [bind_run, hrounds, process_frames, bind_run]
    rcases process_frame_stopped h.stopped hblocked with hrun | ⟨e, hrun⟩
    · rw [hrun]
      exact quiet_reap c
    · rw [hrun]
      exact refl c
  unfold process_recv
  rw [bind_run, get_run]
  dsimp only
  by_cases hpreface : c.role = .Server ∧ c.preface_validated = false
  · rw [if_pos hpreface, bind_run]
    rcases validate_client_preface_run c with hrun | hrun
    · obtain ⟨hempty, hmore⟩ := h.preface hpreface.1 hpreface.2
      have hlen : preface_len c = 0 := by simp [preface_len, hempty]
      have hwaits : (prefaced c).role = .Server ∧ (prefaced c).preface_validated = false := by
        refine ⟨hpreface.1, ?_⟩
        simp only [prefaced, hpreface.2, hlen, Bool.false_or, decide_eq_false_iff_not]
        omega
      rw [hrun]
      dsimp only
      rw [bind_run, get_run]
      dsimp only
      rw [if_pos hwaits]
      exact .of_same rfl rfl
    · rw [hrun]
      exact refl c
  · rw [if_neg hpreface, bind_run, get_run]
    dsimp only
    rw [if_neg hpreface]
    exact hframes

/-- A feed of no bytes shows the application nothing. -/
theorem quiet_feed_nothing (h : Settled c) (hfits : c.io.recv_buf.length ≤ L.BUF)
    (hblocked : recv_blocked c = false) : Quiet c (feed_data [] c).2 := by
  have hside := recv_side_generate_output c
  have hblocked' : recv_blocked c.generate_output = false := by
    simp only [recv_side, Prod.mk.injEq] at hside
    obtain ⟨_, _, _, hrecv, hpart⟩ := hside
    have hsome := congrArg Option.isSome hpart
    simp only [Option.isSome_map] at hsome
    unfold recv_blocked
    rw [hrecv, hsome]
    exact hblocked
  rw [feed_nothing_run c hfits]
  exact IsTrans.trans _ _ _ (quiet_generate_output c)
    (quiet_process_recv (h.of_same hside) hblocked')

end milli_http.h2.stalls
