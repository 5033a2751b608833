-- What a client writes first: the connection preface, and then its SETTINGS.
import MilliHttp.H2.Writes

open bytes method

namespace milli_http.h2.client_start

open H2Connection

variable {L : Limits}

/-! ## The output -/

/-- The SETTINGS frame of a client: its header, and its six parameters. -/
def settings_frame (L : Limits) : Bytes :=
  [0, 0, 36, 0x4, 0, 0, 0, 0, 0] ++ (H2Connection.new L .Client).local_settings.encode_params

/-- What the output has to begin with. -/
def opening (L : Limits) : Bytes := CONNECTION_PREFACE ++ settings_frame L

/-- The bytes a call gives to the network. -/
def output_of (c : H2Connection L) : Call → Bytes
  | .op (.poll_output len) => (c.poll_output len).1.getD []
  | _ => []

/-- The bytes given to the network so far. -/
def output (calls : List (H2Connection L × Call)) : Bytes :=
  calls.flatMap fun x => output_of x.1 x.2

/-- The output begins with the preface and SETTINGS, as far as it goes. -/
def StartsRight (L : Limits) (out : Bytes) : Prop := out <+: opening L ∨ opening L <+: out

instance (L : Limits) (out : Bytes) : Decidable (StartsRight L out) :=
  inferInstanceAs (Decidable (_ ∨ _))

/-! ## The condition -/

/-- A timeout fires. -/
def expired (now : Nat) (c : H2Connection L) : Bool :=
  c.state != .Closed &&
    ((!c.headers_phase_complete &&
        c.timeout_config.header_timeout_us.any fun us => decide (now ≥ deadline c.connection_start us)) ||
      c.timeout_config.idle_timeout_us.any fun us =>
        decide (now ≥ deadline (if c.sent_since_tick then now else c.last_activity) us))

/-- Nothing is sent before the preface. -/
def Prepared (c : H2Connection L) (call : Call) : Prop :=
  c.preface_sent = true ∨
    match call with
    | .op (.send_headers _ _ _) | .op (.open_stream _ _) | .op (.send_data _ _ _)
    | .op (.send_goaway _) => False
    | .op (.handle_timeout now) => expired now c = false
    | _ => True

instance (c : H2Connection L) (call : Call) : Decidable (Prepared c call) :=
  match call with
  | .feed_data _ => .isTrue (.inr trivial)
  | .op o =>
    match o with
    | .send_headers _ _ _ | .open_stream _ _ | .send_data _ _ _ | .send_goaway _ =>
      inferInstanceAs (Decidable (c.preface_sent = true ∨ False))
    | .handle_timeout now => inferInstanceAs (Decidable (c.preface_sent = true ∨ expired now c = false))
    | .generate_output | .poll_output _ | .poll_event | .recv_headers _ | .recv_body _ _
    | .discard_body _ _ | .set_timeouts _ _ | .note_recv_activity _ => .isTrue (.inr trivial)

/-! ## What calls append -/

/-- Bytes are written behind those that are there. -/
structure Appends (c c' : H2Connection L) : Prop where
  bytes : ∃ bytes, c'.io.send_buf = c.io.send_buf ++ bytes
  offset : c'.send_offset = c.send_offset
  preface : c.preface_sent = true → c'.preface_sent = true

instance : IsPreorder (H2Connection L) Appends where
  refl c := ⟨⟨[], by simp⟩, rfl, id⟩
  trans c₁ c₂ c₃ h₁ h₂ := by
    obtain ⟨bytes₁, hbytes₁⟩ := h₁.bytes
    obtain ⟨bytes₂, hbytes₂⟩ := h₂.bytes
    refine ⟨⟨bytes₁ ++ bytes₂, ?_⟩, h₂.offset.trans h₁.offset, fun h => h₂.preface (h₁.preface h)⟩
    rw [hbytes₂, hbytes₁, List.append_assoc]

variable {c c' c₁ c₂ c₃ : H2Connection L}

theorem Appends.trans (h₁ : Appends c₁ c₂) (h₂ : Appends c₂ c₃) : Appends c₁ c₃ :=
  IsTrans.trans _ _ _ h₁ h₂

theorem appends_of_same (hbuf : c'.io.send_buf = c.io.send_buf)
    (hoffset : c'.send_offset = c.send_offset) (hpreface : c'.preface_sent = c.preface_sent) :
    Appends c c' :=
  ⟨⟨[], by rw [hbuf, List.append_nil]⟩, hoffset, fun h => hpreface.trans h⟩

theorem appends_recredited (h : Recredited c c') : Appends c c' := by
  obtain ⟨-, sent, bytes, -, heq⟩ := h
  rw [heq]
  exact ⟨⟨bytes, rfl⟩, rfl, id⟩

theorem notes_append : KeptByCredit (L := L) Appends where
  note h := by
    simp only [counted, Prod.mk.injEq] at h
    exact appends_of_same (by simp [h]) (by simp [h]) (by simp [h])
  queue _ bytes _ _ := ⟨⟨bytes, rfl⟩, rfl, id⟩
  prefaced _ := ⟨⟨[], by rw [List.append_nil]⟩, rfl, fun _ => rfl⟩
  credit := appends_recredited

theorem appends_ensure_stream (stream_id : Nat) (c : H2Connection L) :
    Appends c (c.ensure_stream stream_id).2 :=
  notes_append.ensure_stream (fun _ => appends_of_same rfl rfl rfl)
    (fun _ _ => appends_of_same rfl rfl rfl) c

theorem appends_send_headers (stream_id : Nat) (headers : List hpack.Header) (end_stream : Bool)
    (c : H2Connection L) : Appends c (send_headers stream_id headers end_stream c).2 :=
  notes_append.send_headers (appends_ensure_stream stream_id)
    (fun _ => appends_of_same rfl rfl rfl) headers c

theorem appends_op {o : Op} (ho : ∀ len, o ≠ .poll_output len) (c : H2Connection L) :
    Appends c (o.apply c) := by
  cases o with
  | generate_output => exact notes_append.generate_output c
  | poll_output len => exact absurd rfl (ho len)
  | poll_event => exact appends_of_same rfl rfl rfl
  | send_headers stream_id headers end_stream =>
    exact appends_send_headers stream_id headers end_stream c
  | open_stream headers end_stream =>
    exact notes_append.open_stream (fun _ _ => appends_of_same rfl rfl rfl)
      (fun stream_id => appends_send_headers stream_id headers end_stream) c
  | send_data stream_id data end_stream =>
    exact notes_append.send_data (fun _ bytes _ _ => ⟨⟨bytes, rfl⟩, rfl, id⟩)
      (fun _ _ => appends_of_same rfl rfl rfl) (fun _ _ => appends_of_same rfl rfl rfl)
      (fun _ => appends_of_same rfl rfl rfl) data end_stream c
  | send_goaway error_code => exact notes_append.send_goaway error_code c
  | recv_headers stream_id =>
    exact notes_append.recv_headers (fun _ _ => appends_of_same rfl rfl rfl)
      (fun _ => appends_of_same rfl rfl rfl) c
  | recv_body stream_id len =>
    exact notes_append.recv_body (fun _ _ => appends_of_same rfl rfl rfl) len c
  | discard_body stream_id error_code =>
    exact notes_append.discard_body (fun _ => appends_of_same rfl rfl rfl) c
  | set_timeouts config now => exact appends_of_same rfl rfl rfl
  | handle_timeout now => exact notes_append.handle_timeout now c
  | note_recv_activity now => exact appends_of_same rfl rfl rfl

theorem appends_pump (c : H2Connection L) : Appends c c.pump_partial_data :=
  notes_append.pump (fun _ _ => appends_of_same rfl rfl rfl) (fun _ _ => appends_of_same rfl rfl rfl)
    (fun _ _ _ => appends_of_same rfl rfl rfl) (fun _ _ _ => appends_of_same rfl rfl rfl) c

theorem appends_handle_frame (hdr : H2FrameHeader) (payload : Bytes) (c : H2Connection L) :
    Appends c (handle_frame hdr payload c).2 := by
  refine notes_append.handle_frame (fun _ => ?_) (fun _ => ?_) ?_ ?_ fun _ => ?_
  · exact notes_append.handle_headers (fun _ _ => appends_of_same rfl rfl rfl)
      (fun _ _ => appends_of_same rfl rfl rfl) (appends_ensure_stream hdr.stream_id)
      (fun _ => appends_of_same rfl rfl rfl) (fun _ _ => appends_of_same rfl rfl rfl)
      (fun _ _ => appends_of_same rfl rfl rfl) payload c
  · exact notes_append.handle_continuation (fun _ => appends_of_same rfl rfl rfl)
      (fun _ => appends_of_same rfl rfl rfl) c
  · exact notes_append.handle_settings (fun _ _ => appends_of_same rfl rfl rfl)
      (fun _ _ => appends_of_same rfl rfl rfl) hdr payload c
  · exact notes_append.handle_window_update (fun _ _ => appends_of_same rfl rfl rfl)
      (fun _ _ => appends_of_same rfl rfl rfl) payload c
  · exact notes_append.handle_rst_stream (fun _ => appends_of_same rfl rfl rfl) payload c

theorem appends_step {s : Step} (hs : ∀ len, s ≠ .op (.poll_output len)) (c : H2Connection L) :
    Appends c (s.apply c) := by
  cases s with
  | receive data => exact appends_of_same rfl rfl rfl
  | preface =>
    simp only [Step.apply]
    rcases validate_client_preface_cases c with heq | ⟨_, _, _, heq⟩
    · rw [heq]
      exact refl c
    · rw [heq]
      exact appends_of_same rfl rfl rfl
  | frame =>
    have hstep : Step.apply .frame c = (take_round c.round c).2 := by
      rw [← process_frame_eq]
      rfl
    rw [hstep]
    rcases c.round with _ | _ | e | ⟨hdr, data_total, pad_total⟩ | ⟨hdr, payload⟩
    · exact appends_pump c
    · exact refl c
    · exact refl c
    · exact appends_of_same rfl rfl rfl
    · have hframe := appends_handle_frame hdr payload c
      rw [take_frame_run]
      rcases hrun : handle_frame hdr payload c with ⟨_ | _, c'⟩
      · rw [hrun] at hframe
        exact hframe
      · rw [hrun] at hframe
        exact hframe.trans (appends_of_same rfl rfl rfl)
  | reap => exact appends_of_same rfl rfl rfl
  | op o => exact appends_op (fun len h => hs len (congrArg Step.op h)) c

/-! ## feed_data -/

theorem frame_steps_frame (fuel : Nat) (c : H2Connection L) :
    ∀ s ∈ frame_steps fuel c, s = .frame := by
  induction fuel generalizing c with
  | zero => exact List.forall_mem_nil _
  | succ fuel ih =>
    unfold frame_steps
    refine List.forall_mem_cons.mpr ⟨rfl, ?_⟩
    split
    · exact ih _
    · exact List.forall_mem_nil _

theorem recv_steps_polls_nothing (c : H2Connection L) :
    ∀ s ∈ c.recv_steps, ∀ len, s ≠ .op (.poll_output len) := by
  have hprocess : ∀ c : H2Connection L, ∀ s ∈ c.process_steps, ∀ len,
      s ≠ .op (.poll_output len) := by
    intro c s hs len
    unfold process_steps at hs
    rcases List.mem_append.mp hs with hs | hs
    · rw [frame_steps_frame _ c s hs]
      nofun
    · split at hs
      · rw [List.mem_singleton.mp hs]
        nofun
      · cases hs
  intro s hs len
  unfold recv_steps at hs
  split at hs
  · rcases List.mem_cons.mp hs with rfl | hs
    · nofun
    · split at hs
      · split at hs
        · cases hs
        · exact hprocess _ s hs len
      · cases hs
  · exact hprocess _ s hs len

/-- After its own frames a call of `feed_data` only appends. -/
theorem appends_feed_data (data : Bytes) (c : H2Connection L) :
    Appends c.generate_output (feed_data data c).2 := by
  rw [feed_data_steps]
  unfold feed_steps
  rw [run.final_cons]
  refine run.related (fun c s hok => appends_step hok c) ?_
  intro x hx
  obtain ⟨pre, hpre, -⟩ := run.of_mem_trace hx
  have hmem := hpre.subset (List.mem_append_right pre (List.mem_singleton_self x.2))
  split at hmem
  · rcases List.mem_cons.mp hmem with heq | hmem
    · rw [heq]
      nofun
    · exact recv_steps_polls_nothing _ x.2 hmem
  · cases hmem

/-! ## The first bytes -/

theorem encode_params_length (settings : H2Settings) (h : settings.enable_push = false) :
    settings.encode_params.length = 36 := by
  simp [H2Settings.encode_params, encode_setting, h]

theorem encode_settings (L : Limits) :
    encode_frame (.Settings false (H2Connection.new L .Client).local_settings.encode_params) 128 =
      .ok (settings_frame L) := by
  have hlen := encode_params_length (H2Connection.new L .Client).local_settings rfl
  unfold encode_frame settings_frame
  simp only [H2Frame.parts, hlen]
  rfl

theorem opening_length (L : Limits) : (opening L).length = 69 := by
  have hlen := encode_params_length (H2Connection.new L .Client).local_settings rfl
  simp [opening, settings_frame, hlen, CONNECTION_PREFACE, ascii]

/-- Nothing was written yet. -/
structure Fresh (c : H2Connection L) : Prop where
  preface : c.preface_sent = false
  role : c.role = .Client
  settings : c.local_settings = (H2Connection.new L .Client).local_settings
  buf : c.io.send_buf = []
  offset : c.send_offset = 0
  streams : c.streams = []

/-- What was given out and what waits to be, begins as it has to. -/
structure Begun (out : Bytes) (c : H2Connection L) : Prop where
  preface : c.preface_sent = true
  offset : c.send_offset ≤ c.io.send_buf.length
  bytes : opening L <+: out ++ c.io.send_buf.drop c.send_offset

/-- The invariant of a run. -/
def Ready (out : Bytes) (c : H2Connection L) : Prop := (Fresh c ∧ out = []) ∨ Begun out c

theorem begun_appends {out : Bytes} (h : Begun out c) (ha : Appends c c') : Begun out c' := by
  obtain ⟨bytes, hbytes⟩ := ha.bytes
  have hoffset := h.offset
  refine ⟨ha.preface h.preface, ?_, ?_⟩
  · rw [ha.offset, hbytes, List.length_append]
    omega
  · rw [ha.offset, hbytes, List.drop_append_of_le_length hoffset, ← List.append_assoc]
    exact h.bytes.trans (List.prefix_append _ _)

/-- With room for both, the preface and SETTINGS are the first bytes. -/
theorem begun_generate_output (hbuf : 69 ≤ L.BUF) (h : Fresh c) : Begun [] c.generate_output := by
  have hpreface : c.queue_preface = { c with io := { c.io with send_buf := CONNECTION_PREFACE } } := by
    unfold queue_preface
    rw [h.buf, if_neg (by simp [CONNECTION_PREFACE, ascii]; omega), List.nil_append]
  have hsettings : (send_initial_settings ({ c with io := { c.io with
      send_buf := CONNECTION_PREFACE } } : H2Connection L)).2.io.send_buf = opening L := by
    have hlen := opening_length L
    unfold send_initial_settings
    rw [Method.get_bind_run]
    rw [Method.bind_run]
    unfold queue_frame on_io
    rw [Method.on_run]
    unfold H2Io.queue_frame
    rw [h.settings, encode_settings]
    dsimp only
    rw [if_neg]
    · rfl
    · unfold opening at hlen
      rw [List.length_append] at hlen
      omega
  have hoffset : (send_initial_settings ({ c with io := { c.io with
      send_buf := CONNECTION_PREFACE } } : H2Connection L)).2.send_offset = 0 := by
    rcases send_initial_settings_cases ({ c with io := { c.io with
      send_buf := CONNECTION_PREFACE } } : H2Connection L) with ⟨e, heq⟩ | ⟨data, heq⟩
    · rw [heq]
      exact h.offset
    · rw [heq]
      exact h.offset
  unfold generate_output
  rw [if_neg (by simp [h.preface]), if_pos h.role, hpreface]
  refine begun_appends ?_ (notes_append.credit (recredited_flush _))
  refine ⟨rfl, ?_, ?_⟩
  · exact Nat.le_trans (Nat.le_of_eq hoffset) (Nat.zero_le _)
  · dsimp only
    rw [hoffset, hsettings]
    exact List.prefix_refl _

theorem ready_generate_output {out : Bytes} (hbuf : 69 ≤ L.BUF) (h : Ready out c) :
    Begun out c.generate_output := by
  rcases h with ⟨hfresh, rfl⟩ | hbegun
  · exact begun_generate_output hbuf hfresh
  · exact begun_appends hbegun (notes_append.generate_output c)

theorem begun_poll_output {out : Bytes} (len : Nat) (hbuf : 69 ≤ L.BUF) (h : Ready out c) :
    Begun (out ++ (c.poll_output len).1.getD []) (c.poll_output len).2 := by
  have hbegun := ready_generate_output hbuf h
  have hoffset := hbegun.offset
  have hbytes := hbegun.bytes
  have hpreface := hbegun.preface
  unfold poll_output
  dsimp only
  split
  · rw [Option.getD_none, List.append_nil]
    exact hbegun
  next hmore =>
    generalize hn : min (c.generate_output.io.send_buf.length - c.generate_output.send_offset) len = n
    have hsplit := List.take_append_drop n
      (c.generate_output.io.send_buf.drop c.generate_output.send_offset)
    split
    next hall =>
      refine ⟨hpreface, Nat.le_refl _, ?_⟩
      dsimp only
      rw [List.take_of_length_le (by rw [List.length_drop]; omega), Option.getD_some, List.drop_nil,
        List.append_nil]
      exact hbytes
    next hrest =>
      refine ⟨hpreface, by dsimp only; omega, ?_⟩
      dsimp only
      rw [Option.getD_some, ← List.drop_drop, List.append_assoc, hsplit]
      exact hbytes

/-- Before the preface, what does not send leaves the connection fresh. -/
theorem fresh_op {o : Op} (hpoll : ∀ len, o ≠ .poll_output len) (hgenerate : o ≠ .generate_output)
    (hprepared : Prepared c (.op o)) (h : Fresh c) : Fresh (o.apply c) := by
  have hnone : ∀ stream_id, c.get_stream stream_id = none := by
    intro stream_id
    rw [get_stream, h.streams]
    rfl
  have hquiet : match Call.op o with
      | .op (.send_headers _ _ _) | .op (.open_stream _ _) | .op (.send_data _ _ _)
      | .op (.send_goaway _) => False
      | .op (.handle_timeout now) => expired now c = false
      | _ => True := by
    rcases hprepared with hsent | hquiet
    · rw [h.preface] at hsent
      cases hsent
    · exact hquiet
  cases o with
  | generate_output => exact absurd rfl hgenerate
  | poll_output len => exact absurd rfl (hpoll len)
  | send_headers stream_id headers end_stream => exact hquiet.elim
  | open_stream headers end_stream => exact hquiet.elim
  | send_data stream_id data end_stream => exact hquiet.elim
  | send_goaway error_code => exact hquiet.elim
  | poll_event => exact { h with }
  | set_timeouts config now => exact { h with }
  | note_recv_activity now => exact { h with }
  | recv_headers stream_id =>
    have heq : c.recv_headers stream_id = (.error .InvalidState, [], c) := by
      unfold recv_headers
      rw [hnone stream_id]
    simp only [Op.apply, heq]
    exact h
  | recv_body stream_id len =>
    simp only [Op.apply, recv_body_none (hnone stream_id)]
    exact h
  | discard_body stream_id error_code =>
    simp only [Op.apply, discard_body_none (hnone stream_id)]
    exact h
  | handle_timeout now =>
    simp only [expired] at hquiet
    simp only [Op.apply]
    unfold handle_timeout
    split
    · exact h
    next hopen =>
      have hopen : (c.state != .Closed) = true := by simpa using hopen
      rw [hopen, Bool.true_and, Bool.or_eq_false_iff] at hquiet
      dsimp only
      rw [if_neg, if_neg]
      · exact { h with }
      · simpa using hquiet.2
      · simpa using hquiet.1

theorem ready_call {out : Bytes} {call : Call} (hbuf : 69 ≤ L.BUF) (hprepared : Prepared c call)
    (h : Ready out c) : Ready (out ++ output_of c call) (call.run c) := by
  cases call with
  | feed_data data =>
    refine .inr ?_
    simp only [output_of, List.append_nil]
    exact begun_appends (ready_generate_output hbuf h) (appends_feed_data data c)
  | op o =>
    by_cases hpoll : ∃ len, o = .poll_output len
    · obtain ⟨len, rfl⟩ := hpoll
      exact .inr (begun_poll_output len hbuf h)
    have hpoll : ∀ len, o ≠ .poll_output len := fun len heq => hpoll ⟨len, heq⟩
    have hsilent : output_of c (.op o) = [] := by
      cases o with
      | poll_output len => exact absurd rfl (hpoll len)
      | _ => rfl
    rw [hsilent, List.append_nil]
    by_cases hgenerate : o = .generate_output
    · subst hgenerate
      exact .inr (ready_generate_output hbuf h)
    · rcases h with ⟨hfresh, hout⟩ | hbegun
      · exact .inl ⟨fresh_op hpoll hgenerate hprepared hfresh, hout⟩
      · exact .inr (begun_appends hbegun (appends_op hpoll c))

/-! ## The law -/

/-- With room for the preface and SETTINGS, and when nothing is sent before them, every output of
a client begins with them. -/
theorem output_starts_with_preface_and_settings (L : Limits) (hbuf : 69 ≤ L.BUF) (cs : List Call)
    (h : run.Along Call.run Prepared (H2Connection.new L .Client) cs) :
    run.Always Call.run (fun calls _ => StartsRight L (output calls)) (H2Connection.new L .Client)
      cs := by
  intro pre hpre
  have hready := run.history (fun calls c => Ready (output calls) c) ?_ (h.upto hpre) ?_
  · rcases hready with ⟨-, hout⟩ | hbegun
    · rw [hout]
      exact .inl List.nil_prefix
    · exact List.prefix_or_prefix_of_prefix (List.prefix_append _ _) hbegun.bytes
  · intro calls c call hprepared hready
    have hnext := ready_call hbuf hprepared hready
    unfold output at hnext ⊢
    rw [List.flatMap_append]
    simpa using hnext
  · exact .inl ⟨⟨rfl, rfl, rfl, rfl, rfl, rfl⟩, rfl⟩

/-- A client with one stream. -/
def one_stream : Limits where
  MAX_STREAMS := 1
  HDRBUF := 64
  DATABUF := 64
  BUF := 256

/-- The output is polled before the first request. -/
theorem polled_first_starts_right :
    run.Along Call.run Prepared (H2Connection.new one_stream .Client)
      [.op (.poll_output 200), .op (.open_stream [] true), .op (.poll_output 200)] ∧
    run.Always Call.run (fun calls _ => StartsRight one_stream (output calls))
      (H2Connection.new one_stream .Client)
      [.op (.poll_output 200), .op (.open_stream [] true), .op (.poll_output 200)] :=
  ⟨by decide +kernel,
    output_starts_with_preface_and_settings one_stream (by decide) _ (by decide +kernel)⟩

/-- The request is sent first: its HEADERS come before the preface. -/
theorem request_first_starts_with_headers :
    ¬ run.Always Call.run (fun calls _ => StartsRight one_stream (output calls))
      (H2Connection.new one_stream .Client) [.op (.open_stream [] true), .op (.poll_output 200)] := by
  intro h
  exact absurd (h _ (List.prefix_refl _)) (by decide +kernel)

end milli_http.h2.client_start
