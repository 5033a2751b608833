-- What a connection does, step by step. A call of `recv` is many steps: a datagram
-- arrives, packets are opened, frames dispatched, packets booked, keys installed. Every
-- other call is one. A run of calls is then a run of steps, and what every step keeps
-- holds throughout.
import MilliHttp.Connection.Transmit
import MilliHttp.Lib.Run

open bytes method

namespace milli_http.connection

open crypto tls transport packet frame

variable {B : Build} {scratch_len : Nat} {c c' : Connection B}

/-! ## Steps -/

/-- A call on a connection other than `recv`. -/
inductive Op where
  | poll_transmit (buf_len : Nat) (now : Instant)
  | handle_timeout (now : Instant)
  | poll_event
  | open_stream
  | open_uni_stream
  | stream_send (stream_id : Nat) (data : Bytes) (fin : Bool)
  | stream_recv (stream_id cap : Nat)
  | stream_reset (stream_id : Nat)
  | stream_stop_sending (stream_id : Nat)
  | close (error_code : Nat) (reason : Bytes)
  | initiate_key_update
  deriving DecidableEq, Repr

/-- One thing a connection does. -/
inductive Step where
  | arrive (len : Nat) (now : Instant)
  | open_packet (kind : Connection.PacketKind) (pkt_data : Bytes) (scratch_len : Nat)
  | dispatch (level : Level) (now : Instant) (frame : Frame)
  | initial_done
  | record (pr : PacketResult)
  | check_tls_keys
  | op (o : Op)
  deriving DecidableEq, Repr

namespace Connection

/-- Opens a packet by its kind. -/
def open_kind (kind : PacketKind) (pkt_data : Bytes) (scratch_len : Nat) (c : Connection B) :
    Outcome Error Opened × Connection B :=
  match kind with
  | .Initial => c.open_initial pkt_data scratch_len
  | .Handshake => c.open_handshake pkt_data scratch_len
  | .Short => c.open_short pkt_data scratch_len

/-- What a kind of packet does after its frames were dispatched. -/
def after_kind : PacketKind → Connection B → Connection B
  | .Handshake => initial_done
  | _ => id

theorem recv_kind_eq (kind : PacketKind) (pkt_data : Bytes) (scratch_len : Nat) (now : Instant)
    (c : Connection B) : c.recv_kind kind pkt_data scratch_len now =
      process now (after_kind kind) (c.open_kind kind pkt_data scratch_len) := by
  cases kind <;> rfl

end Connection

/-- What a call does to the connection. -/
def Op.apply : Op → Connection B → Connection B
  | .poll_transmit buf_len now, c => (c.poll_transmit buf_len now).2
  | .handle_timeout now, c => c.handle_timeout now
  | .poll_event, c => c.poll_event.2
  | .open_stream, c => (Connection.open_stream c).2
  | .open_uni_stream, c => (Connection.open_uni_stream c).2
  | .stream_send stream_id data fin, c => (Connection.stream_send stream_id data fin c).2
  | .stream_recv stream_id cap, c => (Connection.stream_recv stream_id cap c).2
  | .stream_reset stream_id, c => (Connection.stream_reset stream_id c).2
  | .stream_stop_sending stream_id, c => (Connection.stream_stop_sending stream_id c).2
  | .close error_code reason, c => c.close error_code reason
  | .initiate_key_update, c => (Connection.initiate_key_update c).2

/-- What a step does to the connection. -/
def Step.apply : Step → Connection B → Connection B
  | .arrive len now, c => c.arrive len now
  | .open_packet kind pkt_data scratch_len, c => (c.open_kind kind pkt_data scratch_len).2
  | .dispatch level now frame, c => (Connection.dispatch_frame level now frame c).2
  | .initial_done, c => c.initial_done
  | .record pr, c => c.record_packet pr
  | .check_tls_keys, c => (Connection.check_tls_keys c).2
  | .op o, c => o.apply c

/-- The packet a step opens, and the length of the scratch buffer. -/
def Step.packet : Step → Option (Connection.PacketKind × Bytes × Nat)
  | .open_packet kind pkt_data scratch_len => some (kind, pkt_data, scratch_len)
  | _ => none

/-- The frame a step dispatches, and its level. -/
def Step.frame : Step → Option (Level × Frame)
  | .dispatch level _ frame => some (level, frame)
  | _ => none

/-- The STREAM frame a step dispatches. -/
def Step.stream : Step → Option StreamFrame
  | .dispatch _ _ (.Stream stream) => some stream
  | _ => none

/-! ## The steps of a datagram -/

namespace Connection

/-- The frames of a payload are dispatched up to the first error. -/
def frame_steps (level : Level) (now : Instant) : Nat → Bytes → Connection B → List Step
  | 0, _, _ => []
  | fuel + 1, payload, c =>
    if payload = [] then []
    else
      match decode payload with
      | .error _ => []
      | .ok (frame, consumed) =>
        .dispatch level now frame ::
          match dispatch_frame level now frame c with
          | (.error _, _) => []
          | (.ok _, c) => frame_steps level now fuel (payload.drop consumed) c

/-- A packet that was opened: its frames, then its booking. -/
def opened_steps (kind : PacketKind) (now : Instant) (o : Opened) (c : Connection B) : List Step :=
  match o.payload with
  | none => [.record { ack_eliciting := false, level := o.level, pn := o.pn }]
  | some payload =>
    frame_steps o.level now payload.length payload c ++
      match (dispatch_frames o.level now payload.length payload false c).1 with
      | .error _ => []
      | .ok ack_eliciting =>
        (if kind = .Handshake then [.initial_done] else []) ++
          [.record { ack_eliciting, level := o.level, pn := o.pn }]

/-- A packet of a kind that is processed. -/
def packet_steps (kind : PacketKind) (pkt_data : Bytes) (scratch_len : Nat) (now : Instant)
    (c : Connection B) : List Step :=
  .open_packet kind pkt_data scratch_len ::
    match c.open_kind kind pkt_data scratch_len with
    | (.ok o, c) => opened_steps kind now o c
    | _ => []

/-- The packets of a datagram, up to a malformed one or a panic. -/
def packets_steps (scratch_len : Nat) (now : Instant) :
    List (Outcome Error Bytes) → Connection B → List Step
  | .ok pkt_data :: rest, c =>
    (match packet_kind pkt_data with
      | none => []
      | some kind => packet_steps kind pkt_data scratch_len now c) ++
      match c.recv_packet pkt_data scratch_len now with
      | none => []
      | some c => packets_steps scratch_len now rest c
  | _, _ => []

/-- A call of `recv`. A panic ends it early. -/
def recv_steps (datagram : Bytes) (scratch_len : Nat) (now : Instant) (c : Connection B) :
    List Step :=
  if c.state = .Closed then []
  else
    .arrive datagram.length now ::
      packets_steps scratch_len now (coalesced datagram) (c.arrive datagram.length now) ++
        match recv_packets scratch_len now (coalesced datagram) (c.arrive datagram.length now) with
        | none => []
        | some _ => [.check_tls_keys]

theorem dispatch_frames_steps (level : Level) (now : Instant) (fuel : Nat) (payload : Bytes)
    (ack_eliciting : Bool) (c : Connection B) :
    (dispatch_frames level now fuel payload ack_eliciting c).2 =
      run.final Step.apply c (frame_steps level now fuel payload c) := by
  induction fuel generalizing payload ack_eliciting c with
  | zero => rfl
  | succ fuel ih =>
    unfold dispatch_frames frame_steps
    by_cases hp : payload = []
    · simp [hp]
    · rw [if_neg hp, if_neg hp]
      cases hd : decode payload with
      | error e => simp [Method.bind_run]
      | ok r =>
        obtain ⟨frame, consumed⟩ := r
        simp only [Method.bind_run, Method.lift_run, run.final_cons, Step.apply]
        rcases hf : dispatch_frame level now frame c with ⟨_ | _, c'⟩
        · rfl
        · simpa using ih _ _ _

/-- Books a packet that was processed; an error leaves nothing to book. -/
def book : Outcome Error PacketResult × Connection B → Connection B
  | (.ok pr, c) => c.record_packet pr
  | (_, c) => c

theorem process_steps (kind : PacketKind) (now : Instant) (o : Opened) (c : Connection B) :
    book (process now (after_kind kind) (.ok o, c)) =
      run.final Step.apply c (opened_steps kind now o c) := by
  obtain ⟨level, pn, payload⟩ := o
  cases payload with
  | none => rfl
  | some payload =>
    have h := dispatch_frames_steps level now payload.length payload false c
    simp only [process, opened_steps]
    rcases hd : dispatch_frames level now payload.length payload false c with ⟨_ | ack, c'⟩
    · rw [hd] at h
      simpa [book] using h
    · rw [hd] at h
      simp only [run.final_append, ← h, book]
      cases kind <;> rfl

theorem recv_packet_steps {kind : PacketKind} {pkt_data : Bytes}
    {now : Instant} (hk : packet_kind pkt_data = some kind)
    (h : c.recv_packet pkt_data scratch_len now = some c') :
    c' = run.final Step.apply c (packet_steps kind pkt_data scratch_len now c) := by
  have hbook : c' = book (c.recv_kind kind pkt_data scratch_len now) := by
    simp only [recv_packet, hk] at h
    split at h
    · cases h
    · rename_i heq
      rw [heq]
      exact (Option.some.inj h).symm
    · rename_i heq
      rw [heq]
      exact (Option.some.inj h).symm
  rw [hbook, recv_kind_eq]
  simp only [packet_steps, run.final_cons, Step.apply]
  rcases c.open_kind kind pkt_data scratch_len with ⟨o | _ | _, c₁⟩
  · exact process_steps kind now o c₁
  · rfl
  · rfl

/-- The packets of a datagram, processed without a panic, are their steps. -/
theorem recv_packets_steps {now : Instant} {items : List (Outcome Error Bytes)}
    (h : recv_packets scratch_len now items c = some c') :
    c' = run.final Step.apply c (packets_steps scratch_len now items c) := by
  induction items generalizing c with
  | nil => simpa [recv_packets, packets_steps] using h.symm
  | cons item rest ih =>
    cases item with
    | panic => simp [recv_packets] at h
    | err e => simpa [recv_packets, packets_steps] using h.symm
    | ok pkt_data =>
      simp only [recv_packets, Option.bind_eq_bind, Option.bind_eq_some_iff] at h
      obtain ⟨c₁, h₁, h₂⟩ := h
      simp only [packets_steps, run.final_append, h₁]
      rw [ih h₂]
      congr 1
      cases hk : packet_kind pkt_data with
      | none =>
        simp only [recv_packet, hk, Option.some.injEq] at h₁
        simp [h₁]
      | some kind => exact recv_packet_steps hk h₁

theorem recv_steps_final {datagram : Bytes} {now : Instant} {c : Connection B}
    {r : Except Error Unit × Connection B} (h : c.recv datagram scratch_len now = some r) :
    r.2 = run.final Step.apply c (c.recv_steps datagram scratch_len now) := by
  unfold recv at h
  unfold recv_steps
  by_cases hc : c.state = .Closed
  · simp only [hc, if_true, Option.some.injEq] at h ⊢
    rw [← h]
    rfl
  · simp only [hc, if_false, Option.bind_eq_bind, Option.bind_eq_some_iff, Option.pure_def,
      Option.some.injEq] at h ⊢
    obtain ⟨c₁, h₁, rfl⟩ := h
    rw [h₁, List.cons_append, run.final_cons, run.final_append]
    rw [recv_packets_steps h₁]
    rfl

end Connection

/-! ## Runs -/

/-- A call on a connection. -/
inductive Call where
  | recv (datagram : Bytes) (scratch_len : Nat) (now : Instant)
  | op (o : Op)
  deriving DecidableEq, Repr

namespace Call

/-- The connection after a call, unless it panics. -/
def run : Call → Connection B → Option (Connection B)
  | .recv datagram scratch_len now, c => (c.recv datagram scratch_len now).map Prod.snd
  | .op o, c => some (o.apply c)

/-- The steps of a call. -/
def steps : Call → Connection B → List Step
  | .recv datagram scratch_len now, c => c.recv_steps datagram scratch_len now
  | .op o, _ => [.op o]

theorem run_eq_final {call : Call} (h : call.run c = some c') :
    c' = run.final Step.apply c (call.steps c) := by
  cases call with
  | recv datagram scratch_len now =>
    simp only [run, Option.map_eq_some_iff] at h
    obtain ⟨r, hr, rfl⟩ := h
    exact Connection.recv_steps_final hr
  | op o => exact (Option.some.inj h).symm

end Call

namespace Connection

/-- All the steps of a sequence of calls. A panic ends it. -/
def steps : Connection B → List Call → List Step
  | _, [] => []
  | c, call :: calls =>
    call.steps c ++
      match call.run c with
      | none => []
      | some c => steps c calls

/-- The connection after a sequence of calls, unless one panics. -/
def calls : Connection B → List Call → Option (Connection B)
  | c, [] => some c
  | c, call :: rest => (call.run c).bind (calls · rest)

/-- A connection as one of the two constructors makes it. -/
inductive Started : Connection B → Prop
  | client {c : Connection B} {server_name : Bytes} {alpn : List Bytes} {tp : TransportParams}
      {secret_bytes random local_cid initial_dcid : Bytes}
      (h : Connection.client B server_name alpn tp secret_bytes random local_cid initial_dcid =
        .ok c) : Started c
  | server (config : ServerTlsConfig) (tp : TransportParams)
      (secret_bytes random local_cid : Bytes) :
      Started (Connection.server B config tp secret_bytes random local_cid)

/-- Both constructors fill in the same record. -/
theorem Started.fresh {c : Connection B} (h : Started c) :
    ∃ role keys tls local_cid remote_cid tp,
      c = Connection.fresh B role keys tls local_cid remote_cid tp := by
  cases h with
  | client h =>
    unfold Connection.client at h
    split at h
    · cases h
    · dsimp only at h
      split at h
      · cases h
        exact ⟨_, _, _, _, _, _, rfl⟩
      · cases h
  | server => exact ⟨_, _, _, _, _, _, rfl⟩

/-- The connection after some of its steps. -/
def after (c : Connection B) (steps : List Step) : Connection B := run.final Step.apply c steps

theorem calls_eq_after {cs : List Call} (h : c.calls cs = some c') : c' = c.after (c.steps cs) := by
  induction cs generalizing c with
  | nil => exact (Option.some.inj h).symm
  | cons call rest ih =>
    simp only [calls, Option.bind_eq_some_iff] at h
    obtain ⟨c₁, h₁, h₂⟩ := h
    simp only [after, steps, h₁, run.final_append, ← call.run_eq_final h₁]
    exact ih h₂

/-- The steps of calls made one after the other. -/
theorem steps_append {as : List Call} (h : c.calls as = some c')
    (bs : List Call) : c.steps (as ++ bs) = c.steps as ++ c'.steps bs := by
  induction as generalizing c with
  | nil =>
    cases h
    rfl
  | cons call as ih =>
    simp only [calls, Option.bind_eq_some_iff] at h
    obtain ⟨c₁, h₁, h₂⟩ := h
    simp only [List.cons_append, steps, h₁, ih h₂, List.append_assoc]

end Connection

end milli_http.connection
