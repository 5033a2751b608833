-- The calls an application makes on a TLS connection, and runs of them. A relation that the
-- writes of a received record keep is kept by `feed_data`, so that its loop is looked at once.
import MilliHttp.TcpTls.Connection
import MilliHttp.Tls.Flights
import MilliHttp.Lib.Run

open bytes method
open method.Method (modify_bind_run bind_run keeps_pure keeps_seq keeps_lift keeps_modify
  get_bind_run keeps_get keeps_require keeps_fail bind_eq_ok kept_bind keeps_ite)

namespace milli_http.tcp_tls

open crypto tls

variable {X : Primitives} {BUF : Nat} {c c' : TlsConnection X BUF}

/-! ## Calls and runs -/

/-- One call of the application. -/
inductive Op where
  | feed_data (data : Bytes)
  | poll_output (buf_len : Nat)
  | poll_event
  | recv_app_data (buf_len : Nat)
  | send_app_data (data : Bytes)
  | close
  deriving DecidableEq, Repr

/-- The connection after a call. -/
def Op.apply : Op → TlsConnection X BUF → TlsConnection X BUF
  | .feed_data data, c => (c.feed_data data).2
  | .poll_output buf_len, c => (c.poll_output buf_len).2
  | .poll_event, c => c.poll_event.2
  | .recv_app_data buf_len, c => (c.recv_app_data buf_len).2
  | .send_app_data data, c => (c.send_app_data data).2
  | .close, c => c.close.2

namespace TlsConnection

/-- A connection as one of the constructors made it. -/
inductive Started : TlsConnection X BUF → Prop
  | client (config : TlsConfig) (secret random : Bytes) : Started (new_client config secret random)
  | server (config : ServerTlsConfig) (secret random : Bytes) :
      Started (new_server config secret random)

/-- The connection after some calls. -/
def after (c : TlsConnection X BUF) (ops : List Op) : TlsConnection X BUF := run.final Op.apply c ops

/-- The handshake is under way. -/
def Handshaking (c : TlsConnection X BUF) : Prop :=
  c.state = .Handshake ∨ c.state = .HandshakeEncrypted

/-- The connection is not closed. -/
def Open (c : TlsConnection X BUF) : Prop := c.state ≠ .Closing ∧ c.state ≠ .Closed

theorem Handshaking.open {c : TlsConnection X BUF} (h : c.Handshaking) : c.Open := by
  rcases h with h | h <;> simp [Open, h]

theorem Handshaking.of_state (hc : c.Handshaking) (h : c'.state = c.state) : c'.Handshaking := by
  unfold Handshaking
  rw [h]
  exact hc

theorem Open.of_state (hc : c.Open) (h : c'.state = c.state) : c'.Open := by
  unfold Open
  rw [h]
  exact hc

theorem open_or_closed (c : TlsConnection X BUF) : c.Open ∨ c.is_closed = true := by
  unfold Open is_closed
  cases c.state <;> simp

/-! ## Checking keys -/

/-- The beginning of `check_keys`: the peer's limit and the keys are picked up. -/
def pick_up (c : TlsConnection X BUF) : TlsConnection X BUF :=
  { c with
    peer_record_limit := c.engine.peer_record_size_limit.getD c.peer_record_limit
    engine := c.engine.derived_keys.2 }

/-- The end of `check_keys`. -/
def settle (c : TlsConnection X BUF) : TlsConnection X BUF :=
  if c.engine.complete ∧ c.state ≠ .Active then c.activate else c

theorem check_keys_run (c : TlsConnection X BUF) :
    (check_keys c).2 =
      match c.engine.pending_keys with
      | none => c.pick_up.settle
      | some keys =>
        match install_keys keys c.pick_up with
        | (.ok _, c') => c'.settle
        | (.error _, c') => c' := by
  unfold check_keys
  rw [modify_bind_run]
  rw [bind_run, Method.get_run]
  dsimp only [TlsEngine.derived_keys]
  cases hkeys : c.engine.pending_keys with
  | none =>
    rw [pick_up, TlsEngine.derived_keys]
    rfl
  | some keys =>
    dsimp only
    rw [modify_bind_run]
    rw [bind_run]
    have hpick : c.pick_up =
        { c with
          peer_record_limit := c.engine.peer_record_size_limit.getD c.peer_record_limit
          engine := { c.engine with pending_keys := none } } := rfl
    rw [hpick]
    rcases install_keys keys _ with ⟨_ | _, c'⟩ <;> rfl

/-- What the writes of `check_keys` keep. -/
structure KeptByKeys (R : TlsConnection X BUF → TlsConnection X BUF → Prop) : Prop where
  pick_up (c : TlsConnection X BUF) : R c c.pick_up
  hs_send (c : TlsConnection X BUF) (hs_send : Option (DirectionalRecordKeys X)) :
    R c { c with hs_send }
  hs_recv (c : TlsConnection X BUF) (hs_recv : Option (DirectionalRecordKeys X)) :
    R c { c with
      hs_recv
      hs_send_seq := 0
      hs_recv_seq := 0
      state := .HandshakeEncrypted
      engine_output_pending := true }
  app_send (c : TlsConnection X BUF) (app_send : Option (DirectionalRecordKeys X)) :
    R c { c with app_send }
  app_recv (c : TlsConnection X BUF) (app_recv : Option (DirectionalRecordKeys X)) :
    R c { c with app_recv, engine_output_pending := true }
  activate (c : TlsConnection X BUF) : R c c.activate

namespace KeptByKeys

variable {R : TlsConnection X BUF → TlsConnection X BUF → Prop} [IsPreorder (TlsConnection X BUF) R]

theorem install_keys (h : KeptByKeys R) (keys : DerivedKeys) :
    Method.Keeps R (install_keys keys : Method (TlsConnection X BUF) Error Unit) := by
  unfold TlsConnection.install_keys
  cases keys.level with
  | Initial => exact keeps_pure _
  | Handshake =>
    refine keeps_seq (keeps_lift _) fun send => ?_
    refine keeps_seq (keeps_modify fun c => h.hs_send c _) fun _ => ?_
    exact keeps_seq (keeps_lift _) fun recv => keeps_modify fun c => h.hs_recv c _
  | Application =>
    refine keeps_seq (keeps_lift _) fun send => ?_
    refine keeps_seq (keeps_modify fun c => h.app_send c _) fun _ => ?_
    exact keeps_seq (keeps_lift _) fun recv => keeps_modify fun c => h.app_recv c _

theorem check_keys (h : KeptByKeys R) :
    Method.Keeps R (check_keys : Method (TlsConnection X BUF) Error Unit) := by
  have hsettle : ∀ c : TlsConnection X BUF, R c c.settle := by
    intro c
    unfold settle
    split
    · exact h.activate c
    · exact refl c
  intro c
  rw [check_keys_run]
  refine IsTrans.trans _ _ _ (h.pick_up c) ?_
  cases c.engine.pending_keys with
  | none => exact hsettle _
  | some keys =>
    dsimp only
    have hi := h.install_keys keys c.pick_up
    rcases hrun : TlsConnection.install_keys keys c.pick_up with ⟨_ | _, c'⟩
    · rw [hrun] at hi
      exact hi
    · rw [hrun] at hi
      exact IsTrans.trans _ _ _ hi (hsettle c')

end KeptByKeys

/-! ## How output runs -/

/-- A record is put into the send buffer whole. -/
def put (c : TlsConnection X BUF) (r : Record X) : TlsConnection X BUF :=
  { c with send_buf := c.send_buf ++ r.bytes, records := c.records ++ [r] }

theorem queue_send_run (data : Bytes) (c : TlsConnection X BUF) :
    queue_send data c =
      if c.send_buf.length + data.length ≤ BUF then
        (.ok (), { c with send_buf := c.send_buf ++ data })
      else (.error (.BufferTooSmall (c.send_buf.length + data.length)), c) := by
  unfold queue_send
  rw [get_bind_run]
  rw [Method.require_bind_run, Method.modify_run]

theorem queue_record_run (ct : ContentType) (data : Bytes) (c : TlsConnection X BUF) :
    queue_record ct data c =
      if c.send_buf.length + (RECORD_HEADER_LEN + data.length) ≤ BUF then
        (.ok (), c.put (.plaintext ct data))
      else (.error (.BufferTooSmall (c.send_buf.length + (RECORD_HEADER_LEN + data.length))), c) := by
  unfold queue_record
  rw [bind_run, queue_send_run, List.length_append, encode_record_header_length]
  by_cases hfits : c.send_buf.length + (RECORD_HEADER_LEN + data.length) ≤ BUF
  · rw [if_pos hfits, if_pos hfits]
    rfl
  · rw [if_neg hfits, if_neg hfits]

theorem encrypt_into_run (data : Bytes) (inner_ct : ContentType) (keys : DirectionalRecordKeys X)
    (seq : Nat) (c : TlsConnection X BUF) :
    encrypt_into data inner_ct keys seq c =
      if c.send_buf.length + (RECORD_HEADER_LEN + (data.length + 1 + TAG_LEN)) ≤ BUF then
        (.ok (), c.put (.sealed keys seq inner_ct data))
      else (.error (.BufferTooSmall
        (c.send_buf.length + (RECORD_HEADER_LEN + (data.length + 1 + TAG_LEN)))), c) := by
  unfold encrypt_into
  rw [get_bind_run]
  rw [Method.require_bind_run]
  split <;> rfl

theorem encrypt_hs_cases (data : Bytes) (inner_ct : ContentType) (c : TlsConnection X BUF) :
    (∃ e, encrypt_and_send data inner_ct true c = (.error e, c)) ∨
    ∃ keys, c.hs_send = some keys ∧
      c.send_buf.length + (RECORD_HEADER_LEN + (data.length + 1 + TAG_LEN)) ≤ BUF ∧
      encrypt_and_send data inner_ct true c = (.ok (),
        { c.put (.sealed keys c.hs_send_seq inner_ct data) with hs_send_seq := c.hs_send_seq + 1 }) := by
  unfold encrypt_and_send
  rw [get_bind_run]
  rw [if_pos rfl, bind_run]
  cases c.hs_send with
  | none => exact .inl ⟨_, rfl⟩
  | some keys =>
    rw [Method.okOr_some_run]
    dsimp only
    rw [bind_run, encrypt_into_run]
    by_cases hfits :
        c.send_buf.length + (RECORD_HEADER_LEN + (data.length + 1 + TAG_LEN)) ≤ BUF
    · rw [if_pos hfits]
      exact .inr ⟨keys, rfl, hfits, rfl⟩
    · rw [if_neg hfits]
      exact .inl ⟨_, rfl⟩

theorem encrypt_app_cases (data : Bytes) (inner_ct : ContentType) (c : TlsConnection X BUF) :
    (∃ e, encrypt_and_send data inner_ct false c = (.error e, c)) ∨
    ∃ keys, c.app_send = some keys ∧
      encrypt_and_send data inner_ct false c = (.ok (),
        { c.put (.sealed keys c.send_seq inner_ct data) with send_seq := c.send_seq + 1 }) := by
  unfold encrypt_and_send
  rw [get_bind_run]
  rw [if_neg (by decide), bind_run]
  cases c.app_send with
  | none => exact .inl ⟨_, rfl⟩
  | some keys =>
    rw [Method.okOr_some_run]
    dsimp only
    rw [bind_run, encrypt_into_run]
    by_cases hfits :
        c.send_buf.length + (RECORD_HEADER_LEN + (data.length + 1 + TAG_LEN)) ≤ BUF
    · rw [if_pos hfits]
      exact .inr ⟨keys, rfl, rfl⟩
    · rw [if_neg hfits]
      exact .inl ⟨_, rfl⟩

/-- Sending a flight of the Handshake level: the ChangeCipherSpec goes first. -/
def ensure_ccs : Method (TlsConnection X BUF) Error Unit := do
  let c ← Method.get
  if c.ccs_sent then pure ()
  else do
    Method.ignore (queue_record .ChangeCipherSpec [0x01])
    Method.modify fun c => { c with ccs_sent := true }

theorem ensure_ccs_run (c : TlsConnection X BUF) :
    (ensure_ccs c).2 =
      if c.ccs_sent then c
      else if c.send_buf.length + 6 ≤ BUF then
        { c.put (.plaintext .ChangeCipherSpec [0x01]) with ccs_sent := true }
      else { c with ccs_sent := true } := by
  unfold ensure_ccs
  rw [get_bind_run]
  split
  · rfl
  · have hlen : RECORD_HEADER_LEN + [(0x01 : UInt8)].length = 6 := rfl
    rw [bind_run, Method.ignore_run, queue_record_run, hlen]
    by_cases hfits : c.send_buf.length + 6 ≤ BUF
    · rw [if_pos hfits, if_pos hfits]
      rfl
    · rw [if_neg hfits, if_neg hfits]
      rfl

theorem send_flight_handshake (flight : Bytes) (c : TlsConnection X BUF) :
    (send_flight .Handshake flight c) =
      send_fragments (fragments (ensure_ccs c).2.peer_plaintext_cap flight.length flight)
        (ensure_ccs c).2 := by
  unfold send_flight ensure_ccs
  dsimp only
  rw [get_bind_run]
  rw [get_bind_run]
  split <;> rfl

theorem send_fragments_ok (pieces : List Bytes) (c : TlsConnection X BUF) :
    (send_fragments pieces c).1 = .ok () := by
  induction pieces generalizing c with
  | nil => rfl
  | cons piece pieces ih => exact ih _

/-- Sending a flight never fails: what does not fit is dropped. -/
theorem send_flight_ok (level : Level) (flight : Bytes) (c : TlsConnection X BUF) :
    (send_flight level flight c).1 = .ok () := by
  cases level with
  | Initial => rfl
  | Handshake =>
    rw [send_flight_handshake]
    exact send_fragments_ok _ _
  | Application => rfl

/-- What sending a flight does not touch. -/
def unsent_side (c : TlsConnection X BUF) :=
  (c.engine, c.state, c.peer_record_limit, c.hs_send, c.app_send_buf, c.flights, c.send_offset)

/-- What a part of the connection does not see of output. -/
def Unsent {π : Type} (part : TlsConnection X BUF → π) : Prop :=
  ∀ c send_buf records ccs_sent hs_send_seq,
    part { c with send_buf, records, ccs_sent, hs_send_seq } = part c

section Unsent

variable {π : Type} {part : TlsConnection X BUF → π}

theorem same_send_fragments (h : Unsent part) (pieces : List Bytes) :
    Method.Keeps (Method.Same part)
      (send_fragments pieces : Method (TlsConnection X BUF) Error Unit) := by
  induction pieces with
  | nil => exact keeps_pure _
  | cons piece pieces ih =>
    refine keeps_seq (Method.keeps_ignore fun c => ?_) fun _ => ih
    rcases encrypt_hs_cases piece .Handshake c with ⟨e, he⟩ | ⟨keys, -, -, he⟩
    · rw [he]
      rfl
    · rw [he]
      exact h c _ _ c.ccs_sent _

theorem same_send_flight (h : Unsent part) (level : Level) (flight : Bytes) :
    Method.Keeps (Method.Same part)
      (send_flight level flight : Method (TlsConnection X BUF) Error Unit) := by
  cases level with
  | Initial =>
    have hqueue : ∀ data, Method.Keeps (Method.Same part)
        (queue_send data : Method (TlsConnection X BUF) Error Unit) := by
      intro data c
      rw [queue_send_run]
      split
      · exact h c _ c.records c.ccs_sent c.hs_send_seq
      · rfl
    refine Method.keeps_ignore (keeps_seq (hqueue _) fun _ => ?_)
    exact keeps_seq (hqueue _) fun _ =>
      keeps_modify fun c => h c c.send_buf _ c.ccs_sent c.hs_send_seq
  | Handshake =>
    intro c
    rw [send_flight_handshake]
    refine Eq.trans (same_send_fragments h _ _) ?_
    rw [ensure_ccs_run]
    split
    · rfl
    · split
      · exact h c _ _ true c.hs_send_seq
      · exact h c c.send_buf c.records true c.hs_send_seq
  | Application => exact keeps_pure _

end Unsent

theorem send_flight_side (level : Level) (flight : Bytes) :
    Method.Keeps (Method.Same unsent_side)
      (send_flight level flight : Method (TlsConnection X BUF) Error Unit) :=
  same_send_flight (fun _ _ _ _ _ => rfl) level flight

/-- A connection that took a flight from its engine. -/
def take (c : TlsConnection X BUF) (level : Level) (flight : Bytes) : TlsConnection X BUF :=
  { c with
    engine := (c.engine.write_handshake X 2048).2
    flights := c.flights ++ [(level, flight)] }

/-- One turn of the loop over the flights. -/
theorem flush_flights_cases (fuel : Nat) (c : TlsConnection X BUF) :
    (flush_flights (fuel + 1) c = (.ok (), { c with engine := (c.engine.write_handshake X 2048).2 }) ∧
      ∀ level flight, (c.engine.write_handshake X 2048).1 = .ok (flight, level) → flight = []) ∨
    ∃ level flight, (c.engine.write_handshake X 2048).1 = .ok (flight, level) ∧ flight ≠ [] ∧
      flush_flights (fuel + 1) c =
        flush_flights fuel (send_flight level flight (c.take level flight)).2 := by
  rw [flush_flights, get_bind_run]
  rw [modify_bind_run]
  cases hrun : (c.engine.write_handshake X 2048).1 with
  | error err => exact .inl ⟨rfl, nofun⟩
  | ok out =>
    obtain ⟨flight, level⟩ := out
    dsimp only
    by_cases hflight : flight = []
    · rw [if_pos hflight]
      refine .inl ⟨rfl, fun _ _ h => ?_⟩
      cases h
      exact hflight
    · rw [if_neg hflight, bind_run, Method.modify_run]
      refine .inr ⟨level, flight, rfl, hflight, ?_⟩
      exact Method.bind_ok (Prod.ext (send_flight_ok level flight (c.take level flight)) rfl)

theorem flush_flights_ok (fuel : Nat) (c : TlsConnection X BUF) :
    (flush_flights fuel c).1 = .ok () := by
  induction fuel generalizing c with
  | zero => rfl
  | succ fuel ih =>
    rcases flush_flights_cases fuel c with ⟨hrun, -⟩ | ⟨level, flight, -, -, hrun⟩
    · rw [hrun]
    · rw [hrun]
      exact ih _

theorem flush_engine_output_run (c : TlsConnection X BUF) :
    (flush_engine_output c).2 =
      if c.engine_output_pending then
        { (check_keys (flush_flights 3 c).2).2 with engine_output_pending := false }
      else c := by
  unfold flush_engine_output
  rw [get_bind_run]
  split
  · rw [Method.bind_ok (Prod.ext (flush_flights_ok 3 c) rfl)]
    rfl
  · rfl

/-- A connection that sealed the next piece of its application data. -/
def seal_app (c : TlsConnection X BUF) (cap : Nat) (keys : DirectionalRecordKeys X) :
    TlsConnection X BUF :=
  { c.put (.sealed keys c.send_seq .ApplicationData (c.app_send_buf.take cap)) with
    send_seq := c.send_seq + 1
    app_send_buf := c.app_send_buf.drop cap }

/-- One turn of the loop over the application data. -/
theorem flush_app_cases (cap fuel : Nat) (c : TlsConnection X BUF) :
    (flush_app_records cap (fuel + 1) c).2 = c ∨
    ∃ keys, c.app_send = some keys ∧ c.app_send_buf ≠ [] ∧
      (flush_app_records cap (fuel + 1) c).2 = (flush_app_records cap fuel (c.seal_app cap keys)).2 := by
  rw [flush_app_records, get_bind_run]
  cases hkeys : c.app_send with
  | none => exact .inl rfl
  | some keys =>
    dsimp only
    by_cases hbuf : c.app_send_buf = []
    · rw [if_pos hbuf]
      exact .inl rfl
    · rw [if_neg hbuf, bind_run, encrypt_into_run]
      by_cases hfits : c.send_buf.length +
          (RECORD_HEADER_LEN + ((c.app_send_buf.take cap).length + 1 + TAG_LEN)) ≤ BUF
      · rw [if_pos hfits]
        exact .inr ⟨keys, rfl, hbuf, rfl⟩
      · rw [if_neg hfits]
        exact .inl rfl

/-- The record size limit to advertise is set. -/
def limited (c : TlsConnection X BUF) : TlsConnection X BUF :=
  { c with engine := c.engine.set_local_record_size_limit (local_record_size_limit BUF) }

/-- What `poll_output` does before it looks at the send buffer. -/
def flushed (c : TlsConnection X BUF) : TlsConnection X BUF :=
  (flush_app_send (flush_engine_output c.limited).2).2

/-- What `poll_output` takes from the send buffer. -/
def drain (buf_len : Nat) (c : TlsConnection X BUF) : Option Bytes × TlsConnection X BUF :=
  if c.send_offset ≥ c.send_buf.length then (none, c)
  else
    let out := (c.send_buf.drop c.send_offset).take buf_len
    let send_offset := c.send_offset + out.length
    if send_offset ≥ c.send_buf.length then (some out, { c with send_buf := [], send_offset := 0 })
    else (some out, { c with send_offset })

theorem poll_output_eq (buf_len : Nat) (c : TlsConnection X BUF) :
    c.poll_output buf_len = c.flushed.drain buf_len := rfl

section Same

variable {π : Type} (part : TlsConnection X BUF → π)

/-- What output and the taking of flights leave alone, `flush_flights` leaves alone. -/
theorem same_flush_flights (hunsent : Unsent part)
    (htake : ∀ c engine flights, part { c with engine, flights } = part c) (fuel : Nat)
    (c : TlsConnection X BUF) : part (flush_flights fuel c).2 = part c := by
  induction fuel generalizing c with
  | zero => rfl
  | succ fuel ih =>
    rcases flush_flights_cases fuel c with ⟨hrun, -⟩ | ⟨level, flight, -, -, hrun⟩
    · rw [hrun]
      exact htake c _ c.flights
    · rw [hrun, ih]
      exact (same_send_flight hunsent level flight _).trans (htake c _ _)

/-- What sealing a piece of the application data leaves alone, `flush_app_send` leaves alone. -/
theorem same_flush_app_send (hseal : ∀ c cap keys, part (c.seal_app cap keys) = part c)
    (c : TlsConnection X BUF) : part (flush_app_send c).2 = part c := by
  have hrecords : ∀ cap fuel (c : TlsConnection X BUF),
      part (flush_app_records cap fuel c).2 = part c := by
    intro cap fuel
    induction fuel with
    | zero => exact fun _ => rfl
    | succ fuel ih =>
      intro c
      rcases flush_app_cases cap fuel c with hrun | ⟨keys, -, -, hrun⟩
      · rw [hrun]
      · rw [hrun, ih, hseal]
  unfold flush_app_send
  rw [get_bind_run]
  split
  · rfl
  · rw [Method.ignore_run]
    exact hrecords _ _ c

/-- What an alert and the state leave alone, `close` leaves alone. -/
theorem same_close (hput : ∀ c r, part (c.put r) = part c)
    (hsealed : ∀ c r, part { c.put r with send_seq := c.send_seq + 1 } = part c)
    (hstate : ∀ c state, part { c with state } = part c) (c : TlsConnection X BUF) :
    part c.close.2 = part c := by
  have halert : part (send_alert 1 0 c).2 = part c := by
    unfold send_alert
    rw [get_bind_run]
    split
    · rcases encrypt_app_cases [1, 0] .Alert c with ⟨e, he⟩ | ⟨keys, -, he⟩
      · rw [he]
      · rw [he]
        exact hsealed c _
    · rw [queue_record_run]
      split
      · exact hput c _
      · rfl
  unfold TlsConnection.close
  rw [get_bind_run]
  split
  · rfl
  · rw [bind_run]
    rcases hrun : send_alert 1 0 c with ⟨_ | _, c'⟩
    · rw [hrun] at halert
      exact halert
    · rw [hrun] at halert
      exact (hstate c' .Closing).trans halert

end Same

theorem read_handshake_snd (origin : Origin) (level : Level) (data : Bytes)
    (c : TlsConnection X BUF) :
    (read_handshake origin level data c).2 =
      { c with
        engine := (c.engine.read_handshake X level data).2
        reads := c.reads ++
          [{ origin, payload := data, hashed := c.engine.hashed X level data }] } := by
  unfold read_handshake
  rw [get_bind_run]
  rw [modify_bind_run]
  rw [Method.require_run_snd]

/-! ## What receiving writes -/

/-- What the writes of a call of `feed_data` keep. -/
structure KeptByRecv (R : TlsConnection X BUF → TlsConnection X BUF → Prop) : Prop where
  limit (c : TlsConnection X BUF) (limit : Nat) :
    R c { c with engine := c.engine.set_local_record_size_limit limit }
  buffer (c : TlsConnection X BUF) (recv_buf : Bytes) (plain : Nat) (events : List TlsEvent) :
    R c { c with recv_buf, plain, events }
  hs_opened (c : TlsConnection X BUF) : R c { c with hs_recv_seq := c.hs_recv_seq + 1 }
  opened (c : TlsConnection X BUF) : R c { c with recv_seq := c.recv_seq + 1 }
  read (c : TlsConnection X BUF) (origin : Origin) (level : Level) (data : Bytes) :
    c.Handshaking → (origin = .plaintext ↔ level = .Initial) → level ≠ .Application →
    R c (read_handshake origin level data c).2
  keys (c : TlsConnection X BUF) : c.Handshaking → R c (check_keys c).2
  alert (c : TlsConnection X BUF) (state : ConnState) : state = .Closing ∨ state = .Closed →
    c.Open → R c { c with state }

/-- What the handling of a record keeps: it leaves the state of the connection alone. -/
def Within (R : TlsConnection X BUF → TlsConnection X BUF → Prop) (c c' : TlsConnection X BUF) : Prop :=
  R c c' ∧ c'.state = c.state

/-- What the handling of a record keeps during the handshake. -/
def Busy (R : TlsConnection X BUF → TlsConnection X BUF → Prop) (c c' : TlsConnection X BUF) : Prop :=
  c.Handshaking → Within R c c'

section Rules

variable {R : TlsConnection X BUF → TlsConnection X BUF → Prop} [IsPreorder (TlsConnection X BUF) R]

instance : IsPreorder (TlsConnection X BUF) (Within R) where
  refl c := ⟨refl c, rfl⟩
  trans _ _ _ h₁ h₂ := ⟨IsTrans.trans _ _ _ h₁.1 h₂.1, h₂.2.trans h₁.2⟩

instance : IsPreorder (TlsConnection X BUF) (Busy R) where
  refl c _ := refl c
  trans _ _ _ h₁ h₂ h := by
    have h₁ := h₁ h
    exact IsTrans.trans _ _ _ h₁ (h₂ (h.of_state h₁.2))

omit [IsPreorder (TlsConnection X BUF) R] in
theorem busy_of_within {α : Type} {m : Method (TlsConnection X BUF) Error α}
    (h : Method.Keeps (Within R) m) : Method.Keeps (Busy R) m := fun c _ => h c

namespace KeptByRecv

omit [IsPreorder (TlsConnection X BUF) R] in
theorem read_handshake (h : KeptByRecv R) (origin : Origin) (level : Level) (data : Bytes)
    (horigin : origin = .plaintext ↔ level = .Initial) (hlevel : level ≠ .Application) :
    Method.Keeps (Busy R) (read_handshake origin level data) := by
  intro c hc
  refine ⟨h.read c origin level data hc horigin hlevel, ?_⟩
  have hstate : Method.Keeps (Method.Same TlsConnection.state)
      (TlsConnection.read_handshake origin level data : Method (TlsConnection X BUF) Error Unit) := by
    refine keeps_seq keeps_get fun c => ?_
    exact keeps_seq (keeps_modify fun _ => rfl) fun _ => keeps_require _ _
  exact hstate c

theorem open_payload (h : KeptByRecv R) (keys : DirectionalRecordKeys X) (seq : Nat)
    (header : Bytes) (ps len : Nat) :
    Method.Keeps (Within R) (open_payload keys seq header ps len) := by
  refine keeps_seq keeps_get fun c => ?_
  refine keeps_seq (keeps_lift _) fun plaintext => ?_
  refine keeps_seq (keeps_modify fun c => ⟨?_, rfl⟩) fun _ => keeps_pure _
  exact h.buffer c (overwrite c.recv_buf ps plaintext) c.plain c.events

theorem handle_alert (data : Bytes) :
    Method.Keeps (Within R) (handle_alert data : Method (TlsConnection X BUF) Error Handled) :=
  keeps_seq (keeps_require _ _) fun _ => keeps_pure _

theorem handle_plain_record (h : KeptByRecv R) (ct : ContentType) (payload : Bytes) :
    Method.Keeps (Busy R) (handle_plain_record ct payload) := by
  cases ct with
  | Handshake =>
    refine keeps_seq (h.read_handshake _ _ _ (by simp) nofun) fun _ => keeps_pure _
  | ChangeCipherSpec => exact keeps_pure _
  | Alert => exact busy_of_within (handle_alert payload)
  | ApplicationData => exact keeps_fail _

theorem handle_handshake_record (h : KeptByRecv R) (ct : ContentType) (header payload : Bytes)
    (ps : Nat) : Method.Keeps (Busy R) (handle_handshake_record ct header payload ps) := by
  cases ct with
  | ApplicationData =>
    refine keeps_seq keeps_get fun c => ?_
    refine keeps_seq (Method.keeps_okOr _ _) fun keys => ?_
    refine keeps_seq (busy_of_within (h.open_payload _ _ _ _ _)) fun plaintext => ?_
    refine keeps_seq (busy_of_within (keeps_modify fun c => ⟨h.hs_opened c, rfl⟩))
      fun _ => ?_
    refine keeps_seq (keeps_lift _) fun inner => ?_
    obtain ⟨data_len, inner_ct⟩ := inner
    cases inner_ct with
    | Handshake =>
      exact keeps_seq (h.read_handshake _ _ _ (by simp) nofun) fun _ => keeps_pure _
    | Alert => exact busy_of_within (handle_alert _)
    | ChangeCipherSpec => exact keeps_fail _
    | ApplicationData => exact keeps_fail _
  | ChangeCipherSpec => exact keeps_pure _
  | Handshake =>
    refine keeps_seq (h.read_handshake _ _ _ (by simp) nofun) fun _ => keeps_pure _
  | Alert => exact keeps_fail _

theorem handle_active_record (h : KeptByRecv R) (ct : ContentType) (header payload : Bytes)
    (ps : Nat) : Method.Keeps (Within R) (handle_active_record ct header payload ps) := by
  cases ct with
  | ApplicationData =>
    refine keeps_seq keeps_get fun c => ?_
    refine keeps_seq (Method.keeps_okOr _ _) fun keys => ?_
    refine keeps_seq (h.open_payload _ _ _ _ _) fun plaintext => ?_
    refine keeps_seq (keeps_modify fun c => ⟨h.opened c, rfl⟩) fun _ => ?_
    refine keeps_seq (keeps_lift _) fun inner => ?_
    obtain ⟨data_len, inner_ct⟩ := inner
    cases inner_ct with
    | ApplicationData => exact keeps_pure _
    | Alert => exact handle_alert _
    | Handshake => exact keeps_pure _
    | ChangeCipherSpec => exact keeps_fail _
  | ChangeCipherSpec => exact keeps_pure _
  | Handshake => exact keeps_fail _
  | Alert => exact keeps_fail _

theorem handle_record (h : KeptByRecv R) (ct : ContentType) (header payload : Bytes) (ps : Nat) :
    Method.Keeps (Within R) (handle_record ct header payload ps) := by
  intro c
  unfold TlsConnection.handle_record
  rw [get_bind_run]
  cases hs : c.state with
  | Handshake => exact h.handle_plain_record ct payload c (.inl hs)
  | HandshakeEncrypted => exact h.handle_handshake_record ct header payload ps c (.inr hs)
  | Active => exact h.handle_active_record ct header payload ps c
  | Closing => exact refl c
  | Closed => exact refl c

end KeptByRecv

/-- When a record is handled the way it is. -/
def Fits (c : TlsConnection X BUF) : Handled → Prop
  | .check => c.Handshaking
  | .alert _ => c.Open
  | _ => True

theorem handle_active_record_ne_check {ct : ContentType} {header payload : Bytes} {ps : Nat}
    {r : Handled} (h : handle_active_record ct header payload ps c = (.ok r, c')) : r ≠ .check := by
  cases ct with
  | ApplicationData =>
    obtain ⟨_, _, -, h⟩ := bind_eq_ok h
    obtain ⟨_, _, -, h⟩ := bind_eq_ok h
    obtain ⟨plaintext, _, -, h⟩ := bind_eq_ok h
    obtain ⟨_, _, -, h⟩ := bind_eq_ok h
    obtain ⟨⟨data_len, inner_ct⟩, _, -, h⟩ := bind_eq_ok h
    cases inner_ct with
    | ApplicationData => cases h; nofun
    | Alert =>
      obtain ⟨_, _, -, h⟩ := bind_eq_ok h
      cases h
      nofun
    | Handshake => cases h; nofun
    | ChangeCipherSpec => cases h
  | ChangeCipherSpec => cases h; nofun
  | Handshake => cases h
  | Alert => cases h

/-- Keys are looked for during the handshake, and a closed connection does not look at records. -/
theorem handle_record_fits {ct : ContentType} {header payload : Bytes} {ps : Nat} {r : Handled}
    (h : handle_record ct header payload ps c = (.ok r, c')) : c.Fits r := by
  unfold handle_record at h
  rw [get_bind_run] at h
  have hbusy : c.Handshaking → c.Fits r := fun hb => by
    cases r with
    | check => exact hb
    | alert _ => exact hb.open
    | skip => trivial
    | keep _ => trivial
  cases hs : c.state with
  | Handshake => exact hbusy (.inl hs)
  | HandshakeEncrypted => exact hbusy (.inr hs)
  | Active =>
    rw [hs] at h
    have hne := handle_active_record_ne_check h
    cases r with
    | check => exact absurd rfl hne
    | alert _ => simp [Fits, Open, hs]
    | skip => trivial
    | keep _ => trivial
  | Closing =>
    rw [hs] at h
    cases h
    trivial
  | Closed =>
    rw [hs] at h
    cases h
    trivial

namespace KeptByRecv

omit [IsPreorder (TlsConnection X BUF) R] in
theorem push_event (h : KeptByRecv R) (c : TlsConnection X BUF) (plain : Nat) (event : TlsEvent) :
    R c (push_event { c with plain } event) := by
  unfold TlsConnection.push_event
  split
  · exact h.buffer c c.recv_buf plain (c.events ++ [event])
  · exact h.buffer c c.recv_buf plain c.events

omit [IsPreorder (TlsConnection X BUF) R] in
theorem remove_range (h : KeptByRecv R) (first last : Nat) :
    Method.Keeps (Within R) (remove_range first last) :=
  keeps_modify fun c =>
    ⟨h.buffer c (c.recv_buf.take first ++ c.recv_buf.drop last) c.plain c.events, rfl⟩

theorem handle_alert_desc (h : KeptByRecv R) (desc : UInt8) {c : TlsConnection X BUF} (hc : c.Open) :
    R c (handle_alert_desc desc c).2 := by
  unfold TlsConnection.handle_alert_desc
  split
  · exact IsTrans.trans _ _ _ (h.alert c .Closing (.inl rfl) hc) (h.push_event _ c.plain .PeerClosed)
  · exact h.alert c .Closed (.inr rfl) hc

/-- Taking a record out of the buffer, and what follows from it. -/
theorem finish_record (h : KeptByRecv R) (off total : Nat) {r : Handled} {c : TlsConnection X BUF}
    (hfits : c.Fits r) : R c (finish_record off total r c).2 := by
  have hremove := fun first last => h.remove_range first last c
  cases r with
  | skip => exact (keeps_seq (h.remove_range _ _) (fun _ => keeps_pure true) c).1
  | check =>
    refine kept_bind (hremove off (off + total)).1 fun _ c₁ hrun => ?_
    have hstate := (hremove off (off + total)).2
    rw [hrun] at hstate
    exact kept_bind (h.keys c₁ (Handshaking.of_state hfits hstate)) fun _ c₂ _ => refl c₂
  | keep data_len =>
    refine keeps_seq keeps_get (fun c₀ => ?_) c
    refine keeps_seq (keeps_modify fun c => ?_) fun _ => ?_
    · exact h.buffer c _ c.plain c.events
    · refine keeps_seq (fun c => (h.remove_range _ _ c).1) fun _ => ?_
      exact keeps_seq (keeps_modify fun c => h.push_event c _ .AppData)
        fun _ => keeps_pure _
  | alert desc =>
    refine kept_bind (hremove off (off + total)).1 fun _ c₁ hrun => ?_
    have hstate := (hremove off (off + total)).2
    rw [hrun] at hstate
    exact kept_bind (h.handle_alert_desc desc (Open.of_state hfits hstate))
      fun _ c₂ _ => refl c₂

theorem process_record (h : KeptByRecv R) : Method.Keeps R (process_record (X := X)) := by
  refine keeps_seq keeps_get fun c₀ => keeps_ite (keeps_pure _) ?_
  refine keeps_seq (keeps_lift _) fun hdr => ?_
  refine keeps_seq (keeps_require _ _) fun _ => keeps_ite (keeps_pure _) ?_
  intro c
  have hhandle := h.handle_record hdr.content_type
    ((c₀.recv_buf.drop c₀.plain).take RECORD_HEADER_LEN)
    ((c₀.recv_buf.drop (c₀.plain + RECORD_HEADER_LEN)).take hdr.length)
    (c₀.plain + RECORD_HEADER_LEN) c
  refine kept_bind hhandle.1 fun r c₁ hrun => h.finish_record _ _ ?_
  have hstate := hhandle.2
  have hfits := handle_record_fits hrun
  rw [hrun] at hstate
  cases r with
  | check => exact Handshaking.of_state hfits hstate
  | alert _ => exact Open.of_state hfits hstate
  | skip => trivial
  | keep _ => trivial

theorem process_recv (h : KeptByRecv R) (fuel : Nat) :
    Method.Keeps R (process_recv fuel : Method (TlsConnection X BUF) Error Unit) := by
  induction fuel with
  | zero => exact keeps_pure _
  | succ fuel ih =>
    refine keeps_seq h.process_record fun more => ?_
    exact keeps_ite ih (keeps_pure _)

theorem feed_data (h : KeptByRecv R) (data : Bytes) :
    Method.Keeps R (feed_data data : Method (TlsConnection X BUF) Error Unit) := by
  refine keeps_seq (keeps_modify fun c => h.limit c _) fun _ => ?_
  refine keeps_seq keeps_get fun c => ?_
  refine keeps_seq (keeps_require _ _) fun _ => ?_
  refine keeps_seq (keeps_modify fun c => ?_) fun _ => ?_
  · exact h.buffer c (c.recv_buf ++ data) c.plain c.events
  · exact keeps_seq keeps_get fun c => h.process_recv _

end KeptByRecv

end Rules

end TlsConnection

end milli_http.tcp_tls
