-- What becomes of the events that `tcp_eof` queues for a connection: the call that queues them
-- closes the connection, so a stream that they announce cannot be read when they are handed out.
import MilliHttp.Server.Ids

open bytes method

namespace milli_http.manager

open crypto tls transport connection stranding ServerManager

variable {X : Primitives} {BUF : Nat} {Q A P : Type} [H3Server Q P] {event : HttpEvent}

/-! ## Serving an event -/

/-- The HTTP connection of an id, if it is established over TCP. -/
def ServerManager.established (id : Nat) (m : ServerManager X BUF Q A) : Option (HttpConn X BUF) :=
  match m.find_tcp id with
  | some { state := .Established http, .. } => some http
  | _ => none

/-- What a call would have returned in `m` on receiving an event, that connection returns in `m'`.
A QUIC connection that bears the same id is another connection. -/
def Serves (id : Nat) (m m' : ServerManager X BUF Q A) : HttpEvent → Prop
  | .Headers stream_id => ∀ headers, (m.recv_headers id stream_id).1 = (.ok (), headers) →
      (m'.established id).isSome ∧ (m'.recv_headers id stream_id).1 = (.ok (), headers)
  | .Data stream_id => ∀ room body fin, (m.recv_body id stream_id room).1 = .ok (body, fin) →
      (m'.established id).isSome ∧ ∃ fin', (m'.recv_body id stream_id room).1 = .ok (body, fin')
  | _ => True

/-- A call made on receiving an event returns something. -/
def Answers (id : Nat) (m : ServerManager X BUF Q A) : HttpEvent → Prop
  | .Headers stream_id => ∃ headers, (m.recv_headers id stream_id).1 = (.ok (), headers)
  | .Data stream_id => ∃ room body, (m.recv_body id stream_id room).1 = .ok body
  | _ => False

/-- The number of events that leave the front of the queue in a call: one that is returned, and
those that a full queue loses. -/
def leaving (a : Op A P) (m : ServerManager X BUF Q A) : Nat :=
  m.events.length - (exchange a m).events.length + (lost a m).length

/-- How many events are ahead of one that had `n` ahead of it, after some calls. It may have
left. -/
def ahead : List (Op A P) → Nat → ServerManager X BUF Q A → Option Nat
  | [], n, _ => some n
  | a :: rest, n, m =>
    if n < leaving a m then none else ahead rest (n - leaving a m) (a.apply m)

/-- Of the events that wait in a connection when its peer has sent its last byte, each that is
handed out later can be served then. Behind one in the queue are those that wait behind it, and
the report that the connection is closed. -/
def Serviceable (P : Type) [H3Server Q P] (id : Nat) (m : ServerManager X BUF Q A) : Prop :=
  ∀ k event, (m.waiting id)[k]? = some event →
    ∀ n, n + 1 + ((m.waiting id).length - k) = (m.tcp_eof id).events.length →
      ∀ (ops : List (Op A P)) (scratch_len : Nat), ahead ops n (m.tcp_eof id) = some 0 →
        Serves id m ((run.final Op.apply (m.tcp_eof id) ops).poll_event scratch_len).2 event

/-- No call would return anything for an event that waits in a connection, unless so many wait
behind it that the queue has no room for it. -/
def NothingToServe (id : Nat) (m : ServerManager X BUF Q A) : Prop :=
  ∀ k event, (m.waiting id)[k]? = some event →
    (m.waiting id).length - k < max m.config.max_events m.events.length → ¬ Answers id m event

/-! ## The queue -/

theorem push_length (max_events : Nat) (events : List ServerEvent) (event : ServerEvent) :
    (push max_events events event).length =
      if events.length ≥ max_events then max events.length 1 else events.length + 1 := by
  unfold push
  split
  · rw [List.length_append, List.length_tail, List.length_singleton]
    omega
  · rw [List.length_append, List.length_singleton]

theorem foldl_push_length (max_events : Nat) (events pushed : List ServerEvent) (h : pushed ≠ []) :
    (pushed.foldl (push max_events) events).length =
      max 1 (max events.length (min max_events (events.length + pushed.length))) := by
  induction pushed generalizing events with
  | nil => exact absurd rfl h
  | cons event rest ih =>
    have hlength := push_length max_events events event
    rw [List.foldl_cons, List.length_cons]
    by_cases hrest : rest = []
    · subst hrest
      rw [List.foldl_nil, List.length_nil, hlength]
      split <;> omega
    · rw [ih _ hrest, hlength]
      have hpos : 0 < rest.length := List.length_pos_iff.mpr hrest
      split <;> omega

omit [H3Server Q P] in
theorem exchange_events (a : Op A P) (m : ServerManager X BUF Q A) :
    (exchange a m).events =
      m.events.drop (m.events.length - (exchange a m).events.length) := by
  cases a with
  | poll_event scratch_len =>
    simp only [exchange]
    rcases m.events with _ | ⟨event, events⟩ <;> simp
  | _ => simp [exchange, add_tls_buffer_kit, take_tls_buffer_kit]

theorem apply_events (a : Op A P) (m : ServerManager X BUF Q A) :
    (a.apply m).events = ((exchange a m).events ++ pushes a m).drop (lost a m).length := by
  have hevents := (moves_apply a m).events
  have hconfig : (exchange a m).config = m.config := by cases a <;> rfl
  rw [hconfig] at hevents
  have hqueue := overflow_append m.config.max_events (exchange a m).events (pushes a m)
  rw [hevents, ← hqueue, lost, List.drop_left]

theorem event_moves_up {a : Op A P} {m : ServerManager X BUF Q A} {n : Nat}
    (hn : n < m.events.length) (h : leaving a m ≤ n) :
    (a.apply m).events[n - leaving a m]? = m.events[n]? := by
  have hexchange := exchange_events a m
  have hle : (exchange a m).events.length ≤ m.events.length := by
    rw [hexchange, List.length_drop]
    exact Nat.sub_le _ _
  unfold leaving at h ⊢
  rw [apply_events, List.getElem?_drop, List.getElem?_append_left (by omega), hexchange,
    List.getElem?_drop]
  congr 1
  have hdrop : (m.events.drop (m.events.length - (exchange a m).events.length)).length =
      (exchange a m).events.length := by rw [← hexchange]
  omega

/-! ## Closed connections -/

/-- The connection of an id is closed, and still in its table. -/
def Shut (id : Nat) (m : ServerManager X BUF Q A) : Prop :=
  ∃ conn, m.find_tcp id = some conn ∧ conn.state = .Closed

section Shut

variable {id : Nat} {m m' : ServerManager X BUF Q A}

theorem Shut.established (h : Shut id m) : m.established id = none := by
  obtain ⟨⟨conn_id, state, protocol, accepted_at⟩, hfind, rfl⟩ := h
  rw [ServerManager.established, hfind]

theorem Shut.of_same (h : Shut id m) (htcp : m'.tcp_conns = m.tcp_conns) : Shut id m' := by
  obtain ⟨conn, hfind, hclosed⟩ := h
  exact ⟨conn, by rw [find_tcp, htcp]; exact hfind, hclosed⟩

/-- New connections stand behind those that are there. -/
theorem Shut.accepted {conn : TcpConn X BUF} (h : Shut id m)
    (htcp : m'.tcp_conns = m.tcp_conns ++ [conn]) : Shut id m' := by
  obtain ⟨found, hfind, hclosed⟩ := h
  refine ⟨found, ?_, hclosed⟩
  rw [find_tcp] at hfind ⊢
  rw [htcp, keyed.find_append, hfind]
  rfl

theorem Shut.others {k : Nat} (h : Shut id m) (htouches : Touches k m m') (hne : id ≠ k) :
    Shut id m' := by
  obtain ⟨conn, hfind, hclosed⟩ := h
  obtain ⟨-, ⟨f, hf, htcp⟩, -⟩ := htouches
  refine ⟨conn, ?_, hclosed⟩
  rw [find_tcp, htcp, keyed.find_modify_ne hne hf]
  exact hfind

theorem shut_set_state (h : (m.find_tcp id).isSome) : Shut id (m.set_state id .Closed) := by
  obtain ⟨conn, hfind⟩ := Option.isSome_iff_exists.mp h
  refine ⟨{ conn with state := .Closed }, ?_, rfl⟩
  let close : TcpConn X BUF → TcpConn X BUF := fun conn => { conn with state := .Closed }
  have hid : ∀ conn, (close conn).id = conn.id := fun _ => rfl
  exact (keyed.find_modify_self hid).trans (congrArg (Option.map close) hfind)

end Shut

section Kept

variable {α : Type}

theorem tcp_conns_push_all (event : α → ServerEvent) (l : List α) (m : ServerManager X BUF Q A) :
    (l.foldl (fun m x => m.push_server_event (event x)) m).tcp_conns = m.tcp_conns := by
  induction l generalizing m with
  | nil => rfl
  | cons x rest ih => exact ih _

theorem tcp_conns_report (id : Nat) (reason : CloseReason) (m : ServerManager X BUF Q A) :
    (m.report_closed id reason).tcp_conns = m.tcp_conns := by
  simp only [report_closed, push_server_event, note_close_reason]
  split <;> rfl

theorem tcp_conns_report_all (reason : CloseReason) (ids : List Nat) (m : ServerManager X BUF Q A) :
    (ids.foldl (fun m id => m.report_closed id reason) m).tcp_conns = m.tcp_conns := by
  induction ids generalizing m with
  | nil => rfl
  | cons id rest ih => exact (ih _).trans (tcp_conns_report id reason m)

theorem tcp_conns_make_room (now : Instant) (m : ServerManager X BUF Q A) (pool : P) :
    (m.make_room now pool).1.tcp_conns = m.tcp_conns := by
  unfold make_room
  split
  · exact tcp_conns_push_all ServerEvent.Closed _ _
  · rfl

theorem tcp_conns_udp_feed {data : Bytes} {addr : A} {now : Instant} {draws : Draws} {pool : P}
    {m : ServerManager X BUF Q A} {r : Except Error Unit × ServerManager X BUF Q A × P}
    (h : m.udp_feed data addr now draws pool = some r) : r.2.1.tcp_conns = m.tcp_conns := by
  have hroom := tcp_conns_make_room now m pool
  unfold udp_feed at h
  split at h
  · simp only [feed_quic, Option.bind_eq_bind, Option.bind_eq_some_iff, Option.pure_def,
      Option.some.injEq] at h
    obtain ⟨_, -, _, -, rfl⟩ := h
    rfl
  · dsimp only at h
    split at h
    · cases h
      exact hroom
    · simp only [open_quic, alloc_id] at h
      split at h
      · cases h
        exact hroom
      · simp only [Option.bind_eq_bind, Option.bind_eq_some_iff] at h
        obtain ⟨⟨result, server, pool'⟩, -, h⟩ := h
        cases result <;>
        · cases h
          exact hroom

theorem find_expire (handshake_timeout_us now : Nat) {id : Nat} {conn : TcpConn X BUF}
    {conns : List (TcpConn X BUF)} (h : keyed.find TcpConn.id id conns = some conn)
    (hclosed : conn.state = .Closed) :
    keyed.find TcpConn.id id (expire_tcp handshake_timeout_us now conns).2.2 = some conn := by
  induction conns with
  | nil => cases h
  | cons first rest ih =>
    rw [keyed.find_cons] at h
    obtain ⟨first_id, state, protocol, accepted_at⟩ := first
    by_cases hid : first_id = id
    · rw [if_pos hid] at h
      cases h
      cases hclosed
      simp [expire_tcp, keyed.find_cons, hid]
    · rw [if_neg hid] at h
      have hrest := ih h
      cases state with
      | Handshaking parts =>
        simp only [expire_tcp]
        split <;> simpa [keyed.find_cons, hid] using hrest
      | Established http => simpa [expire_tcp, keyed.find_cons, hid] using hrest
      | Closed => simpa [expire_tcp, keyed.find_cons, hid] using hrest

/-- A call on a stream of a closed connection does nothing over TCP. -/
theorem on_stream_of_shut {id : Nat} {tcp : HttpConn X BUF → α × HttpConn X BUF} {quic : Q → α × Q}
    {otherwise : α} {m : ServerManager X BUF Q A} (h : Shut id m) :
    (m.on_stream id tcp quic otherwise).2.tcp_conns = m.tcp_conns := by
  obtain ⟨⟨conn_id, state, protocol, accepted_at⟩, hfind, rfl⟩ := h
  unfold on_stream
  rw [hfind]
  dsimp only
  split <;> rfl

end Kept

/-- A call addressed to a closed connection does nothing to it. -/
theorem Shut.addressed {a : Op A P} {id : Nat} {m : ServerManager X BUF Q A} (h : Shut id m)
    (ha : a.addressed = some id) : Shut id (a.apply m) := by
  have hshut := h
  obtain ⟨⟨conn_id, state, protocol, accepted_at⟩, hfind, hstate⟩ := h
  cases hstate
  cases a with
  | tcp_feed k data now =>
    cases ha
    refine hshut.of_same ?_
    simp [Op.apply, tcp_feed, hfind]
  | tcp_poll_output k room =>
    cases ha
    refine hshut.of_same ?_
    simp [Op.apply, tcp_poll_output, hfind]
  | recv_headers k stream_id =>
    cases ha
    exact hshut.of_same (on_stream_of_shut hshut)
  | recv_body k stream_id room =>
    cases ha
    exact hshut.of_same (on_stream_of_shut hshut)
  | send_response k stream_id status headers end_stream =>
    cases ha
    exact hshut.of_same (on_stream_of_shut hshut)
  | send_body k stream_id data end_stream =>
    cases ha
    exact hshut.of_same (on_stream_of_shut hshut)
  | discard_body k stream_id error_code =>
    cases ha
    refine hshut.of_same ?_
    simp [Op.apply, discard_body, hfind]
  | tcp_eof k =>
    cases ha
    refine hshut.of_same ?_
    simp [Op.apply, tcp_eof, hfind]
  | close k =>
    cases ha
    refine hshut.of_same ?_
    simp [Op.apply, ServerManager.close, hfind, TcpState.is_closed]
  | _ => cases ha

/-- A closed connection stays in its table as long as there are events in the queue. -/
theorem Shut.apply {id : Nat} {m : ServerManager X BUF Q A} (h : Shut id m) (a : Op A P)
    (hevents : m.events ≠ []) : Shut id (a.apply m) := by
  rcases haddressed : a.addressed with _ | k
  · cases a with
    | add_tls_buffer_kit kit => exact h.of_same rfl
    | take_tls_buffer_kit => exact h.of_same rfl
    | take_close_reason k => exact h.of_same rfl
    | udp_poll_transmit buf_len now pool => exact h.of_same rfl
    | note_close_reason k reason =>
      refine h.of_same ?_
      simp only [Op.apply, note_close_reason]
      split <;> rfl
    | poll_event scratch_len =>
      obtain ⟨event, rest, hcons⟩ := List.exists_cons_of_ne_nil hevents
      refine h.of_same ?_
      simp [Op.apply, poll_event, hcons]
    | accept_tcp secret random now =>
      simp only [Op.apply, accept_tcp]
      split
      · exact h
      · dsimp only [alloc_id, take_tls_buffer_kit]
        rcases (TlsParts.new_server_on m.tls_config secret random m.free_kits.getLast? :
          Option (TlsParts X BUF)) with _ | parts
        · exact h
        · exact h.accepted rfl
    | accept_tcp_cleartext now =>
      simp only [Op.apply, accept_tcp_cleartext]
      split
      · exact h
      · exact h.accepted rfl
    | udp_feed data addr now draws pool =>
      rcases hfed : m.udp_feed data addr now draws pool with _ | r
      · simpa [Op.apply, hfed] using h
      · refine h.of_same ?_
        simpa [Op.apply, hfed] using tcp_conns_udp_feed hfed
    | handle_timeouts now pool =>
      obtain ⟨conn, hfind, hclosed⟩ := h
      have hexpired := find_expire m.config.handshake_timeout_us now hfind hclosed
      refine Shut.of_same ⟨conn, ?_, hclosed⟩ (tcp_conns_push_all ServerEvent.Closed _ _)
      rw [find_tcp]
      refine (congrArg _ ?_).trans hexpired
      exact tcp_conns_report_all _ _ _
    | _ => cases haddressed
  · by_cases hk : id = k
    · subst hk
      exact h.addressed haddressed
    · exact h.others (touches_apply a m haddressed) hk

theorem shut_tcp_eof {id : Nat} {m : ServerManager X BUF Q A} (h : (m.find_tcp id).isSome) :
    Shut id (m.tcp_eof id) := by
  obtain ⟨⟨conn_id, state, protocol, accepted_at⟩, hfind⟩ := Option.isSome_iff_exists.mp h
  have hset := shut_set_state h
  unfold tcp_eof
  rw [hfind]
  cases state with
  | Closed => exact ⟨_, hfind, rfl⟩
  | Handshaking parts => exact hset.of_same (tcp_conns_report _ _ _)
  | Established http =>
    refine hset.of_same ?_
    dsimp only
    rw [tcp_conns_report, tcp_conns_push_all (.Http id)]
    rfl

/-! ## Drained events -/

theorem find_of_waiting {id k : Nat} {m : ServerManager X BUF Q A}
    (h : (m.waiting id)[k]? = some event) : (m.find_tcp id).isSome := by
  unfold waiting at h
  split at h
  · next hfind => rw [hfind]; rfl
  · cases h

/-- What `tcp_eof` queues for an established connection. -/
def eof_events (id : Nat) (m : ServerManager X BUF Q A) : List ServerEvent :=
  (m.waiting id).map (.Http id) ++ [.Closed id]

theorem tcp_eof_events (id : Nat) {m : ServerManager X BUF Q A} (h : m.waiting id ≠ []) :
    (m.tcp_eof id).events = (eof_events id m).foldl (push m.config.max_events) m.events := by
  unfold eof_events
  unfold waiting at h ⊢
  split at h
  · next http _ _ hfind =>
    let closed := m.close_tcp id (.Established (drain (queued_events http) http).2)
    have hmoves := (moves_push_all (.Http id) (drain (queued_events http) http).1 closed).trans
      (moves_report id .PeerEof _)
    rw [tcp_eof, hfind]
    exact hmoves.events
  · exact absurd rfl h

/-- An event that waited in a connection is in the queue after `tcp_eof`, in its place. -/
theorem drained_event {id k n : Nat} {m : ServerManager X BUF Q A}
    (h : (m.waiting id)[k]? = some event)
    (hn : n + 1 + ((m.waiting id).length - k) = (m.tcp_eof id).events.length) :
    (m.tcp_eof id).events[n]? = some (.Http id event) := by
  have hk : k < (m.waiting id).length := (List.getElem?_eq_some_iff.mp h).1
  have hevents := tcp_eof_events id (List.ne_nil_of_length_pos (Nat.zero_lt_of_lt hk))
  have hsuffix := foldl_push_suffix m.config.max_events m.events (eof_events id m)
  rw [← hevents] at hsuffix
  obtain ⟨front, hfront⟩ := hsuffix
  have hlength := congrArg List.length hfront
  simp only [eof_events, List.length_append, List.length_map, List.length_singleton] at hlength
  have hplace : (m.tcp_eof id).events[n]? =
      (front ++ (m.tcp_eof id).events)[front.length + n]? := by
    rw [List.getElem?_append_right (Nat.le_add_right _ _), Nat.add_sub_cancel_left]
  have hindex : front.length + n = m.events.length + k := by omega
  rw [hplace, hfront, hindex, eof_events, List.getElem?_append_right (Nat.le_add_right _ _),
    Nat.add_sub_cancel_left, List.getElem?_append_left (by rw [List.length_map]; exact hk),
    List.getElem?_map, h]
  rfl

/-- An event finds room in the queue exactly if not too many wait behind it. -/
theorem drained_room {id k : Nat} {m : ServerManager X BUF Q A}
    (h : (m.waiting id)[k]? = some event) :
    (∃ n, n + 1 + ((m.waiting id).length - k) = (m.tcp_eof id).events.length) ↔
      (m.waiting id).length - k < max m.config.max_events m.events.length := by
  have hk : k < (m.waiting id).length := (List.getElem?_eq_some_iff.mp h).1
  have hevents := tcp_eof_events id (List.ne_nil_of_length_pos (Nat.zero_lt_of_lt hk))
  have hlength := foldl_push_length m.config.max_events m.events (eof_events id m)
    (by simp [eof_events])
  rw [← hevents] at hlength
  simp only [eof_events, List.length_append, List.length_map, List.length_singleton] at hlength
  constructor
  · rintro ⟨n, hn⟩
    omega
  · intro hroom
    exact ⟨(m.tcp_eof id).events.length - 1 - ((m.waiting id).length - k), by omega⟩

/-- As long as an event is in the queue, the closed connection it is about stays in its table. -/
theorem shut_while_ahead {id : Nat} (ops : List (Op A P)) {n k : Nat} {m : ServerManager X BUF Q A}
    (hshut : Shut id m) (hn : n < m.events.length) (h : ahead ops n m = some k) :
    Shut id (run.final Op.apply m ops) ∧ (run.final Op.apply m ops).events[k]? = m.events[n]? := by
  induction ops generalizing n m with
  | nil =>
    cases h
    exact ⟨hshut, rfl⟩
  | cons a rest ih =>
    rw [ahead] at h
    split at h
    · cases h
    · next hstays =>
      have hmoved := event_moves_up hn (Nat.le_of_not_lt hstays)
      have hn' : n - leaving a m < (a.apply m).events.length := by
        by_contra hout
        rw [List.getElem?_eq_none (Nat.le_of_not_lt hout), List.getElem?_eq_getElem hn] at hmoved
        cases hmoved
      have hne : m.events ≠ [] := List.ne_nil_of_length_pos (Nat.zero_lt_of_lt hn)
      obtain ⟨hfinal, hevent⟩ := ih (hshut.apply a hne) hn' h
      exact ⟨hfinal, hevent.trans hmoved⟩

/-- Whatever is called in between, a drained event that is handed out is about a connection that
is not established any more. -/
theorem handed_out_late {id k n : Nat} {m : ServerManager X BUF Q A}
    (hevent : (m.waiting id)[k]? = some event)
    (hn : n + 1 + ((m.waiting id).length - k) = (m.tcp_eof id).events.length)
    {ops : List (Op A P)} (h : ahead ops n (m.tcp_eof id) = some 0) (scratch_len : Nat) :
    ((run.final Op.apply (m.tcp_eof id) ops).poll_event scratch_len).1 = some (.Http id event) ∧
      ((run.final Op.apply (m.tcp_eof id) ops).poll_event scratch_len).2.established id = none := by
  have hdrained := drained_event hevent hn
  have hlt : n < (m.tcp_eof id).events.length := by omega
  obtain ⟨hshut, hhead⟩ := shut_while_ahead ops (shut_tcp_eof (find_of_waiting hevent)) hlt h
  rw [hdrained, ← List.head?_eq_getElem?] at hhead
  obtain ⟨rest, hcons⟩ := List.head?_eq_some_iff.mp hhead
  have hne : (run.final Op.apply (m.tcp_eof id) ops).events ≠ [] := by
    rw [hcons]
    exact List.cons_ne_nil _ _
  have hpolled := hshut.apply (.poll_event scratch_len : Op A P) hne
  refine ⟨?_, hpolled.established⟩
  simp [poll_event, hcons]

/-- Polls bring every queued event to the front. -/
theorem ahead_polls (n : Nat) {m : ServerManager X BUF Q A} (hn : n < m.events.length) :
    ahead (List.replicate n (.poll_event 0 : Op A P)) n m = some 0 := by
  induction n generalizing m with
  | zero => rfl
  | succ n ih =>
    have hleaving : leaving (.poll_event 0 : Op A P) m = 1 := by
      have hlost : lost (.poll_event 0 : Op A P) m = [] := by
        simp [lost, overflow, pushes, announces, closes]
      rw [leaving, hlost]
      simp only [exchange, List.length_tail, List.length_nil]
      omega
    rw [List.replicate_succ, ahead, if_neg (by omega), hleaving, Nat.add_sub_cancel]
    refine ih ?_
    obtain ⟨event, rest, hcons⟩ := List.exists_cons_of_ne_nil
      (List.ne_nil_of_length_pos (Nat.zero_lt_of_lt hn))
    rw [hcons] at hn
    simpa [Op.apply, poll_event, hcons] using hn

/-- In every state and for every TCP connection: the events that `tcp_eof` queues can be served when
they are handed out exactly if no call would have returned anything for one of them before. -/
theorem drained_events_are_serviceable_iff (id : Nat) (m : ServerManager X BUF Q A) :
    Serviceable P id m ↔ NothingToServe id m := by
  constructor
  · intro h k event hevent hroom hanswers
    obtain ⟨n, hn⟩ := (drained_room hevent).mpr hroom
    have hahead := ahead_polls (P := P) n (m := m.tcp_eof id) (by omega)
    have hserves := h k event hevent n hn _ 0 hahead
    have hlate := (handed_out_late hevent hn hahead 0).2
    cases event with
    | Headers stream_id =>
      obtain ⟨headers, hanswer⟩ := hanswers
      have hsome := (hserves headers hanswer).1
      rw [hlate] at hsome
      cases hsome
    | Data stream_id =>
      obtain ⟨room, ⟨body, fin⟩, hanswer⟩ := hanswers
      have hsome := (hserves room body fin hanswer).1
      rw [hlate] at hsome
      cases hsome
    | _ => exact hanswers
  · intro h k event hevent n hn ops scratch_len _
    have hnone := h k event hevent ((drained_room hevent).mp ⟨n, hn⟩)
    cases event with
    | Headers stream_id => exact fun headers hanswer => absurd ⟨headers, hanswer⟩ hnone
    | Data stream_id => exact fun room body fin hanswer => absurd ⟨room, (body, fin), hanswer⟩ hnone
    | _ => trivial

/-! ## A request that arrives with FIN -/

/-- A connection in the clear on which a request has arrived. -/
def requested : ServerManager standin.primitives 4096 Empty Unit :=
  let config := { small_config with max_events := 8 }
  let m : ServerManager standin.primitives 4096 Empty Unit := .new no_certificate config
  ((m.accept_tcp_cleartext 0).2.tcp_feed 0 (ascii "GET / HTTP/1.1\r\nHost: a\r\n\r\n") 0).2

/-- The request is announced after the peer's FIN, and its headers are gone: just before, a call
returned them. -/
theorem request_with_fin_is_not_served :
    let polls := List.replicate 2 (.poll_event 0 : Op Unit Unit)
    let polled := (run.final Op.apply (requested.tcp_eof 0) polls).poll_event 0
    ¬ Serviceable Unit 0 requested ∧ polled.1 = some (.Http 0 (.Headers 1)) ∧
      (requested.recv_headers 0 1).1.1 = .ok () ∧ (requested.recv_headers 0 1).1.2.length = 3 ∧
      (polled.2.recv_headers 0 1).1 = (.error .InvalidState, []) := by
  have hanswer : (requested.recv_headers 0 1).1.1 = .ok () := by decide +kernel
  refine ⟨fun h => ?_, by decide +kernel, hanswer, by decide +kernel, by decide +kernel⟩
  have hserves := h 1 (.Headers 1) (by decide +kernel) 2 (by decide +kernel)
    (List.replicate 2 (.poll_event 0)) 0 (by decide +kernel)
  have hsome := (hserves _ (Prod.ext hanswer rfl)).1
  exact absurd hsome (by decide +kernel)

end milli_http.manager
