-- What a call of the server manager moves: the connections it opens and those it closes, the kits
-- that change hands, and the events it queues.
import MilliHttp.Server.Tables

open bytes method

namespace milli_http.manager

open crypto tls tcp_tls https1 h2_tls transport connection stranding ServerManager

variable {X : Primitives} {BUF : Nat} {Q A P : Type} [H3Server Q P]

/-! ## Open connections -/

/-- An open connection: its id, and the kit it is on. -/
abbrev Entry := Nat × Option TlsBufKit

/-- The entry of a TCP connection that is open. -/
def TcpConn.entry (conn : TcpConn X BUF) : List Entry :=
  if conn.state.is_closed then [] else [(conn.id, conn.state.kit)]

/-- A connection whose handshake has taken too long. -/
def TcpConn.expired (handshake_timeout_us now : Nat) (conn : TcpConn X BUF) : Bool :=
  match conn.state with
  | .Handshaking _ => now ≥ saturating_add conn.accepted_at handshake_timeout_us
  | _ => false

def QuicConn.entry (qconn : QuicConn Q A) : Entry := (qconn.id, none)

/-- A QUIC connection that is dead once its timer is driven. -/
def QuicConn.doomed (handshake_timeout_us now : Nat) (qconn : QuicConn Q A) : Bool :=
  dead handshake_timeout_us now { qconn with server := H3Server.handle_timeout now qconn.server }

/-- The kits of some connections. -/
def kits (entries : List Entry) : List TlsBufKit := entries.filterMap Prod.snd

theorem kits_singleton (entry : Entry) : kits [entry] = entry.2.toList := by
  obtain ⟨id, _ | kit⟩ := entry <;> rfl

/-- The ids of the connections that some events say are closed. -/
def closed_ids (events : List ServerEvent) : List Nat :=
  events.filterMap fun
    | .Closed id => some id
    | _ => none

namespace ServerManager

def tcp_entries (m : ServerManager X BUF Q A) : List Entry := m.tcp_conns.flatMap TcpConn.entry

def quic_entries (m : ServerManager X BUF Q A) : List Entry := m.quic_conns.map QuicConn.entry

/-- The connections that are open. -/
def live (m : ServerManager X BUF Q A) : List Entry := m.tcp_entries ++ m.quic_entries

/-- The entry of the TCP connection with an id. -/
def entry_of (id : Nat) (m : ServerManager X BUF Q A) : List Entry :=
  (m.find_tcp id).elim [] TcpConn.entry

/-! ## What a call does -/

/-- TCP data makes a handshake fail, or ends it with a protocol that is not served. -/
def handshake_fails (id : Nat) (data : Bytes) (m : ServerManager X BUF Q A) : Bool :=
  match m.find_tcp id with
  | some { state := .Handshaking parts, .. } =>
    match parts.feed_data data with
    | (.error _, _) => true
    | (.ok _, parts) => parts.is_active && !(http_conn_for_alpn parts).isOk
  | _ => false

/-- TCP data ends a handshake. -/
def handshake_done (id : Nat) (data : Bytes) (m : ServerManager X BUF Q A) : Bool :=
  match m.find_tcp id with
  | some { state := .Handshaking parts, .. } =>
    match parts.feed_data data with
    | (.error _, _) => false
    | (.ok _, parts) => parts.is_active && (http_conn_for_alpn parts).isOk
  | _ => false

/-- The TCP connections whose handshake has taken too long. -/
def timed_out (now : Nat) (m : ServerManager X BUF Q A) : List Entry :=
  (m.tcp_conns.filter (·.expired m.config.handshake_timeout_us now)).flatMap TcpConn.entry

/-- The QUIC connections that are dead once their timers are driven. -/
def reaped (now : Instant) (m : ServerManager X BUF Q A) : List Entry :=
  (m.quic_conns.filter (·.doomed m.config.handshake_timeout_us now)).map QuicConn.entry

/-- The HTTP events that wait in a TCP connection. -/
def waiting (id : Nat) (m : ServerManager X BUF Q A) : List HttpEvent :=
  match m.find_tcp id with
  | some { state := .Established http, .. } => (drain (queued_events http) http).1
  | _ => []

end ServerManager

/-- The connection a call opens. -/
def opened : Op A P → ServerManager X BUF Q A → List Entry
  | .accept_tcp secret random now, m =>
    match m.accept_tcp secret random now with
    | some (.ok id, _) => [(id, m.free_kits.getLast?)]
    | _ => []
  | .accept_tcp_cleartext now, m =>
    match m.accept_tcp_cleartext now with
    | (.ok id, _) => [(id, none)]
    | _ => []
  | .udp_feed data addr now draws pool, m =>
    match m.route data, m.udp_feed data addr now draws pool with
    | none, some (.ok _, _) => [(m.next_id, none)]
    | _, _ => []
  | _, _ => []

/-- The connections that a call closes, to say so by events it queues. -/
def closes : Op A P → ServerManager X BUF Q A → List Entry
  | .tcp_feed id data _, m => if m.handshake_fails id data then m.entry_of id else []
  | .udp_feed data addr now draws pool, m =>
    if (m.route data).isNone && m.quic_full && (m.udp_feed data addr now draws pool).isSome then
      m.reaped now
    else []
  | .handle_timeouts now _, m => m.timed_out now ++ m.reaped now
  | .tcp_eof id, m => m.entry_of id
  | .close id, m => m.entry_of id
  | _, _ => []

/-- The events that a call queues, apart from those about connections it closes. -/
def announces : Op A P → ServerManager X BUF Q A → List ServerEvent
  | .accept_tcp_cleartext now, m =>
    (opened (.accept_tcp_cleartext now : Op A P) m).map fun entry => .Connected entry.1
  | .tcp_feed id data _, m => if m.handshake_done id data then [.Connected id] else []
  | .tcp_eof id, m => (m.waiting id).map (.Http id)
  | _, _ => []

/-- The events that a call queues. -/
def pushes (a : Op A P) (m : ServerManager X BUF Q A) : List ServerEvent :=
  announces a m ++ (closes a m).map fun entry => .Closed entry.1

/-- The event that a call returns. -/
def returned : Op A P → ServerManager X BUF Q A → Option ServerEvent
  | .poll_event scratch_len, m => (m.poll_event scratch_len).1
  | _, _ => none

/-- The connection that was found to have closed itself. -/
def ServerManager.Polled.closes : Polled → List Entry
  | .closed id kit => [(id, kit)]
  | _ => []

/-- The connection that `poll_event` finds to have closed itself. It says so at once. -/
def closes_itself : Op A P → ServerManager X BUF Q A → List Entry
  | .poll_event _, m => if m.events = [] then (poll_tcp m.tcp_conns).1.closes else []
  | _, _ => []

/-- What a call takes out of the manager for the caller, or puts into it. -/
def exchange : Op A P → ServerManager X BUF Q A → ServerManager X BUF Q A
  | .add_tls_buffer_kit kit, m => m.add_tls_buffer_kit kit
  | .take_tls_buffer_kit, m => m.take_tls_buffer_kit.2
  | .poll_event _, m => { m with events := m.events.tail }
  | _, m => m

/-! ## Moves -/

/-- How connections and kits move from one state to another: every connection that was open or is
opened is closed or open, and a kit that is not idle any more is with a connection. -/
structure Moves (m m' : ServerManager X BUF Q A) (opened closed : List Entry)
    (pushed : List ServerEvent) : Prop where
  config : m'.config = m.config
  live : (m.live ++ opened).Perm (closed ++ m'.live)
  tcp : m'.tcp_entries.Sublist (m.tcp_entries ++ opened)
  idle : (m'.free_kits ++ kits opened).Perm (m.free_kits ++ kits closed)
  events : m'.events = pushed.foldl (push m.config.max_events) m.events

section Rules

variable {m m' m'' : ServerManager X BUF Q A} {opened₁ opened₂ closed₁ closed₂ : List Entry}
  {pushed₁ pushed₂ : List ServerEvent}

theorem Moves.trans (h₁ : Moves m m' opened₁ closed₁ pushed₁)
    (h₂ : Moves m' m'' opened₂ closed₂ pushed₂) :
    Moves m m'' (opened₁ ++ opened₂) (closed₁ ++ closed₂) (pushed₁ ++ pushed₂) := by
  refine ⟨h₂.config.trans h₁.config, ?_, ?_, ?_, ?_⟩
  · have hfirst := h₁.live.append_right opened₂
    have hsecond := h₂.live.append_left closed₁
    simp only [List.append_assoc] at hfirst hsecond ⊢
    exact hfirst.trans hsecond
  · have hboth := h₂.tcp.trans (h₁.tcp.append_right opened₂)
    rwa [List.append_assoc] at hboth
  · have hfirst := h₁.idle.append_right (kits closed₂)
    have hsecond := h₂.idle.append_right (kits opened₁)
    simp only [kits, List.filterMap_append, List.append_assoc] at hfirst hsecond ⊢
    have hopened := (@List.perm_append_comm _ (kits opened₁) (kits opened₂)).append_left m''.free_kits
    have hclosed := (@List.perm_append_comm _ (kits closed₂) (kits opened₁)).append_left m'.free_kits
    exact hopened.trans (hsecond.trans (hclosed.trans hfirst))
  · rw [List.foldl_append, ← h₁.events, h₂.events, h₁.config]

theorem moves_of_same (hconfig : m'.config = m.config) (htcp : m'.tcp_entries = m.tcp_entries)
    (hquic : m'.quic_entries = m.quic_entries) (hkits : m'.free_kits = m.free_kits)
    (hevents : m'.events = m.events) : Moves m m' [] [] [] := by
  refine ⟨hconfig, ?_, ?_, ?_, hevents⟩
  · simp [live, htcp, hquic]
  · simp [htcp]
  · simp [kits, hkits]

theorem moves_refl (m : ServerManager X BUF Q A) : Moves m m [] [] [] :=
  moves_of_same rfl rfl rfl rfl rfl

theorem moves_push (event : ServerEvent) (m : ServerManager X BUF Q A) :
    Moves m (m.push_server_event event) [] [] [event] :=
  ⟨rfl, by simp [live, tcp_entries, quic_entries, push_server_event], by
    simp [tcp_entries, push_server_event], by simp [kits, push_server_event], rfl⟩

theorem moves_note (id : Nat) (reason : CloseReason) (m : ServerManager X BUF Q A) :
    Moves m (m.note_close_reason id reason) [] [] [] := by
  unfold note_close_reason
  split <;> exact moves_of_same rfl rfl rfl rfl rfl

theorem moves_report (id : Nat) (reason : CloseReason) (m : ServerManager X BUF Q A) :
    Moves m (m.report_closed id reason) [] [] [.Closed id] :=
  (moves_note id reason m).trans (moves_push _ _)

theorem moves_push_all {α : Type} (event : α → ServerEvent) (l : List α)
    (m : ServerManager X BUF Q A) :
    Moves m (l.foldl (fun m x => m.push_server_event (event x)) m) [] [] (l.map event) := by
  induction l generalizing m with
  | nil => exact moves_refl m
  | cons x rest ih => exact (moves_push (event x) m).trans (ih _)

theorem moves_report_all (reason : CloseReason) (ids : List Nat) (m : ServerManager X BUF Q A) :
    Moves m (ids.foldl (fun m id => m.report_closed id reason) m) [] [] (ids.map .Closed) := by
  induction ids generalizing m with
  | nil => exact moves_refl m
  | cons id rest ih => exact (moves_report id reason m).trans (ih _)

end Rules

/-! ## Calls on one connection -/

variable {m : ServerManager X BUF Q A} {id : Nat} {conn : TcpConn X BUF} {kit : Option TlsBufKit}

theorem entry_of_find (h : m.find_tcp id = some conn) : m.entry_of id = conn.entry := by
  rw [entry_of, h]
  rfl

/-- A connection is called, and stays as it is to the others. -/
theorem moves_called {f : TcpConn X BUF → TcpConn X BUF} (h : m.find_tcp id = some conn)
    (hentry : (f conn).entry = conn.entry) :
    Moves m { m with tcp_conns := keyed.modify TcpConn.id id f m.tcp_conns } [] [] [] := by
  refine moves_of_same rfl (keyed.flatMap_modify fun found hfound => ?_) rfl rfl rfl
  obtain rfl : found = conn := Option.some.inj (hfound.symm.trans h)
  exact hentry

/-- The reclaim funnel: a connection leaves on its way to `Closed`, and its kit is idle again. -/
theorem moves_closed (h : m.find_tcp id = some conn) (hkit : kit = conn.state.kit) :
    Moves m ((m.set_state id .Closed).return_kit kit) [] conn.entry [] := by
  have hperm := keyed.perm_flatMap_modify (f := fun conn => { conn with state := .Closed })
    (g := TcpConn.entry) h
  have hclosed : ({ conn with state := .Closed } : TcpConn X BUF).entry = [] := rfl
  rw [hclosed, List.nil_append] at hperm
  have hkits : kits conn.entry = kit.toList := by
    subst hkit
    obtain ⟨_, state, _, _⟩ := conn
    cases state with
    | Closed => rfl
    | Handshaking parts =>
      simp only [kits, TcpConn.entry, TcpState.is_closed, Bool.false_eq_true, if_false]
      cases TcpState.kit (.Handshaking parts) <;> rfl
    | Established http =>
      simp only [kits, TcpConn.entry, TcpState.is_closed, Bool.false_eq_true, if_false]
      cases TcpState.kit (.Established http) <;> rfl
  refine ⟨rfl, ?_, ?_, ?_, rfl⟩
  · have hall := hperm.append_right m.quic_entries
    rw [List.append_assoc] at hall
    rw [List.append_nil]
    exact hall
  · rw [List.append_nil]
    exact keyed.sublist_flatMap_modify fun found _ => List.nil_sublist _
  · rw [hkits]
    simp [kits, return_kit, set_state]

theorem close_tcp_eq (id : Nat) (state : TcpState X BUF) (m : ServerManager X BUF Q A) :
    m.close_tcp id state = (m.set_state id .Closed).return_kit state.kit := rfl

/-- The id under which a connection is found is its own. -/
theorem map_closed_entry (h : m.find_tcp id = some conn) (hopen : conn.state.is_closed = false) :
    (conn.entry.map fun entry => ServerEvent.Closed entry.1) = [.Closed id] := by
  have hid : conn.id = id := keyed.find_key h
  simp [TcpConn.entry, hopen, hid]

theorem moves_close_report (reason : CloseReason)
    (h : m.find_tcp id = some conn) (hopen : conn.state.is_closed = false)
    (hkit : kit = conn.state.kit) :
    Moves m (((m.set_state id .Closed).return_kit kit).report_closed id reason) [] (m.entry_of id)
      ((m.entry_of id).map fun entry => .Closed entry.1) := by
  rw [entry_of_find h, map_closed_entry h hopen]
  have hmoves := (moves_closed h hkit).trans (moves_report id reason _)
  simpa only [List.append_nil, List.nil_append] using hmoves

theorem moves_set_state {state : TcpState X BUF} (h : m.find_tcp id = some conn)
    (hopen : conn.state.is_closed = false) (hopen' : state.is_closed = false)
    (hkit : state.kit = conn.state.kit) : Moves m (m.set_state id state) [] [] [] := by
  refine moves_called h ?_
  simp [TcpConn.entry, hopen, hopen', hkit]

/-! ## Accepting connections -/

/-- A TCP connection is new, on a kit that was idle. -/
theorem moves_accepted {m' : ServerManager X BUF Q A} (entry : Entry) (hconfig : m'.config = m.config)
    (htcp : m'.tcp_conns = m.tcp_conns ++ [conn]) (hquic : m'.quic_conns = m.quic_conns)
    (hevents : m'.events = m.events) (hentry : conn.entry = [entry])
    (hkit : m'.free_kits ++ entry.2.toList = m.free_kits) : Moves m m' [entry] [] [] := by
  have htcp' : m'.tcp_entries = m.tcp_entries ++ [entry] := by
    simp [tcp_entries, htcp, List.flatMap_append, hentry]
  refine ⟨hconfig, ?_, ?_, ?_, hevents⟩
  · have hquic' : m'.quic_entries = m.quic_entries := by rw [quic_entries, quic_entries, hquic]
    simp only [live, htcp', hquic', List.append_assoc, List.nil_append]
    exact List.perm_append_comm.append_left _
  · rw [htcp']
  · rw [kits_singleton, hkit]
    simp [kits]

theorem dropLast_getLast {α : Type} (l : List α) : l.dropLast ++ l.getLast?.toList = l := by
  rcases List.eq_nil_or_concat l with rfl | ⟨init, last, rfl⟩ <;> simp

theorem moves_accept_tcp (secret random : Bytes) (now : Nat) (m : ServerManager X BUF Q A) :
    Moves m (Op.apply (.accept_tcp secret random now) m) (opened (.accept_tcp secret random now) m)
      [] [] := by
  simp only [Op.apply, opened]
  unfold accept_tcp
  split
  · exact moves_refl m
  · dsimp only [alloc_id, take_tls_buffer_kit]
    rcases hparts : (TlsParts.new_server_on m.tls_config secret random m.free_kits.getLast? :
      Option (TlsParts X BUF)) with _ | parts
    · exact moves_refl m
    · refine moves_accepted (m.next_id, m.free_kits.getLast?) rfl rfl rfl rfl ?_
        (dropLast_getLast m.free_kits)
      simp only [TcpConn.entry, TcpState.is_closed, Bool.false_eq_true, if_false, TcpState.kit,
        TlsParts.reclaim_new_server_on hparts]

theorem moves_accept_tcp_cleartext (now : Nat) (m : ServerManager X BUF Q A) :
    Moves m (Op.apply (.accept_tcp_cleartext now : Op A P) m)
      (opened (.accept_tcp_cleartext now : Op A P) m) [] (pushes (.accept_tcp_cleartext now : Op A P) m) := by
  simp only [Op.apply, pushes, announces, opened, closes]
  unfold accept_tcp_cleartext
  split
  · exact moves_refl m
  · dsimp only [alloc_id]
    have hnew {conn : TcpConn X BUF} (hentry : conn.entry = [(m.next_id, none)]) :
        Moves m { m with tcp_conns := m.tcp_conns ++ [conn], next_id := (m.next_id + 1) % 2 ^ 32 }
          [(m.next_id, none)] [] [] :=
      moves_accepted (m.next_id, none) rfl rfl rfl rfl hentry (by simp)
    exact (hnew rfl).trans (moves_push _ _)

/-! ## TCP data -/

theorem kit_of_no_alpn {parts : TlsParts X BUF}
    (h : http_conn_for_alpn parts = .error kit) : kit = parts.reclaim_buffers.1 := by
  simp only [http_conn_for_alpn] at h
  split at h
  · cases h
  · split at h
    · cases h
    · cases h
      rfl

theorem kit_fed {data : Bytes} {parts parts' : TlsParts X BUF} {r : Except Error Unit}
    (h : parts.feed_data data = (r, parts')) :
    TcpState.kit (.Handshaking parts') = TcpState.kit (.Handshaking parts) := by
  have hparts : parts' = (parts.feed_data data).2 := by rw [h]
  rw [hparts]
  rfl

theorem kit_http_conn {parts : TlsParts X BUF} {protocol : ConnProtocol} {http : HttpConn X BUF}
    (h : http_conn_for_alpn parts = .ok (protocol, http)) :
    TcpState.kit (.Established http) = TcpState.kit (.Handshaking parts) := by
  simp only [http_conn_for_alpn] at h
  split at h
  · cases h
    rfl
  · split at h
    · cases h
      rfl
    · cases h

theorem moves_tcp_feed (id : Nat) (data : Bytes) (now : Nat) (m : ServerManager X BUF Q A) :
    Moves m (m.tcp_feed id data now).2 [] (closes (.tcp_feed id data now : Op A P) m)
      (pushes (.tcp_feed id data now : Op A P) m) := by
  rcases Option.eq_none_or_eq_some (m.find_tcp id) with hfind | ⟨conn, hfind⟩
  · simpa [tcp_feed, pushes, announces, closes, handshake_fails, handshake_done, hfind] using moves_refl m
  obtain ⟨conn_id, state, protocol, accepted_at⟩ := conn
  cases state with
  | Closed =>
    simpa [tcp_feed, pushes, announces, closes, handshake_fails, handshake_done, hfind] using moves_refl m
  | Established http =>
    have hmoves : Moves m (m.set_state id (.Established (http.tcp_feed_data data now).2)) _ _ _ :=
      moves_set_state hfind rfl rfl rfl
    simpa [tcp_feed, pushes, announces, closes, handshake_fails, handshake_done, hfind] using hmoves
  | Handshaking parts =>
    rcases hfed : parts.feed_data data with ⟨e | _, parts'⟩
    · have hmoves := moves_close_report (.HandshakeError e) hfind rfl (kit_fed hfed)
      simpa [tcp_feed, close_tcp_eq, pushes, announces, closes, handshake_fails, handshake_done, hfind, hfed]
        using hmoves
    · have hkit := kit_fed hfed
      by_cases hactive : parts'.is_active = true
      · rcases halpn : http_conn_for_alpn parts' with kit | ⟨protocol', http⟩
        · have hmoves := moves_close_report .UnsupportedAlpn hfind rfl ((kit_of_no_alpn halpn).trans hkit)
          simpa [tcp_feed, upgrade, pushes, announces, closes, handshake_fails, handshake_done, hfind, hfed,
            hactive, halpn, Except.isOk, Except.toBool] using hmoves
        · have hhttp := (kit_http_conn halpn).trans hkit
          let fed := ((http.set_timeouts m.config.http_timeouts now).tcp_feed_data [] now).2
          have hmoves := (moves_called (f := fun conn =>
            { conn with state := .Established fed, protocol := protocol' }) hfind
            (congrArg (fun kit => [(conn_id, kit)]) hhttp)).trans (moves_push (.Connected id) _)
          simpa [tcp_feed, upgrade, pushes, announces, closes, handshake_fails, handshake_done, hfind, hfed,
            hactive, halpn, Except.isOk, Except.toBool] using hmoves
      · have hmoves := moves_set_state hfind rfl rfl hkit
        simpa [tcp_feed, pushes, announces, closes, handshake_fails, handshake_done, hfind, hfed, hactive]
          using hmoves

theorem moves_tcp_poll_output (id room : Nat) (m : ServerManager X BUF Q A) :
    Moves m (m.tcp_poll_output id room).2 [] [] [] := by
  unfold tcp_poll_output
  rcases hfind : m.find_tcp id with _ | ⟨conn_id, state, protocol, accepted_at⟩
  · exact moves_refl m
  · cases state with
    | Closed => exact moves_refl m
    | Established http => exact moves_set_state hfind rfl rfl rfl
    | Handshaking parts => exact moves_set_state hfind rfl rfl rfl

/-! ## Calls of the application -/

theorem moves_set_server {server : Q} (m : ServerManager X BUF Q A) :
    Moves m (m.set_server id server) [] [] [] :=
  moves_of_same rfl rfl (keyed.map_modify fun _ => rfl) rfl rfl

/-- A call on a stream leaves the buffers where they are. -/
theorem moves_on_stream {α : Type} {tcp : HttpConn X BUF → α × HttpConn X BUF} {quic : Q → α × Q}
    {otherwise : α} (htcp : ∀ http, (tcp http).2.storage = http.storage)
    (m : ServerManager X BUF Q A) : Moves m (m.on_stream id tcp quic otherwise).2 [] [] [] := by
  unfold on_stream
  split
  · next http _ _ hfind =>
    refine moves_set_state hfind rfl rfl ?_
    simp only [TcpState.kit, HttpConn.reclaim_buffers, htcp]
  · split
    · exact moves_set_server m
    · exact moves_refl m

theorem moves_discard_body (id stream_id error_code : Nat) (m : ServerManager X BUF Q A) :
    Moves m (m.discard_body id stream_id error_code).2 [] [] [] := by
  unfold discard_body
  split
  · next hfind => exact moves_set_state hfind rfl rfl rfl
  · exact moves_refl m

/-! ## The end of connections -/

theorem storage_drain (n : Nat) (http : HttpConn X BUF) : (drain n http).2.storage = http.storage := by
  induction n generalizing http with
  | zero => rfl
  | succ n ih =>
    have hpoll : http.poll_event.2.storage = http.storage := rfl
    rw [ServerManager.drain]
    split
    · next h => rwa [h] at hpoll
    · next h =>
      rw [h] at hpoll
      exact (ih _).trans hpoll

theorem moves_tcp_eof (id : Nat) (m : ServerManager X BUF Q A) :
    Moves m (m.tcp_eof id) [] (closes (.tcp_eof id : Op A P) m) (pushes (.tcp_eof id : Op A P) m) := by
  rcases Option.eq_none_or_eq_some (m.find_tcp id) with hfind | ⟨conn, hfind⟩
  · simpa [tcp_eof, pushes, announces, closes, waiting, entry_of, hfind] using moves_refl m
  obtain ⟨conn_id, state, protocol, accepted_at⟩ := conn
  cases state with
  | Closed =>
    simpa [tcp_eof, pushes, announces, closes, waiting, entry_of, hfind, TcpConn.entry, TcpState.is_closed]
      using moves_refl m
  | Handshaking parts =>
    have hmoves := moves_close_report .PeerEof hfind rfl rfl
    simpa [tcp_eof, close_tcp_eq, pushes, announces, closes, waiting, hfind] using hmoves
  | Established http =>
    have hkit : TcpState.kit (.Established (drain (queued_events http) http).2) =
        TcpState.kit (.Established http) := by
      simp only [TcpState.kit, HttpConn.reclaim_buffers, storage_drain]
    have hclosed := moves_closed hfind hkit
    have hpushed := moves_push_all (.Http id) (drain (queued_events http) http).1
      ((m.set_state id .Closed).return_kit (TcpState.kit (.Established (drain (queued_events http) http).2)))
    have hmoves := (hclosed.trans hpushed).trans (moves_report id .PeerEof _)
    rw [← entry_of_find hfind] at hmoves
    simpa [tcp_eof, close_tcp_eq, pushes, announces, closes, waiting, hfind, map_closed_entry hfind rfl,
      entry_of_find hfind] using hmoves

theorem moves_close (id : Nat) (m : ServerManager X BUF Q A) :
    Moves m (m.close id).2 [] (closes (.close id : Op A P) m) (pushes (.close id : Op A P) m) := by
  rcases Option.eq_none_or_eq_some (m.find_tcp id) with hfind | ⟨conn, hfind⟩
  · have hquic : Moves m (m.close id).2 [] [] [] := by
      simp only [close, hfind]
      split
      · exact moves_set_server m
      · exact moves_refl m
    simpa [pushes, announces, closes, entry_of, hfind] using hquic
  · by_cases hclosed : conn.state.is_closed = true
    · simpa [close, pushes, announces, closes, entry_of, hfind, TcpConn.entry, hclosed] using moves_refl m
    · have hmoves := moves_close_report .AppClose hfind (Bool.eq_false_iff.mpr hclosed) rfl
      simpa [close, close_tcp_eq, pushes, announces, closes, hfind, hclosed] using hmoves

/-- Of the TCP connections some leave, and the others keep their places and their kits. -/
structure Leaves (conns : List (TcpConn X BUF)) (gone : List Entry) (left : List (TcpConn X BUF)) :
    Prop where
  live : (conns.flatMap TcpConn.entry).Perm (gone ++ left.flatMap TcpConn.entry)
  tcp : (left.flatMap TcpConn.entry).Sublist (conns.flatMap TcpConn.entry)

/-- Connections leave, and their kits are idle. -/
theorem moves_leave {gone : List Entry} {left : List (TcpConn X BUF)}
    (h : Leaves m.tcp_conns gone left) :
    Moves m { m with tcp_conns := left, free_kits := m.free_kits ++ kits gone } [] gone [] := by
  refine ⟨rfl, ?_, ?_, ?_, rfl⟩
  · have hlive := h.live.append_right m.quic_entries
    rw [List.append_assoc] at hlive
    rw [List.append_nil]
    exact hlive
  · rw [List.append_nil]
    exact h.tcp
  · simp [kits]

section Leaves

variable {conns left : List (TcpConn X BUF)} {gone : List Entry} {conn' : TcpConn X BUF}

theorem leaves_refl (conns : List (TcpConn X BUF)) : Leaves conns [] conns := ⟨.refl _, .refl _⟩

theorem leaves_nil : Leaves ([] : List (TcpConn X BUF)) [] [] := leaves_refl []

theorem Leaves.kept (h : Leaves conns gone left) (hentry : conn'.entry = conn.entry) :
    Leaves (conn :: conns) gone (conn' :: left) := by
  refine ⟨?_, ?_⟩
  · rw [List.flatMap_cons, List.flatMap_cons, hentry]
    exact (h.live.append_left _).trans (List.perm_append_comm_assoc _ _ _)
  · rw [List.flatMap_cons, List.flatMap_cons, hentry]
    exact h.tcp.append_left _

theorem Leaves.left_out {entries : List Entry} (h : Leaves conns gone left) (hentry : conn.entry = entries)
    (hclosed : conn'.entry = []) : Leaves (conn :: conns) (entries ++ gone) (conn' :: left) := by
  refine ⟨?_, ?_⟩
  · rw [List.flatMap_cons, List.flatMap_cons, hentry, hclosed, List.nil_append, List.append_assoc]
    exact h.live.append_left _
  · rw [List.flatMap_cons, List.flatMap_cons, hclosed]
    exact h.tcp.trans (List.sublist_append_right _ _)

end Leaves

/-- What the timers of TCP connections do to entries. -/
structure Expires (handshake_timeout_us now : Nat) (conns : List (TcpConn X BUF))
    (timed_out : List Nat) (reclaimed_kits : List TlsBufKit) (left : List (TcpConn X BUF)) :
    Prop where
  ids : timed_out =
    ((conns.filter (·.expired handshake_timeout_us now)).flatMap TcpConn.entry).map Prod.fst
  kits : reclaimed_kits =
    kits ((conns.filter (·.expired handshake_timeout_us now)).flatMap TcpConn.entry)
  leaves : Leaves conns ((conns.filter (·.expired handshake_timeout_us now)).flatMap TcpConn.entry) left

section Expires

variable {handshake_timeout_us now : Nat} {conns left : List (TcpConn X BUF)} {timed_out : List Nat}
  {reclaimed_kits : List TlsBufKit} {conn' : TcpConn X BUF}

/-- A connection that has time stays in its place. -/
theorem Expires.kept (h : Expires handshake_timeout_us now conns timed_out reclaimed_kits left)
    (hexpired : conn.expired handshake_timeout_us now = false) (hentry : conn'.entry = conn.entry) :
    Expires handshake_timeout_us now (conn :: conns) timed_out reclaimed_kits (conn' :: left) := by
  have hfilter : (conn :: conns).filter (·.expired handshake_timeout_us now) =
      conns.filter (·.expired handshake_timeout_us now) := by
    rw [List.filter_cons, hexpired]
    rfl
  refine ⟨?_, ?_, ?_⟩
  · rw [hfilter]
    exact h.ids
  · rw [hfilter]
    exact h.kits
  · rw [hfilter]
    exact h.leaves.kept hentry

/-- One that has taken too long leaves its entry, and its kit. -/
theorem Expires.reclaimed (h : Expires handshake_timeout_us now conns timed_out reclaimed_kits left)
    (hexpired : conn.expired handshake_timeout_us now = true)
    (hentry : conn.entry = [(conn.id, conn.state.kit)]) (hclosed : conn'.entry = []) :
    Expires handshake_timeout_us now (conn :: conns) (conn.id :: timed_out)
      (conn.state.kit.toList ++ reclaimed_kits) (conn' :: left) := by
  have hfilter : (conn :: conns).filter (·.expired handshake_timeout_us now) =
      conn :: conns.filter (·.expired handshake_timeout_us now) := by
    rw [List.filter_cons, hexpired]
    rfl
  refine ⟨?_, ?_, ?_⟩
  · rw [hfilter, List.flatMap_cons, hentry, h.ids]
    rfl
  · have hkits : manager.kits [(conn.id, conn.state.kit)] = conn.state.kit.toList := kits_singleton _
    rw [hfilter, List.flatMap_cons, hentry, h.kits, ← hkits]
    exact (List.filterMap_append).symm
  · rw [hfilter, List.flatMap_cons, hentry]
    exact h.leaves.left_out hentry hclosed

theorem expires (handshake_timeout_us now : Nat) (conns : List (TcpConn X BUF)) :
    Expires handshake_timeout_us now conns (expire_tcp handshake_timeout_us now conns).1
      (expire_tcp handshake_timeout_us now conns).2.1
      (expire_tcp handshake_timeout_us now conns).2.2 := by
  induction conns with
  | nil => exact ⟨rfl, rfl, leaves_nil⟩
  | cons conn rest ih =>
    obtain ⟨conn_id, state, protocol, accepted_at⟩ := conn
    cases state with
    | Closed => exact ih.kept rfl rfl
    | Established http => exact ih.kept rfl rfl
    | Handshaking parts =>
      simp only [expire_tcp]
      split
      · next h => exact ih.reclaimed (by simpa [TcpConn.expired] using h) rfl rfl
      · next h => exact ih.kept (by simpa [TcpConn.expired] using h) rfl

end Expires

theorem moves_handle_tcp_timeouts (now : Nat) (m : ServerManager X BUF Q A) :
    Moves m (m.handle_tcp_timeouts now) [] (m.timed_out now)
      ((m.timed_out now).map fun entry => .Closed entry.1) := by
  have h := expires m.config.handshake_timeout_us now m.tcp_conns
  have hreported := moves_report_all .HandshakeTimeout
    (expire_tcp m.config.handshake_timeout_us now m.tcp_conns).1
    { m with
      tcp_conns := (expire_tcp m.config.handshake_timeout_us now m.tcp_conns).2.2
      free_kits := m.free_kits ++ (expire_tcp m.config.handshake_timeout_us now m.tcp_conns).2.1 }
  have hids : (expire_tcp m.config.handshake_timeout_us now m.tcp_conns).1.map ServerEvent.Closed =
      (m.timed_out now).map fun entry => .Closed entry.1 := by
    rw [h.ids, List.map_map]
    rfl
  rw [hids] at hreported
  have hexpired : Moves m _ [] (m.timed_out now) [] := moves_leave h.leaves
  rw [timed_out, ← h.kits] at hexpired
  have hmoves : Moves m (m.handle_tcp_timeouts now) _ _ _ := hexpired.trans hreported
  simpa only [List.append_nil, List.nil_append, timed_out] using hmoves

/-! ## QUIC connections -/

theorem entries_reap (handshake_timeout_us : Nat) (now : Instant) (conns : List (QuicConn Q A))
    (pool : P) :
    (reap handshake_timeout_us now conns pool).1 =
        ((conns.filter (·.doomed handshake_timeout_us now)).map QuicConn.entry).map Prod.fst ∧
      (conns.map QuicConn.entry).Perm
        ((conns.filter (·.doomed handshake_timeout_us now)).map QuicConn.entry ++
          (reap handshake_timeout_us now conns pool).2.1.map QuicConn.entry) := by
  induction conns generalizing pool with
  | nil => exact ⟨rfl, .refl _⟩
  | cons qconn rest ih =>
    rw [reap, List.filter_cons]
    by_cases hdead : qconn.doomed handshake_timeout_us now = true
    · obtain ⟨hids, hlive⟩ := ih (H3Server.release_handshake_slot
        (H3Server.handle_timeout now qconn.server) pool).2
      rw [if_pos hdead]
      rw [QuicConn.doomed] at hdead
      rw [if_pos hdead]
      refine ⟨?_, ?_⟩
      · simp only [hids, List.map_cons]
        rfl
      · exact hlive.cons _
    · obtain ⟨hids, hlive⟩ := ih pool
      rw [if_neg hdead]
      rw [QuicConn.doomed] at hdead
      rw [if_neg hdead]
      exact ⟨hids, (hlive.cons _).trans List.perm_middle.symm⟩

theorem moves_reap (now : Instant) (m : ServerManager X BUF Q A) (pool : P) :
    Moves m (m.reap_quic_conns now pool).1 [] (m.reaped now)
      ((m.reaped now).map fun entry => .Closed entry.1) := by
  obtain ⟨hids, hlive⟩ := entries_reap m.config.handshake_timeout_us now m.quic_conns pool
  have hkits : kits (m.reaped now) = [] := by
    rw [kits, reaped, List.filterMap_map]
    exact List.filterMap_eq_nil_iff.mpr fun _ _ => rfl
  have hremoved : Moves m
      { m with quic_conns := (reap m.config.handshake_timeout_us now m.quic_conns pool).2.1 }
      [] (m.reaped now) [] := by
    refine ⟨rfl, ?_, ?_, ?_, rfl⟩
    · rw [List.append_nil]
      exact (hlive.append_left m.tcp_entries).trans (List.perm_append_comm_assoc _ _ _)
    · rw [List.append_nil]
      exact .refl _
    · rw [hkits]
      exact .refl _
  have hpushed := moves_push_all ServerEvent.Closed
    (reap m.config.handshake_timeout_us now m.quic_conns pool).1
    { m with quic_conns := (reap m.config.handshake_timeout_us now m.quic_conns pool).2.1 }
  have hevents : (reap m.config.handshake_timeout_us now m.quic_conns pool).1.map ServerEvent.Closed =
      (m.reaped now).map fun entry => .Closed entry.1 := by
    rw [hids, List.map_map]
    rfl
  rw [hevents] at hpushed
  have hmoves : Moves m (m.reap_quic_conns now pool).1 _ _ _ := hremoved.trans hpushed
  simpa only [List.append_nil, List.nil_append] using hmoves

theorem quic_conns_report_all (reason : CloseReason) (ids : List Nat) (m : ServerManager X BUF Q A) :
    (ids.foldl (fun m id => m.report_closed id reason) m).quic_conns = m.quic_conns := by
  induction ids generalizing m with
  | nil => rfl
  | cons id rest ih =>
    refine (ih _).trans ?_
    simp only [report_closed, push_server_event, note_close_reason]
    split <;> rfl

theorem moves_handle_timeouts (now : Instant) (pool : P) (m : ServerManager X BUF Q A) :
    Moves m (m.handle_timeouts now pool).1 [] (closes (.handle_timeouts now pool : Op A P) m)
      (pushes (.handle_timeouts now pool : Op A P) m) := by
  have hreaped : (m.handle_tcp_timeouts now).reaped now = m.reaped now := by
    have hquic : (m.handle_tcp_timeouts now).quic_conns = m.quic_conns := quic_conns_report_all _ _ _
    rw [reaped, reaped, hquic, (moves_handle_tcp_timeouts now m).config]
  have hmoves := (moves_handle_tcp_timeouts now m).trans (moves_reap now (m.handle_tcp_timeouts now) pool)
  rw [hreaped, ← List.map_append] at hmoves
  simpa [pushes, announces, closes, handle_timeouts] using hmoves

theorem moves_make_room (now : Instant) (pool : P) (m : ServerManager X BUF Q A) :
    Moves m (m.make_room now pool).1 [] (if m.quic_full then m.reaped now else [])
      ((if m.quic_full then m.reaped now else []).map fun entry => .Closed entry.1) := by
  unfold make_room
  split
  · exact moves_reap now m pool
  · exact moves_refl m

theorem entries_first_transmit (buf_len : Nat) (now : Instant) (conns : List (QuicConn Q A))
    (pool : P) :
    (first_transmit buf_len now conns pool).2.1.map QuicConn.entry = conns.map QuicConn.entry := by
  induction conns generalizing pool with
  | nil => rfl
  | cons qconn rest ih =>
    rw [first_transmit]
    split
    · rfl
    · simp only [List.map_cons, ih]
      rfl

theorem moves_udp_poll_transmit (buf_len : Nat) (now : Instant) (pool : P)
    (m : ServerManager X BUF Q A) : Moves m (m.udp_poll_transmit buf_len now pool).2.1 [] [] [] :=
  moves_of_same rfl rfl (entries_first_transmit buf_len now m.quic_conns pool) rfl rfl

theorem next_id_push_all {α : Type} (event : α → ServerEvent) (l : List α)
    (m : ServerManager X BUF Q A) :
    (l.foldl (fun m x => m.push_server_event (event x)) m).next_id = m.next_id := by
  induction l generalizing m with
  | nil => rfl
  | cons x rest ih => exact ih _

theorem next_id_make_room (now : Instant) (pool : P) (m : ServerManager X BUF Q A) :
    (m.make_room now pool).1.next_id = m.next_id := by
  unfold make_room
  split
  · exact next_id_push_all _ _ _
  · rfl

theorem moves_feed_quic {i : Nat} {data : Bytes} {now : Instant} {pool : P}
    {r : Except Error Unit × ServerManager X BUF Q A × P} (h : m.feed_quic i data now pool = some r) :
    Moves m r.2.1 [] [] [] := by
  simp only [feed_quic, Option.bind_eq_bind, Option.bind_eq_some_iff, Option.pure_def,
    Option.some.injEq] at h
  obtain ⟨qconn, hqconn, ⟨r', server, pool'⟩, -, rfl⟩ := h
  refine moves_of_same rfl rfl ?_ rfl rfl
  obtain ⟨hi, rfl⟩ := List.getElem?_eq_some_iff.mp hqconn
  simp only [quic_entries, List.map_set]
  have hi' : i < (m.quic_conns.map QuicConn.entry).length := by simpa using hi
  have hentry : QuicConn.entry { m.quic_conns[i] with server } =
      (m.quic_conns.map QuicConn.entry)[i] := by
    rw [List.getElem_map]
    rfl
  rw [hentry, List.set_getElem_self]

theorem moves_open_quic {data : Bytes} {addr : A} {now : Instant} {draws : Draws} {pool : P}
    {r : Except Error Unit × ServerManager X BUF Q A × P}
    (h : m.open_quic data addr now draws pool = some r) :
    Moves m r.2.1 (match r.1 with
      | .ok _ => [(m.next_id, none)]
      | .error _ => []) [] [] := by
  simp only [open_quic, alloc_id] at h
  split at h
  · cases h
    exact moves_of_same rfl rfl rfl rfl rfl
  · simp only [Option.bind_eq_bind, Option.bind_eq_some_iff] at h
    obtain ⟨⟨result, server', pool'⟩, -, h⟩ := h
    cases result with
    | error e =>
      cases h
      exact moves_of_same rfl rfl rfl rfl rfl
    | ok _ =>
      cases h
      refine ⟨rfl, ?_, List.sublist_append_left _ _, .refl _, rfl⟩
      simp [live, tcp_entries, quic_entries, QuicConn.entry]

theorem moves_udp_feed (data : Bytes) (addr : A) (now : Instant) (draws : Draws) (pool : P)
    (m : ServerManager X BUF Q A) :
    Moves m ((Op.udp_feed data addr now draws pool).apply m) (opened (.udp_feed data addr now draws pool) m)
      (closes (.udp_feed data addr now draws pool) m) (pushes (.udp_feed data addr now draws pool) m) := by
  rcases Option.eq_none_or_eq_some (m.udp_feed data addr now draws pool) with hnone | ⟨r, hr⟩
  · simpa [Op.apply, opened, closes, pushes, announces, hnone] using moves_refl m
  rcases Option.eq_none_or_eq_some (m.route data) with hroute | ⟨i, hroute⟩
  · have hroom := moves_make_room now pool m
    have hfed := hr
    simp only [udp_feed, hroute] at hfed
    split at hfed
    · cases hfed
      simpa [Op.apply, opened, closes, pushes, announces, hr, hroute] using hroom
    · have hmoves := hroom.trans (moves_open_quic hfed)
      rw [next_id_make_room] at hmoves
      obtain ⟨_ | _, r⟩ := r
      · simpa [Op.apply, opened, closes, pushes, announces, hr, hroute] using hmoves
      · simpa [Op.apply, opened, closes, pushes, announces, hr, hroute] using hmoves
  · have hfed : m.feed_quic i data now pool = some r := by
      rw [← hr, udp_feed, hroute]
    simpa [Op.apply, opened, closes, pushes, announces, hr, hroute] using moves_feed_quic hfed

/-! ## Polling -/

theorem entries_poll_tcp (conns : List (TcpConn X BUF)) :
    Leaves conns (poll_tcp conns).1.closes (poll_tcp conns).2 := by
  induction conns with
  | nil => exact leaves_nil
  | cons conn rest ih =>
    obtain ⟨conn_id, state, protocol, accepted_at⟩ := conn
    cases state with
    | Closed => exact ih.kept rfl
    | Handshaking parts => exact ih.kept rfl
    | Established http =>
      have hstorage : http.poll_event.2.storage = http.storage := rfl
      simp only [poll_tcp]
      rcases hpoll : http.poll_event with ⟨_ | event, http'⟩
      · have hkit : TcpState.kit (.Established http') = TcpState.kit (.Established http) := by
          rw [hpoll] at hstorage
          exact congrArg (fun storage => storage.reclaim_buffers.1) hstorage
        dsimp only
        split
        · show Leaves _ ([(conn_id, TcpState.kit (.Established http'))] ++ []) _
          exact (leaves_refl rest).left_out (congrArg (fun kit => [(conn_id, kit)]) hkit.symm) rfl
        · refine ih.kept ?_
          exact congrArg (fun kit => [(conn_id, kit)]) hkit
      · rw [hpoll] at hstorage
        refine (leaves_refl rest).kept ?_
        exact congrArg (fun storage => [(conn_id, storage.reclaim_buffers.1)]) hstorage

theorem entries_poll_quic (scratch_len : Nat) (conns : List (QuicConn Q A)) :
    (poll_quic scratch_len conns).2.map QuicConn.entry = conns.map QuicConn.entry := by
  induction conns with
  | nil => rfl
  | cons qconn rest ih =>
    rw [poll_quic]
    split
    · rfl
    · simp only [List.map_cons, ih]
      rfl

/-- The sweep removes nothing that is open. -/
theorem entries_sweep (conns : List (TcpConn X BUF)) :
    (conns.filter (!·.state.is_closed)).flatMap TcpConn.entry = conns.flatMap TcpConn.entry := by
  induction conns with
  | nil => rfl
  | cons conn rest ih =>
    rw [List.filter_cons]
    by_cases hclosed : conn.state.is_closed = true
    · simp [hclosed, ih, TcpConn.entry]
    · simp [hclosed, ih]

theorem moves_poll_event (scratch_len : Nat) (m : ServerManager X BUF Q A) :
    Moves (exchange (.poll_event scratch_len : Op A P) m) (m.poll_event scratch_len).2 []
      (closes_itself (.poll_event scratch_len : Op A P) m) [] := by
  rcases hevents : m.events with _ | ⟨event, events⟩
  · have hsame : { m with events := [] } = m := by rw [← hevents]
    have hleft := moves_leave (entries_poll_tcp m.tcp_conns)
    rcases hpolled : poll_tcp m.tcp_conns with ⟨⟨conn, event⟩ | ⟨id, kit⟩ | _, conns⟩
    · simpa [exchange, closes_itself, poll_event, hevents, hpolled, hsame, Polled.closes, kits]
        using hleft
    · have hmoves := hleft.trans (moves_note id .HttpClosed _)
      simpa [exchange, closes_itself, poll_event, return_kit, hevents, hpolled, hsame, Polled.closes,
        kits_singleton] using hmoves
    · have hpolled_quic := entries_poll_quic scratch_len m.quic_conns
      have hrest {conns' : List (TcpConn X BUF)}
          (h : conns'.flatMap TcpConn.entry = conns.flatMap TcpConn.entry) : Moves m
          { m with tcp_conns := conns', quic_conns := (poll_quic scratch_len m.quic_conns).2 }
          [] [] [] := by
        simp only [hpolled, Polled.closes, kits, List.filterMap_nil, List.append_nil] at hleft
        exact hleft.trans (moves_of_same rfl h hpolled_quic rfl rfl)
      rcases hquic : poll_quic scratch_len m.quic_conns with ⟨_ | event, quic_conns⟩
      · simpa [exchange, closes_itself, poll_event, hevents, hpolled, hsame, hquic, Polled.closes]
          using hrest (entries_sweep conns)
      · simpa [exchange, closes_itself, poll_event, hevents, hpolled, hsame, hquic, Polled.closes]
          using hrest rfl
  · simpa [exchange, closes_itself, poll_event, hevents] using moves_refl { m with events }

/-! ## Every call -/

/-- What a call moves, apart from what it takes out for the caller or puts in. -/
theorem moves_apply (a : Op A P) (m : ServerManager X BUF Q A) :
    Moves (exchange a m) (a.apply m) (opened a m) (closes a m ++ closes_itself a m) (pushes a m) := by
  cases a with
  | add_tls_buffer_kit kit => exact moves_refl _
  | take_tls_buffer_kit => exact moves_refl _
  | note_close_reason id reason => exact moves_note id reason m
  | take_close_reason id => exact moves_of_same rfl rfl rfl rfl rfl
  | accept_tcp secret random now => exact moves_accept_tcp secret random now m
  | accept_tcp_cleartext now => exact moves_accept_tcp_cleartext now m
  | tcp_feed id data now =>
    simp only [closes_itself, List.append_nil]
    exact moves_tcp_feed id data now m
  | tcp_poll_output id room => exact moves_tcp_poll_output id room m
  | udp_feed data addr now draws pool =>
    simp only [closes_itself, List.append_nil]
    exact moves_udp_feed data addr now draws pool m
  | udp_poll_transmit buf_len now pool => exact moves_udp_poll_transmit buf_len now pool m
  | poll_event scratch_len => exact moves_poll_event scratch_len m
  | recv_headers id stream_id => exact moves_on_stream (fun _ => rfl) m
  | recv_body id stream_id room => exact moves_on_stream (fun _ => rfl) m
  | discard_body id stream_id error_code => exact moves_discard_body id stream_id error_code m
  | send_response id stream_id status headers end_stream => exact moves_on_stream (fun _ => rfl) m
  | send_body id stream_id data end_stream => exact moves_on_stream (fun _ => rfl) m
  | handle_timeouts now pool =>
    simp only [closes_itself, List.append_nil]
    exact moves_handle_timeouts now pool m
  | tcp_eof id =>
    simp only [closes_itself, List.append_nil]
    exact moves_tcp_eof id m
  | close id =>
    simp only [closes_itself, List.append_nil]
    exact moves_close id m

end milli_http.manager
