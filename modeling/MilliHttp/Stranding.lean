-- The servers over TCP behind one interface (http/server_conn.rs, the TCP part of server/mod.rs).
-- A runner feeds a connection no bytes only while it says that it is blocked. All that can wait for
-- such a feed without being blocked is a request behind one that was read.
import MilliHttp.Https1
import MilliHttp.H2Tls
import MilliHttp.TcpTls.Endpoints

open bytes method

namespace milli_http.stranding

open crypto tls tcp_tls https1 h2_tls

variable {X : Primitives} {L : http1.Limits} {M : h2.Limits}

/-! ## Connections -/

/-- `Box<dyn HttpServerConn>`, of the connections over TCP. -/
inductive HttpServerConn (X : Primitives) (L : http1.Limits) (M : h2.Limits) where
  | http1 (s : http1.Http1Server L)
  | https1 (s : Https1Server X L)
  | h2 (s : H2TlsServer X M)

namespace HttpServerConn

/-- A result with the connection it leaves. -/
def wrap {σ : Type} (conn : σ → HttpServerConn X L M) {α : Type} (r : Except Error α × σ) :
    Except Error α × HttpServerConn X L M := (r.1, conn r.2)

def feed_data (data : Bytes) : Method (HttpServerConn X L M) Error Unit
  | http1 s => wrap http1 (s.feed_data data)
  | https1 s => wrap https1 (s.feed_data data)
  | h2 s => wrap h2 (s.feed_data data)

def tcp_feed_data (data : Bytes) (now : Nat) : Method (HttpServerConn X L M) Error Unit
  | http1 s => wrap http1 (s.feed_data_timed data now)
  | https1 s => wrap https1 (s.feed_data_timed data now)
  | h2 s => wrap h2 (s.feed_data_timed data now)

/-- Undelivered body bytes are held behind a full application buffer. -/
def recv_blocked : HttpServerConn X L M → Bool
  | http1 s => http1.stalls.recv_blocked s
  | https1 s => s.recv_blocked
  | h2 s => s.recv_blocked

/-- The timeouts of a connection, in the terms of its HTTP version. -/
def h2_timeouts (config : http1.TimeoutConfig) : h2.TimeoutConfig where
  idle_timeout_us := config.idle_timeout_us
  header_timeout_us := config.header_timeout_us

end HttpServerConn

open HttpServerConn

/-- A call on a connection. -/
inductive Call where
  | feed_data (data : Bytes)
  | tcp_feed_data (data : Bytes) (now : Nat)
  | tcp_poll_output (room : Nat)
  | poll_event
  | recv_headers (stream_id : Nat)
  | recv_body (stream_id room : Nat)
  | send_response (stream_id status : Nat) (headers : List (Bytes × Bytes)) (end_stream : Bool)
  | send_body (stream_id : Nat) (data : Bytes) (end_stream : Bool)
  | discard_body (stream_id error_code : Nat)
  | send_goaway (error_code : Nat)
  | set_timeouts (config : http1.TimeoutConfig) (now : Nat)
  | handle_timeout (now : Nat)
  deriving DecidableEq, Repr

/-- A call on a cleartext connection. HTTP/1.1 cannot stop a body or announce its end. -/
def Call.on_http1 (s : http1.Http1Server L) : Call → http1.Http1Server L
  | .feed_data data => (s.feed_data data).2
  | .tcp_feed_data data now => (s.feed_data_timed data now).2
  | .tcp_poll_output room => (s.poll_output room).2
  | .poll_event => s.poll_event.2
  | .recv_headers stream_id => (s.recv_headers stream_id).2
  | .recv_body stream_id room => (s.recv_body stream_id room).2
  | .send_response stream_id status headers _ => (http1.send_response stream_id status headers s).2
  | .send_body stream_id data _ => (s.send_data stream_id data).2
  | .discard_body _ _ => s
  | .send_goaway _ => s
  | .set_timeouts config now => s.set_timeouts config now
  | .handle_timeout now => s.handle_timeout now

def Call.on_https1 (s : Https1Server X L) : Call → Https1Server X L
  | .feed_data data => (s.feed_data data).2
  | .tcp_feed_data data now => (s.feed_data_timed data now).2
  | .tcp_poll_output room => (s.poll_output room).2
  | .poll_event => s.poll_event.2
  | .recv_headers stream_id => (s.recv_headers stream_id).2
  | .recv_body stream_id room => (s.recv_body stream_id room).2
  | .send_response stream_id status headers _ => (s.send_response stream_id status headers).2
  | .send_body stream_id data _ => (s.send_body stream_id data).2
  | .discard_body _ _ => s
  | .send_goaway _ => s
  | .set_timeouts config now => s.set_timeouts config now
  | .handle_timeout now => s.handle_timeout now

def Call.on_h2 (s : H2TlsServer X M) : Call → H2TlsServer X M
  | .feed_data data => (s.feed_data data).2
  | .tcp_feed_data data now => (s.feed_data_timed data now).2
  | .tcp_poll_output room => (s.poll_output room).2
  | .poll_event => s.poll_event.2
  | .recv_headers stream_id => (s.recv_headers stream_id).2.2
  | .recv_body stream_id room => (s.recv_body stream_id room).2
  | .send_response stream_id status headers end_stream =>
    (s.send_response stream_id status headers end_stream).2
  | .send_body stream_id data end_stream => (s.send_body stream_id data end_stream).2
  | .discard_body stream_id error_code => (s.discard_body stream_id error_code).2
  | .send_goaway error_code => (s.send_goaway error_code).2
  | .set_timeouts config now => s.set_timeouts (h2_timeouts config) now
  | .handle_timeout now => s.handle_timeout now

/-- The connection after a call, whether it returned an error or not. -/
def Call.apply (a : Call) : HttpServerConn X L M → HttpServerConn X L M
  | .http1 s => .http1 (a.on_http1 s)
  | .https1 s => .https1 (a.on_https1 s)
  | .h2 s => .h2 (a.on_h2 s)

/-! ## Runs -/

/-- A TLS connection as the handshake leaves it to a server: it was fed and polled, and is open. -/
inductive Handshaken {BUF : Nat} : TlsConnection X BUF → Prop
  | new (config : ServerTlsConfig) (secret random : Bytes) :
      Handshaken (.new_server config secret random)
  | fed {c c' : TlsConnection X BUF} (data : Bytes) : Handshaken c →
      c.feed_data data = (.ok (), c') → c'.Open → Handshaken c'
  | polled {c : TlsConnection X BUF} (room : Nat) : Handshaken c → Handshaken (c.poll_output room).2

/-- A connection at its start. Where a handshake was run before, what arrived with it has been
processed. -/
inductive Started : HttpServerConn X L M → Prop
  | http1 : Started (.http1 .new_server)
  | https1 (config : ServerTlsConfig) (secret random : Bytes) :
      Started (.https1 (.new config secret random))
  | h2 (config : ServerTlsConfig) (secret random : Bytes) : Started (.h2 (.new config secret random))
  | upgraded_https1 {tls : TlsConnection X L.BUF} {s : Https1Server X L} (now : Nat) :
      Handshaken tls → (Https1Server.from_parts tls).feed_data_timed [] now = (.ok (), s) →
      Started (.https1 s)
  | upgraded_h2 {tls : TlsConnection X M.BUF} {s : H2TlsServer X M} (now : Nat) :
      Handshaken tls → (H2TlsServer.from_parts tls).feed_data_timed [] now = (.ok (), s) →
      Started (.h2 s)

/-- The TLS connection, if there is one, is not closed. -/
def TlsOpen : HttpServerConn X L M → Prop
  | .http1 _ => True
  | .https1 s => s.tls.Open
  | .h2 s => s.tls.Open

/-- A feed over TLS succeeds and leaves the connection open: otherwise it is not fed again. -/
def Serves : HttpServerConn X L M → Call → Prop
  | .http1 _, _ => True
  | conn, .feed_data data =>
    (conn.feed_data data).1 = .ok () ∧ TlsOpen ((Call.feed_data data).apply conn)
  | conn, .tcp_feed_data data now =>
    (conn.tcp_feed_data data now).1 = .ok () ∧ TlsOpen ((Call.tcp_feed_data data now).apply conn)
  | _, _ => True

instance (conn : HttpServerConn X L M) : Decidable (TlsOpen conn) := by
  cases conn with
  | http1 s => exact isTrue trivial
  | https1 s => exact inferInstanceAs (Decidable (_ ≠ _ ∧ _ ≠ _))
  | h2 s => exact inferInstanceAs (Decidable (_ ≠ _ ∧ _ ≠ _))

instance (conn : HttpServerConn X L M) (a : Call) : Decidable (Serves conn a) := by
  unfold Serves
  split <;> infer_instance

/-- The connection after some calls. -/
def HttpServerConn.after (conn : HttpServerConn X L M) (calls : List Call) : HttpServerConn X L M :=
  run.final Call.apply conn calls

/-! ## What the application can see -/

/-- No event, no header and no body byte is there that was not there before. -/
def Quiet : HttpServerConn X L M → HttpServerConn X L M → Prop
  | .http1 s, .http1 s' => http1.stalls.Quiet s s'
  | .https1 s, .https1 s' => http1.stalls.Quiet s.lend s'.lend
  | .h2 s, .h2 s' => h2.stalls.Quiet s.lend s'.lend
  | _, _ => False

instance : (conn conn' : HttpServerConn X L M) → Decidable (Quiet conn conn')
  | .http1 s, .http1 s' => inferInstanceAs (Decidable (http1.stalls.Quiet s s'))
  | .https1 s, .https1 s' => inferInstanceAs (Decidable (http1.stalls.Quiet s.lend s'.lend))
  | .h2 s, .h2 s' => inferInstanceAs (Decidable (h2.stalls.Quiet s.lend s'.lend))
  | .http1 _, .https1 _ | .http1 _, .h2 _ | .https1 _, .http1 _ | .https1 _, .h2 _ | .h2 _, .http1 _
  | .h2 _, .https1 _ => isFalse id

/-- Behind a request that is over and read, the header section of the next one is there. -/
def NextWaits : HttpServerConn X L M → Prop
  | .http1 s => http1.stalls.NextWaits s
  | .https1 s => http1.stalls.NextWaits s.lend
  | .h2 _ => False

instance (conn : HttpServerConn X L M) : Decidable (NextWaits conn) := by
  cases conn with
  | http1 s => exact inferInstanceAs (Decidable (http1.stalls.NextWaits s))
  | https1 s => exact inferInstanceAs (Decidable (http1.stalls.NextWaits s.lend))
  | h2 s => exact isFalse id

/-! ## Every connection settles -/

def Settled : HttpServerConn X L M → Prop
  | .http1 s => http1.stalls.Settled s
  | .https1 s => s.Settled
  | .h2 s => s.Settled

theorem rested_of_handshaken {BUF : Nat} {tls : TlsConnection X BUF} (h : Handshaken tls) :
    tls.Rested := by
  induction h with
  | new config secret random => exact TlsConnection.rested_new _
  | fed data _ hrun hopen ih => exact TlsConnection.feed_data_rests ih.plain hrun hopen
  | polled room _ ih =>
    obtain ⟨hrecv, hplain⟩ := Prod.mk.inj (TlsConnection.recv_side_poll_output room _)
    exact ih.of_same hrecv hplain

theorem settled_started {conn : HttpServerConn X L M} (h : Started conn) : Settled conn := by
  cases h with
  | http1 => exact http1.stalls.settled_new
  | https1 config secret random =>
    exact Https1Server.settled_from_parts (TlsConnection.rested_new _) rfl
  | h2 config secret random =>
    exact H2TlsServer.settled_from_parts (TlsConnection.rested_new _) rfl
  | upgraded_https1 now htls hrun =>
    have hsettled := Https1Server.settled_upgraded now (rested_of_handshaken htls)
    rw [hrun] at hsettled
    exact hsettled
  | upgraded_h2 now htls hrun => exact H2TlsServer.settled_upgraded (rested_of_handshaken htls) hrun

theorem settled_http1 {s : http1.Http1Server L} (a : Call) (h : http1.stalls.Settled s) :
    http1.stalls.Settled (a.on_http1 s) := by
  cases a with
  | feed_data data => exact h.fed data
  | tcp_feed_data data now => exact h.fed_timed data now
  | tcp_poll_output room => exact h.of_same (http1.stalls.parse_side_poll_output room s)
  | poll_event => exact h.of_same (http1.stalls.parse_side_poll_event s)
  | recv_headers stream_id => exact h.of_same (http1.stalls.parse_side_recv_headers stream_id s)
  | recv_body stream_id room => exact h.of_same (http1.stalls.parse_side_recv_body stream_id room s)
  | send_response stream_id status headers end_stream =>
    exact h.of_same (http1.stalls.parse_side_send_response stream_id status headers s)
  | send_body stream_id data end_stream =>
    exact h.of_same (http1.stalls.parse_side_send_data stream_id data s)
  | discard_body stream_id error_code => exact h
  | send_goaway error_code => exact h
  | set_timeouts config now => exact h.of_same rfl
  | handle_timeout now => exact h.of_same (http1.stalls.parse_side_handle_timeout now s)

theorem settled_https1 {s : Https1Server X L} (a : Call) (h : s.Settled)
    (hserves : Serves (M := M) (.https1 s) a) : (a.on_https1 s).Settled := by
  cases a with
  | feed_data data =>
    obtain ⟨hok, hopen⟩ := hserves
    exact h.fed_data (Prod.ext hok rfl) hopen
  | tcp_feed_data data now =>
    obtain ⟨hok, hopen⟩ := hserves
    exact h.fed_data_timed (Prod.ext hok rfl) hopen
  | tcp_poll_output room => exact h.polled room
  | poll_event => exact h.on_http http1.stalls.parse_side_poll_event
  | recv_headers stream_id => exact h.on_http (http1.stalls.parse_side_recv_headers stream_id)
  | recv_body stream_id room => exact h.on_http (http1.stalls.parse_side_recv_body stream_id room)
  | send_response stream_id status headers end_stream =>
    exact h.sends (http1.stalls.parse_side_send_response stream_id status headers)
  | send_body stream_id data end_stream => exact h.sends (http1.stalls.parse_side_send_data stream_id data)
  | discard_body stream_id error_code => exact h
  | send_goaway error_code => exact h
  | set_timeouts config now => exact h.of_http rfl
  | handle_timeout now => exact h.of_http (http1.stalls.parse_side_handle_timeout now s.http)

theorem settled_h2 {s : H2TlsServer X M} (a : Call) (h : s.Settled)
    (hserves : Serves (L := L) (.h2 s) a) : (a.on_h2 s).Settled := by
  cases a with
  | feed_data data =>
    obtain ⟨hok, hopen⟩ := hserves
    exact h.fed_data (Prod.ext hok rfl) hopen
  | tcp_feed_data data now =>
    obtain ⟨hok, hopen⟩ := hserves
    exact h.fed_data_timed (Prod.ext hok rfl) hopen
  | tcp_poll_output room => exact h.polled room
  | poll_event => exact h.event_polled
  | recv_headers stream_id => exact h.headers_read stream_id
  | recv_body stream_id room => exact h.of_io (h2.stalls.recv_side_op (.recv_body stream_id room) _)
  | send_response stream_id status headers end_stream =>
    exact h.responded stream_id status headers end_stream
  | send_body stream_id data end_stream =>
    exact h.of_io (h2.stalls.recv_side_op (.send_data stream_id data end_stream) _)
  | discard_body stream_id error_code =>
    exact h.of_io (h2.stalls.recv_side_op (.discard_body stream_id error_code) _)
  | send_goaway error_code => exact h.of_io (h2.stalls.recv_side_op (.send_goaway error_code) _)
  | set_timeouts config now => exact h.of_h2 rfl
  | handle_timeout now => exact h.of_io (h2.stalls.recv_side_op (.handle_timeout now) _)

theorem settled_apply (conn : HttpServerConn X L M) (a : Call) (hserves : Serves conn a)
    (h : Settled conn) : Settled (a.apply conn) := by
  cases conn with
  | http1 s => exact settled_http1 a h
  | https1 s => exact settled_https1 a h hserves
  | h2 s => exact settled_h2 a h hserves

/-! ## What a feed of no bytes does -/

theorem quiet_iff {conn : HttpServerConn X L M} (now : Nat) (h : Settled conn)
    (hblocked : conn.recv_blocked = false) :
    Quiet conn (conn.tcp_feed_data [] now).2 ↔ ¬ NextWaits conn := by
  cases conn with
  | http1 s =>
    have hrun := http1.stalls.feed_nothing_timed now (http1.stalls.Settled.fits h)
    show http1.stalls.Quiet s (s.feed_data_timed [] now).2 ↔ _
    rw [hrun]
    exact http1.stalls.process_recv_quiet_iff h hblocked
  | https1 s => exact s.quiet_iff now h hblocked
  | h2 s => exact ⟨fun _ => id, fun _ => s.quiet_feed now h hblocked⟩

/-- In every run of a server, whatever the application has read: where the connection does not say
that it is blocked, a feed of no bytes shows nothing, but for a request behind one that is over
and read. -/
theorem only_a_request_behind_a_read_one_is_stranded {conn : HttpServerConn X L M} {calls : List Call}
    (now : Nat) (hstart : Started conn) (hserves : run.Along Call.apply Serves conn calls)
    (hblocked : (conn.after calls).recv_blocked = false) :
    Quiet (conn.after calls) ((conn.after calls).tcp_feed_data [] now).2 ↔
      ¬ NextWaits (conn.after calls) :=
  quiet_iff now (run.invariant settled_apply hserves (settled_started hstart)) hblocked

/-! ## A request behind a read one -/

def limits : http1.Limits := { HDRBUF := 256, DATABUF := 64, BUF := 4096 }

def h2_limits : h2.Limits := { MAX_STREAMS := 4, HDRBUF := 256, DATABUF := 64, BUF := 4096 }

/-- A request for a path. -/
def get_request (path : Bytes) : Bytes := ascii "GET " ++ path ++ ascii " HTTP/1.1\r\n\r\n"

/-- Two requests that arrive at once. -/
def two_requests : Bytes := get_request (ascii "/a") ++ get_request (ascii "/b")

/-- The application polls all events, and reads the headers and the body of the first request. -/
def serviced : List Call :=
  [.poll_event, .poll_event, .poll_event, .recv_headers 1, .recv_body 1 64, .poll_event]

/-- A cleartext server, and a server over TLS. -/
def cleartext_server : HttpServerConn standin.primitives limits h2_limits := .http1 .new_server

def tls_server : HttpServerConn standin.primitives limits h2_limits :=
  .https1 (.from_parts (endpoints.server standin.primitives 4096 standin.cert_der))

/-- What a TLS connection is fed, as calls on the server over it. -/
def fed : List tcp_tls.Op → List Call := List.filterMap fun
  | .feed_data data => some (.tcp_feed_data data 0)
  | _ => none

/-- A handshake, and the two requests in one record. -/
def tls_calls : List Call :=
  let (c, hello, s) := endpoints.deliver 4096 (endpoints.client standin.primitives 4096)
    (endpoints.server standin.primitives 4096 standin.cert_der)
  let (_, _, c) := endpoints.deliver 4096 s c
  let (c, finished, s) := endpoints.deliver 4096 c s
  let (_, request, _) := endpoints.deliver 4096 (c.send_app_data two_requests).2 s
  fed hello ++ [.tcp_poll_output 4096] ++ fed finished ++ fed request

/-- The server over TLS when the application has read the first request. -/
@[irreducible] def tls_at_rest : HttpServerConn standin.primitives limits h2_limits :=
  tls_server.after (tls_calls ++ serviced)

/-- The cleartext server when the application has read the first request. -/
@[irreducible] def cleartext_at_rest : HttpServerConn standin.primitives limits h2_limits :=
  cleartext_server.after (.tcp_feed_data two_requests 0 :: serviced)

/-- What there is for the application to poll and to read on a cleartext connection. -/
def told : HttpServerConn X L M → List http1.Http1Event × Bytes × Bytes
  | .http1 s => (s.events, s.header_buf, s.data_buf)
  | _ => ([], [], [])

/-- Over TLS the second request waits behind the first, and a feed of no bytes shows it. -/
theorem second_request_waits_over_tls :
    tls_at_rest.recv_blocked = false ∧ NextWaits tls_at_rest ∧
      ¬ Quiet tls_at_rest (tls_at_rest.tcp_feed_data [] 1).2 := by
  have hstart : Started tls_server := .https1 _ _ _
  have hrun : run.Along Call.apply Serves tls_server (tls_calls ++ serviced) ∧
      tls_at_rest.recv_blocked = false ∧ NextWaits tls_at_rest := by decide +kernel
  obtain ⟨hserves, hblocked, hwaits⟩ := hrun
  have hlaw : Quiet tls_at_rest (tls_at_rest.tcp_feed_data [] 1).2 ↔ ¬ NextWaits tls_at_rest := by
    unfold tls_at_rest at hblocked ⊢
    exact only_a_request_behind_a_read_one_is_stranded 1 hstart hserves hblocked
  refine ⟨hblocked, hwaits, ?_⟩
  rw [hlaw, not_not]
  exact hwaits

/-- The application has polled every event and read all there is, and the server is not blocked.
Still a feed of no bytes tells of another request, of which nothing more will arrive. -/
theorem cleartext_server_strands_a_request :
    told cleartext_at_rest = ([], [], []) ∧ cleartext_at_rest.recv_blocked = false ∧
      ¬ Quiet cleartext_at_rest (cleartext_at_rest.tcp_feed_data [] 1).2 ∧
      (told (cleartext_at_rest.tcp_feed_data [] 1).2).1 = [.Headers 2, .Finished 2] := by
  decide +kernel

end milli_http.stranding
