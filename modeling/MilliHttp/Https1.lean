-- The HTTPS/1.1 server (https1.rs): a TLS connection and an HTTP/1.1 connection over the same
-- buffers. The plaintext that can be seen of the TLS receive buffer is what the HTTP connection
-- receives, and what it sends is the application data of the TLS connection.
import MilliHttp.Http1.Server
import MilliHttp.TcpTls.Residue

open bytes method

namespace milli_http.https1

open crypto tls tcp_tls http1 http1.parse http1.stalls TlsConnection

variable {X : Primitives} {L : Limits} {tls : TlsConnection X L.BUF}
  {feed : Method (Http1Connection L) Error Unit}

/-! ## The server -/

/-- The buffers of the HTTP connection are lent to it for a call; what they hold between two calls
does not matter. -/
structure Https1Server (X : Primitives) (L : Limits) where
  tls : TlsConnection X L.BUF
  http : Http1Connection L

namespace Https1Server

/-- A server over a TLS connection, whose handshake may be over. -/
def from_parts (tls : TlsConnection X L.BUF) : Https1Server X L := { tls, http := .new_server }

def new (config : ServerTlsConfig) (secret random : Bytes) : Https1Server X L :=
  from_parts (.new_server config secret random)

/-- The HTTP connection with the buffers it shares. -/
def lend (s : Https1Server X L) : Http1Connection L :=
  { s.http with recv_buf := s.tls.visible, send_buf := s.tls.app_send_buf }

/-- What the HTTP connection leaves of its buffers; the hidden tail stays behind them. -/
def give_back (c : Http1Connection L) (s : Https1Server X L) : Https1Server X L where
  tls := { s.tls with
    recv_buf := c.recv_buf ++ s.tls.hidden
    plain := c.recv_buf.length
    app_send_buf := c.send_buf }
  http := c

/-- A call of the TLS connection. -/
def on_tls {α : Type} (m : Method (TlsConnection X L.BUF) Error α) :
    Method (Https1Server X L) Error α :=
  .on Https1Server.tls (fun tls s => { s with tls }) m

/-- A call of the HTTP connection that is lent the buffers. -/
def on_io {α : Type} (m : Method (Http1Connection L) Error α) : Method (Https1Server X L) Error α :=
  .on lend give_back m

/-- A call of the HTTP connection that needs no buffers. -/
def on_http {α : Type} (m : Method (Http1Connection L) Error α) : Method (Https1Server X L) Error α :=
  .on Https1Server.http (fun http s => { s with http }) m

/-- Plaintext that can be seen is fed to the HTTP connection, by a feed of no bytes. -/
def feed_plaintext (feed : Method (Http1Connection L) Error Unit) :
    Method (Https1Server X L) Error Unit := do
  let s ← .get
  if s.tls.visible = [] then pure () else on_io feed

/-- Feeds received TCP data. -/
def feed_data (data : Bytes) : Method (Https1Server X L) Error Unit := do
  on_tls (TlsConnection.feed_data data)
  feed_plaintext (Http1Connection.feed_data [])

/-- Feeds received TCP data at a time. -/
def feed_data_timed (data : Bytes) (now : Nat) : Method (Https1Server X L) Error Unit := do
  on_tls (TlsConnection.feed_data data)
  .modify fun s => if data = [] then s else { s with http := s.http.note_recv_activity now }
  feed_plaintext (Http1Connection.feed_data_timed [] now)

/-- Pulls outgoing TCP data. -/
def poll_output (room : Nat) (s : Https1Server X L) : Option Bytes × Https1Server X L :=
  let (out, tls) := s.tls.poll_output room
  (out, { s with tls })

def poll_event : Method (Https1Server X L) Error (Option Http1Event) := on_http Http1Connection.poll_event

def recv_headers (stream_id : Nat) : Method (Https1Server X L) Error (List (Bytes × Bytes)) :=
  on_http (Http1Connection.recv_headers stream_id)

def recv_body (stream_id room : Nat) : Method (Https1Server X L) Error (Bytes × Bool) :=
  on_http (Http1Connection.recv_body stream_id room)

/-- Nothing is sent before the handshake is over. -/
def send_response (stream_id status : Nat) (headers : List (Bytes × Bytes)) :
    Method (Https1Server X L) Error Unit := do
  let s ← .get
  .require (s.tls.is_active = true) .InvalidState
  on_io (http1.send_response stream_id status headers)

def send_body (stream_id : Nat) (data : Bytes) : Method (Https1Server X L) Error Nat := do
  let s ← .get
  .require (s.tls.is_active = true) .InvalidState
  on_io (Http1Connection.send_data stream_id data)

def set_timeouts (config : TimeoutConfig) (now : Nat) (s : Https1Server X L) : Https1Server X L :=
  { s with http := s.http.set_timeouts config now }

def handle_timeout (now : Nat) (s : Https1Server X L) : Https1Server X L :=
  { s with http := s.http.handle_timeout now }

/-- Body bytes wait for room in the plaintext that can be seen. -/
def recv_blocked (s : Https1Server X L) : Bool := s.http.body_parked && !s.tls.visible.isEmpty

/-! ## Sharing the buffers -/

theorem lend_give_back (c : Http1Connection L) (s : Https1Server X L) : (s.give_back c).lend = c := by
  simp [give_back, lend, visible]

theorem lend_recv_buf (s : Https1Server X L) : s.lend.recv_buf = s.tls.visible := rfl

theorem rested_give_back {c : Http1Connection L} {s : Https1Server X L} (h : s.tls.Rested)
    (hle : c.recv_buf.length ≤ s.lend.recv_buf.length) : (s.give_back c).tls.Rested := by
  have hplain := h.plain
  have hfits := h.fits
  refine ⟨?_, ?_, ?_⟩
  · simp [give_back]
  · simp only [lend_recv_buf, visible, List.length_take] at hle
    simp only [give_back, List.length_append, TlsConnection.hidden, List.length_drop]
    omega
  · simpa [give_back, TlsConnection.hidden] using h.short

/-! ## Between two calls -/

/-- A server between two calls. -/
structure Settled (s : Https1Server X L) : Prop where
  tls : s.tls.Rested
  http : stalls.Settled s.lend

theorem settled_from_parts (h : tls.Rested) (hvisible : tls.visible = []) :
    (from_parts tls : Https1Server X L).Settled := by
  refine ⟨h, ?_⟩
  have hnew : (from_parts tls : Https1Server X L).lend.recv_buf = [] := hvisible
  exact ⟨rfl, nofun, by rw [hnew]; exact Nat.zero_le _, stuck_of_empty hnew⟩

variable {s s' : Https1Server X L}

theorem Settled.of_tls (h : s.Settled)
    (hside : tls.recv_side = s.tls.recv_side) : ({ s with tls } : Https1Server X L).Settled := by
  obtain ⟨hrecv, hplain⟩ := Prod.mk.inj hside
  have hvisible : tls.visible = s.tls.visible := by
    unfold visible
    rw [hrecv, hplain]
  refine ⟨h.tls.of_same hrecv hplain, h.http.of_same ?_⟩
  simp only [parse_side, lend, hvisible]

theorem Settled.of_http {http : Http1Connection L} (h : s.Settled)
    (hside : parse_side http = parse_side s.http) : ({ s with http } : Https1Server X L).Settled := by
  refine ⟨h.tls, h.http.of_same ?_⟩
  simp only [parse_side, Prod.mk.injEq] at hside
  simp [parse_side, lend, hside]

theorem Settled.of_io {c : Http1Connection L} (h : s.Settled)
    (hside : parse_side c = parse_side s.lend) : (s.give_back c).Settled := by
  have hrecv : c.recv_buf = s.lend.recv_buf := by
    simp only [parse_side, Prod.mk.injEq] at hside
    exact hside.2.2.2.1
  refine ⟨rested_give_back h.tls (by rw [hrecv]), ?_⟩
  rw [lend_give_back]
  exact h.http.of_same hside

/-! ## Feeds -/

/-- A feed of the HTTP connection goes round its receive loop. -/
def Drives (feed : Method (Http1Connection L) Error Unit) : Prop :=
  ∀ c : Http1Connection L, c.recv_buf.length ≤ L.BUF → feed c = Http1Connection.process_recv c

theorem drives_feed_data : Drives (Http1Connection.feed_data [] : Method (Http1Connection L) Error Unit) :=
  fun _ h => feed_nothing h

theorem drives_feed_data_timed (now : Nat) :
    Drives (Http1Connection.feed_data_timed [] now : Method (Http1Connection L) Error Unit) :=
  fun _ h => feed_nothing_timed now h

theorem lend_fits (h : s.tls.Rested) : s.lend.recv_buf.length ≤ L.BUF := by
  have hfits := h.fits
  rw [lend_recv_buf, visible, List.length_take]
  omega

theorem feed_plaintext_run (hfeed : Drives feed) (h : s.tls.Rested) :
    (feed_plaintext feed s).2 =
      if s.tls.visible = [] then s else s.give_back (Http1Connection.process_recv s.lend).2 := by
  unfold feed_plaintext
  rw [Method.get_bind_run]
  split
  · rfl
  · rw [← hfeed _ (lend_fits h)]
    rfl

theorem settled_plaintext (hfeed : Drives feed)
    (h : s.tls.Rested) (hserver : s.http.role = .Server) (hframed : s.http.state ≠ .BodyUntilClose) :
    (feed_plaintext feed s).2.Settled := by
  rw [feed_plaintext_run hfeed h]
  split
  · rename_i hempty
    refine ⟨h, hserver, hframed, lend_fits h, stuck_of_empty ?_⟩
    rw [lend_recv_buf, hempty]
  · refine ⟨rested_give_back h (process_recv_recv_le hserver hframed), ?_⟩
    rw [lend_give_back]
    exact process_recv_settles hserver hframed (lend_fits h)

/-- What a feed that the TLS connection takes and that leaves it open comes to. -/
theorem Settled.fed {data : Bytes} (h : s.Settled) (http : Http1Connection L) (hfeed : Drives feed)
    (hrun : TlsConnection.feed_data data s.tls = (.ok (), tls)) (hopen : tls.Open)
    (hrole : http.role = s.http.role) (hstate : http.state = s.http.state) :
    (feed_plaintext feed { tls, http }).2.Settled := by
  have hserver : s.http.role = .Server := h.http.server
  have hframed : s.http.state ≠ .BodyUntilClose := h.http.framed
  refine settled_plaintext hfeed (feed_data_rests h.tls.plain hrun hopen) ?_ ?_
  · exact hrole.trans hserver
  · show http.state ≠ _
    rw [hstate]
    exact hframed

theorem feed_plaintext_state (feed : Method (Http1Connection L) Error Unit) (s : Https1Server X L) :
    (feed_plaintext feed s).2.tls.state = s.tls.state := by
  unfold feed_plaintext
  rw [Method.get_bind_run]
  split <;> rfl

theorem feed_data_run (data : Bytes) (s : Https1Server X L) :
    feed_data data s =
      match TlsConnection.feed_data data s.tls with
      | (.ok _, tls) => feed_plaintext (Http1Connection.feed_data []) { s with tls }
      | (.error e, tls) => (.error e, { s with tls }) := by
  unfold feed_data on_tls
  rw [Method.bind_run, Method.on_run]
  rcases TlsConnection.feed_data data s.tls with ⟨_ | _, tls⟩ <;> rfl

theorem feed_data_timed_run (data : Bytes) (now : Nat) (s : Https1Server X L) :
    feed_data_timed data now s =
      match TlsConnection.feed_data data s.tls with
      | (.ok _, tls) =>
        feed_plaintext (Http1Connection.feed_data_timed [] now)
          { tls, http := if data = [] then s.http else s.http.note_recv_activity now }
      | (.error e, tls) => (.error e, { s with tls }) := by
  unfold feed_data_timed on_tls
  rw [Method.bind_run, Method.on_run]
  rcases TlsConnection.feed_data data s.tls with ⟨_ | _, tls⟩
  · rfl
  · dsimp only
    rw [Method.bind_run, Method.modify_run]
    by_cases hdata : data = []
    · simp only [hdata, if_true]
    · simp only [hdata, if_false]

theorem Settled.fed_data {data : Bytes} (h : s.Settled) (hrun : feed_data data s = (.ok (), s'))
    (hopen : s'.tls.Open) : s'.Settled := by
  rw [feed_data_run] at hrun
  rcases htls : TlsConnection.feed_data data s.tls with ⟨e | u, tls⟩
  · rw [htls] at hrun
    cases hrun
  · rw [htls] at hrun
    dsimp only at hrun
    have hstate := feed_plaintext_state (Http1Connection.feed_data [])
      ({ s with tls } : Https1Server X L)
    have hsettled := h.fed s.http drives_feed_data htls
    rw [hrun] at hstate hsettled
    exact hsettled (hopen.of_state hstate.symm) rfl rfl

theorem Settled.fed_data_timed {data : Bytes} {now : Nat} (h : s.Settled)
    (hrun : feed_data_timed data now s = (.ok (), s')) (hopen : s'.tls.Open) : s'.Settled := by
  rw [feed_data_timed_run] at hrun
  rcases htls : TlsConnection.feed_data data s.tls with ⟨e | u, tls⟩
  · rw [htls] at hrun
    cases hrun
  · rw [htls] at hrun
    dsimp only at hrun
    have hrole : (if data = [] then s.http else s.http.note_recv_activity now).role = s.http.role := by
      split <;> rfl
    have hstate : (if data = [] then s.http else s.http.note_recv_activity now).state =
        s.http.state := by
      split <;> rfl
    generalize (if data = [] then s.http else s.http.note_recv_activity now) = http at hrun hrole hstate
    have hkept := feed_plaintext_state (Http1Connection.feed_data_timed [] now)
      ({ tls, http } : Https1Server X L)
    have hsettled := h.fed http (drives_feed_data_timed now) htls
    rw [hrun] at hkept hsettled
    exact hsettled (hopen.of_state hkept.symm) hrole hstate

/-- What arrived with the end of the handshake is processed by a feed of no bytes. -/
theorem settled_upgraded (now : Nat) (h : tls.Rested) :
    (feed_data_timed [] now (from_parts tls : Https1Server X L)).2.Settled := by
  have hrested : tls.limited.Rested := h.of_same rfl rfl
  have hfeed : TlsConnection.feed_data [] (from_parts tls : Https1Server X L).tls =
      (.ok (), tls.limited) := TlsConnection.feed_nothing h
  rw [feed_data_timed_run, hfeed]
  dsimp only
  rw [if_pos rfl]
  exact settled_plaintext (drives_feed_data_timed now) hrested rfl nofun

/-- A feed of no bytes shows something exactly if the next header section is there already. -/
theorem quiet_iff (now : Nat) (h : s.Settled) (hblocked : s.recv_blocked = false) :
    Quiet s.lend (feed_data_timed [] now s).2.lend ↔ ¬ NextWaits s.lend := by
  have hrested : s.tls.limited.Rested := h.tls.of_same rfl rfl
  have hsame : ({ tls := s.tls.limited, http := s.http } : Https1Server X L).lend = s.lend := rfl
  rw [feed_data_timed_run, TlsConnection.feed_nothing h.tls]
  dsimp only
  rw [if_pos rfl, feed_plaintext_run (s := { tls := s.tls.limited, http := s.http })
    (drives_feed_data_timed now) hrested]
  split
  · rename_i hempty
    have hno : ¬ NextWaits s.lend := by
      rintro ⟨-, -, stop, hstop, -⟩
      have hbuf : s.lend.recv_buf = [] := hempty
      have hbounds := find_end_of_headers_bounds hstop
      rw [hbuf] at hbounds
      simp at hbounds
      omega
    exact ⟨fun _ => hno, fun _ => Quiet.refl _⟩
  · rw [lend_give_back, hsame]
    exact process_recv_quiet_iff h.http hblocked

/-! ## The other calls -/

theorem Settled.polled (room : Nat) (h : s.Settled) : (s.poll_output room).2.Settled :=
  h.of_tls (recv_side_poll_output room s.tls)

theorem Settled.on_http {α : Type} {m : Method (Http1Connection L) Error α}
    (hm : Method.Keeps (Method.Same parse_side) m) (h : s.Settled) :
    (Https1Server.on_http m s).2.Settled :=
  h.of_http (hm s.http)

theorem Settled.sends {α : Type} {m : Method (Http1Connection L) Error α}
    (hm : Method.Keeps (Method.Same parse_side) m) (h : s.Settled) :
    (do
      let s ← Method.get
      Method.require (s.tls.is_active = true) .InvalidState
      on_io m : Method (Https1Server X L) Error α) s |>.2.Settled := by
  rw [Method.get_bind_run]
  rw [Method.require_bind_run]
  split
  · exact h.of_io (hm s.lend)
  · exact h

end Https1Server

end milli_http.https1
