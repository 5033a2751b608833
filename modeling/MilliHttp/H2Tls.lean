-- The HTTP/2 server over TLS (h2_tls.rs): a TLS connection and an HTTP/2 connection over the same
-- buffers. The plaintext that can be seen of the TLS receive buffer is what the HTTP/2 connection
-- receives, and what it sends is the application data of the TLS connection.
import MilliHttp.H2.Stalls
import MilliHttp.Http1.Server
import MilliHttp.TcpTls.Residue

open bytes method

namespace milli_http.h2_tls

open crypto tls tcp_tls hpack h2 h2.stalls

variable {X : Primitives} {L : Limits} {tls : TlsConnection X L.BUF}

/-! ## The server -/

/-- The buffers of the HTTP/2 connection are lent to it for a call; what they hold between two calls
does not matter. -/
structure H2TlsServer (X : Primitives) (L : Limits) where
  tls : TlsConnection X L.BUF
  h2 : H2Connection L

namespace H2TlsServer

/-- A server over a TLS connection, whose handshake may be over. -/
def from_parts (tls : TlsConnection X L.BUF) : H2TlsServer X L := { tls, h2 := .new L .Server }

def new (config : ServerTlsConfig) (secret random : Bytes) : H2TlsServer X L :=
  from_parts (.new_server config secret random)

/-- The HTTP/2 connection with the buffers it shares. -/
def lend (s : H2TlsServer X L) : H2Connection L :=
  { s.h2 with io := { s.h2.io with recv_buf := s.tls.visible, send_buf := s.tls.app_send_buf } }

/-- What the HTTP/2 connection leaves of its buffers; the hidden tail stays behind them. -/
def give_back (c : H2Connection L) (s : H2TlsServer X L) : H2TlsServer X L where
  tls := { s.tls with
    recv_buf := c.io.recv_buf ++ s.tls.hidden
    plain := c.io.recv_buf.length
    app_send_buf := c.io.send_buf }
  h2 := c

/-- A call of the TLS connection. -/
def on_tls {α : Type} (m : Method (TlsConnection X L.BUF) Error α) :
    Method (H2TlsServer X L) Error α :=
  .on H2TlsServer.tls (fun tls s => { s with tls }) m

/-- A call of the HTTP/2 connection that is lent the buffers. -/
def on_io {α : Type} (m : Method (H2Connection L) Error α) : Method (H2TlsServer X L) Error α :=
  .on lend give_back m

/-- Plaintext that can be seen is fed to the HTTP/2 connection, by a feed of no bytes. -/
def feed_plaintext (feed : Method (H2Connection L) Error Unit) :
    Method (H2TlsServer X L) Error Unit := do
  let s ← .get
  if s.tls.visible = [] then pure () else on_io feed

/-- Feeds received TCP data. -/
def feed_data (data : Bytes) : Method (H2TlsServer X L) Error Unit := do
  on_tls (TlsConnection.feed_data data)
  feed_plaintext (H2Connection.feed_data [])

/-- Feeds received TCP data at a time. -/
def feed_data_timed (data : Bytes) (now : Nat) : Method (H2TlsServer X L) Error Unit := do
  on_tls (TlsConnection.feed_data data)
  .modify fun s => if data = [] then s else { s with h2 := s.h2.note_recv_activity now }
  feed_plaintext (H2Connection.feed_data_timed [] now)

/-- Pulls outgoing TCP data. -/
def poll_output (room : Nat) (s : H2TlsServer X L) : Option Bytes × H2TlsServer X L :=
  let s := s.give_back s.lend.generate_output
  let (out, tls) := s.tls.poll_output room
  (out, { s with tls })

def poll_event (s : H2TlsServer X L) : Option H2Event × H2TlsServer X L :=
  let (event, h2) := s.h2.poll_event
  (event, { s with h2 })

def recv_headers (stream_id : Nat) (s : H2TlsServer X L) :
    Except Error Unit × List Header × H2TlsServer X L :=
  let (r, emitted, h2) := s.h2.recv_headers stream_id
  (r, emitted, { s with h2 })

def recv_body (stream_id len : Nat) : Method (H2TlsServer X L) Error (Bytes × Bool) :=
  on_io (H2Connection.recv_body stream_id len)

def discard_body (stream_id error_code : Nat) : Method (H2TlsServer X L) Error Unit :=
  on_io (H2Connection.discard_body stream_id error_code)

/-- Sends the header fields of a response. -/
def send_response (stream_id status : Nat) (headers : List Header) (end_stream : Bool) :
    Method (H2TlsServer X L) Error Unit := do
  .require (1 + headers.length ≤ http1.MAX_HEADERS) .TooManyHeaders
  on_io (H2Connection.send_headers stream_id
    ((ascii ":status", http1.Section.to_bytes status) :: headers) end_stream)

def send_body (stream_id : Nat) (data : Bytes) (end_stream : Bool) :
    Method (H2TlsServer X L) Error Nat :=
  on_io (H2Connection.send_data stream_id data end_stream)

def send_goaway (error_code : Nat) : Method (H2TlsServer X L) Error Unit :=
  on_io (H2Connection.send_goaway error_code)

def set_timeouts (config : TimeoutConfig) (now : Nat) (s : H2TlsServer X L) : H2TlsServer X L :=
  { s with h2 := s.h2.set_timeouts config now }

def handle_timeout (now : Nat) (s : H2TlsServer X L) : H2TlsServer X L :=
  s.give_back (s.lend.handle_timeout now)

/-- A DATA frame in progress has bytes among the plaintext that can be seen. -/
def recv_blocked (s : H2TlsServer X L) : Bool :=
  s.h2.partial_data.isSome && !s.tls.visible.isEmpty

/-! ## Sharing the buffers -/

theorem lend_give_back (c : H2Connection L) (s : H2TlsServer X L) : (s.give_back c).lend = c := by
  simp [give_back, lend, TlsConnection.visible]

theorem lend_recv_buf (s : H2TlsServer X L) : s.lend.io.recv_buf = s.tls.visible := rfl

theorem lend_fits {s : H2TlsServer X L} (h : s.tls.Rested) : s.lend.io.recv_buf.length ≤ L.BUF := by
  have hfits := h.fits
  rw [lend_recv_buf, TlsConnection.visible, List.length_take]
  omega

theorem rested_give_back {c : H2Connection L} {s : H2TlsServer X L} (h : s.tls.Rested)
    (hle : c.io.recv_buf.length ≤ s.lend.io.recv_buf.length) : (s.give_back c).tls.Rested := by
  have hplain := h.plain
  have hfits := h.fits
  refine ⟨?_, ?_, ?_⟩
  · simp [give_back]
  · simp only [lend_recv_buf, TlsConnection.visible, List.length_take] at hle
    simp only [give_back, List.length_append, TlsConnection.hidden, List.length_drop]
    omega
  · simpa [give_back, TlsConnection.hidden] using h.short

/-! ## Between two calls -/

/-- A server between two calls. -/
structure Settled (s : H2TlsServer X L) : Prop where
  tls : s.tls.Rested
  h2 : stalls.Settled s.lend

theorem settled_from_parts (h : tls.Rested) (hvisible : tls.visible = []) :
    (from_parts tls : H2TlsServer X L).Settled := by
  refine ⟨h, ?_⟩
  have hnew : recv_side (from_parts tls : H2TlsServer X L).lend = recv_side (H2Connection.new L .Server) := by
    simp [recv_side, lend, from_parts, hvisible, H2Connection.new]
  exact (settled_new .Server).of_same hnew

variable {s s' : H2TlsServer X L}

theorem Settled.of_tls (h : s.Settled)
    (hside : tls.recv_side = s.tls.recv_side) : ({ s with tls } : H2TlsServer X L).Settled := by
  obtain ⟨hrecv, hplain⟩ := Prod.mk.inj hside
  have hvisible : tls.visible = s.tls.visible := by
    unfold TlsConnection.visible
    rw [hrecv, hplain]
  refine ⟨h.tls.of_same hrecv hplain, h.h2.of_same ?_⟩
  simp only [recv_side, lend, hvisible]

theorem Settled.of_h2 {h2 : H2Connection L} (h : s.Settled)
    (hside : recv_side h2 = recv_side s.h2) : ({ s with h2 } : H2TlsServer X L).Settled := by
  refine ⟨h.tls, h.h2.of_same ?_⟩
  simp only [recv_side, Prod.mk.injEq] at hside
  simp [recv_side, lend, hside]

theorem Settled.of_io {c : H2Connection L} (h : s.Settled)
    (hside : recv_side c = recv_side s.lend) : (s.give_back c).Settled := by
  have hrecv : c.io.recv_buf = s.lend.io.recv_buf := by
    simp only [recv_side, Prod.mk.injEq] at hside
    exact hside.2.2.2.1
  refine ⟨rested_give_back h.tls (by rw [hrecv]), ?_⟩
  rw [lend_give_back]
  exact h.h2.of_same hside

/-! ## Feeds -/

theorem feed_plaintext_run (feed : Method (H2Connection L) Error Unit) (s : H2TlsServer X L) :
    feed_plaintext feed s =
      if s.tls.visible = [] then (.ok (), s) else ((feed s.lend).1, s.give_back (feed s.lend).2) := by
  unfold feed_plaintext
  rw [Method.get_bind_run]
  split <;> rfl

theorem feed_plaintext_state (feed : Method (H2Connection L) Error Unit) (s : H2TlsServer X L) :
    (feed_plaintext feed s).2.tls.state = s.tls.state := by
  rw [feed_plaintext_run]
  split <;> rfl

/-- A feed of the HTTP/2 connection goes round its receive loop. -/
def Drives (feed : Method (H2Connection L) Error Unit) : Prop :=
  ∀ c : H2Connection L, c.io.recv_buf.length ≤ L.BUF →
    feed c = H2Connection.process_recv c.generate_output

theorem drives_feed_data : Drives (H2Connection.feed_data [] : Method (H2Connection L) Error Unit) :=
  feed_nothing_run

theorem drives_feed_data_timed (now : Nat) :
    Drives (H2Connection.feed_data_timed [] now : Method (H2Connection L) Error Unit) := by
  intro c h
  rw [feed_timed_nothing]
  exact feed_nothing_run c h

theorem settled_plaintext {h2 : H2Connection L}
    {feed : Method (H2Connection L) Error Unit} (hfeed : Drives feed) (htls : tls.Rested)
    (hunfinished : Unfinished h2)
    (hpreface : h2.role = .Server → h2.preface_validated = false →
      h2.preface_bytes_seen < CONNECTION_PREFACE.length)
    (hrun : feed_plaintext feed { tls, h2 } = (.ok (), s')) : s'.Settled := by
  have hfits := lend_fits (s := { tls, h2 }) htls
  rw [feed_plaintext_run] at hrun
  split at hrun
  · -- nothing reaches the HTTP/2 connection
    rename_i hempty
    cases hrun
    have hbuf : (lend ({ tls, h2 } : H2TlsServer X L)).io.recv_buf = [] := hempty
    refine ⟨htls, fun hserver hno => ⟨hbuf, hpreface hserver hno⟩, hunfinished, fun _ => ?_⟩
    rw [hbuf]
    exact .inl (Nat.zero_lt_succ 8)
  · rw [hfeed _ hfits] at hrun
    generalize hlent : lend ({ tls, h2 } : H2TlsServer X L) = c at hrun hfits
    have hpd : c.partial_data = h2.partial_data := by
      rw [← hlent]
      rfl
    have hgenerated : Unfinished c.generate_output :=
      unfinished_generate_output (hunfinished.of_same (by rw [hpd]))
    have hshrinks : c.generate_output.process_recv.2.io.recv_buf.length ≤ c.io.recv_buf.length := by
      have hle := process_recv_shrinks c.generate_output
      have hside := recv_side_generate_output c
      simp only [recv_side, Prod.mk.injEq] at hside
      rw [Shrinks, hside.2.2.2.1] at hle
      exact hle
    obtain ⟨hok, rfl⟩ := Prod.mk.inj hrun
    refine ⟨rested_give_back htls ?_, ?_⟩
    · rw [hlent]
      exact hshrinks
    · rw [lend_give_back]
      exact process_recv_settles hgenerated (Prod.ext hok rfl)

theorem Settled.fed {data : Bytes}
    {feed : Method (H2Connection L) Error Unit} (h : s.Settled) (h2 : H2Connection L)
    (hfeed : Drives feed) (htls : TlsConnection.feed_data data s.tls = (.ok (), tls))
    (hopen : tls.Open) (hside : recv_side h2 = recv_side s.h2)
    (hrun : feed_plaintext feed { tls, h2 } = (.ok (), s')) : s'.Settled := by
  have hold := h.h2
  simp only [recv_side, Prod.mk.injEq] at hside
  obtain ⟨hrole, hvalidated, hseen, -, hpartial⟩ := hside
  refine settled_plaintext hfeed (TlsConnection.feed_data_rests h.tls.plain htls hopen)
    (hold.stopped.unfinished.of_same hpartial) (fun hserver hno => ?_) hrun
  have hmore := (hold.preface (hrole.symm.trans hserver) (hvalidated.symm.trans hno)).2
  rw [hseen]
  exact hmore

theorem feed_data_run (data : Bytes) (s : H2TlsServer X L) :
    feed_data data s =
      match TlsConnection.feed_data data s.tls with
      | (.ok _, tls) => feed_plaintext (H2Connection.feed_data []) { s with tls }
      | (.error e, tls) => (.error e, { s with tls }) := by
  unfold feed_data on_tls
  rw [Method.bind_run, Method.on_run]
  rcases TlsConnection.feed_data data s.tls with ⟨_ | _, tls⟩ <;> rfl

theorem feed_data_timed_run (data : Bytes) (now : Nat) (s : H2TlsServer X L) :
    feed_data_timed data now s =
      match TlsConnection.feed_data data s.tls with
      | (.ok _, tls) =>
        feed_plaintext (H2Connection.feed_data_timed [] now)
          { tls, h2 := if data = [] then s.h2 else s.h2.note_recv_activity now }
      | (.error e, tls) => (.error e, { s with tls }) := by
  unfold feed_data_timed on_tls
  rw [Method.bind_run, Method.on_run]
  rcases TlsConnection.feed_data data s.tls with ⟨_ | _, tls⟩
  · rfl
  · dsimp only
    rw [Method.bind_run, Method.modify_run]
    by_cases hdata : data = []
    · simp only [hdata, if_true]
    · simp only [hdata, if_false]

theorem Settled.fed_data {data : Bytes} (h : s.Settled) (hrun : feed_data data s = (.ok (), s'))
    (hopen : s'.tls.Open) : s'.Settled := by
  rw [feed_data_run] at hrun
  rcases htls : TlsConnection.feed_data data s.tls with ⟨e | u, tls⟩
  · rw [htls] at hrun
    cases hrun
  · rw [htls] at hrun
    dsimp only at hrun
    have hstate := feed_plaintext_state (H2Connection.feed_data []) ({ s with tls } : H2TlsServer X L)
    rw [hrun] at hstate
    exact h.fed s.h2 drives_feed_data htls (hopen.of_state hstate.symm) rfl hrun

theorem Settled.fed_data_timed {data : Bytes} {now : Nat} (h : s.Settled)
    (hrun : feed_data_timed data now s = (.ok (), s')) (hopen : s'.tls.Open) : s'.Settled := by
  rw [feed_data_timed_run] at hrun
  rcases htls : TlsConnection.feed_data data s.tls with ⟨e | u, tls⟩
  · rw [htls] at hrun
    cases hrun
  · rw [htls] at hrun
    dsimp only at hrun
    have hside : recv_side (if data = [] then s.h2 else s.h2.note_recv_activity now) =
        recv_side s.h2 := by
      split <;> rfl
    generalize (if data = [] then s.h2 else s.h2.note_recv_activity now) = h2 at hrun hside
    have hstate := feed_plaintext_state (H2Connection.feed_data_timed [] now)
      ({ tls, h2 } : H2TlsServer X L)
    rw [hrun] at hstate
    exact h.fed h2 (drives_feed_data_timed now) htls (hopen.of_state hstate.symm) hside hrun

/-- What arrived with the end of the handshake is processed by a feed of no bytes. -/
theorem settled_upgraded {now : Nat} (h : tls.Rested)
    (hrun : feed_data_timed [] now (from_parts tls : H2TlsServer X L) = (.ok (), s')) :
    s'.Settled := by
  have hrested : tls.limited.Rested := h.of_same rfl rfl
  have hfeed : TlsConnection.feed_data [] (from_parts tls : H2TlsServer X L).tls =
      (.ok (), tls.limited) := TlsConnection.feed_nothing h
  have hnew := settled_new (L := L) .Server
  rw [feed_data_timed_run, hfeed] at hrun
  dsimp only at hrun
  rw [if_pos rfl] at hrun
  exact settled_plaintext (drives_feed_data_timed now) hrested hnew.stopped.unfinished
    (fun hserver hno => (hnew.preface hserver hno).2) hrun

/-- A feed of no bytes shows the application nothing. -/
theorem quiet_feed (now : Nat) (h : s.Settled) (hblocked : s.recv_blocked = false) :
    stalls.Quiet s.lend (feed_data_timed [] now s).2.lend := by
  have hsame : ({ tls := s.tls.limited, h2 := s.h2 } : H2TlsServer X L).lend = s.lend := rfl
  rw [feed_data_timed_run, TlsConnection.feed_nothing h.tls]
  dsimp only
  rw [if_pos rfl, feed_plaintext_run, hsame]
  split
  · dsimp only
    rw [hsame]
    exact refl s.lend
  · dsimp only
    rw [lend_give_back, feed_timed_nothing]
    exact quiet_feed_nothing h.h2 (lend_fits h.tls) hblocked

/-! ## The other calls -/

theorem Settled.polled (room : Nat) (h : s.Settled) : (s.poll_output room).2.Settled := by
  have hgenerated := h.of_io (recv_side_generate_output s.lend)
  exact hgenerated.of_tls (TlsConnection.recv_side_poll_output room _)

theorem Settled.event_polled (h : s.Settled) : s.poll_event.2.Settled :=
  h.of_h2 (recv_side_op .poll_event s.h2)

theorem Settled.headers_read (stream_id : Nat) (h : s.Settled) :
    (s.recv_headers stream_id).2.2.Settled :=
  h.of_h2 (recv_side_op (.recv_headers stream_id) s.h2)

theorem Settled.responded (stream_id status : Nat) (headers : List Header) (end_stream : Bool)
    (h : s.Settled) : (send_response stream_id status headers end_stream s).2.Settled := by
  unfold send_response
  rw [Method.require_bind_run]
  split
  · exact h.of_io (recv_side_send_headers _ _ _ _)
  · exact h

end H2TlsServer

end milli_http.h2_tls
