-- The reads of the server runner (server/runner.rs, step 2 of `poll_event`). A connection that its
-- consumer does not hold up keeps nothing in its receive buffer but the beginning of one piece of
-- what its peer sends, so that a read finds room. The runner looks for that once for four reads.
import MilliHttp.Stranding

open bytes method

namespace milli_http.backpressure

open crypto tls tcp_tls https1 h2_tls stranding

variable {X : Primitives} {L : http1.Limits} {M : h2.Limits} {conn : HttpServerConn X L M}

/-! ## The runner -/

/-- How often a connection is read in one poll. -/
def MAX_READS_PER_CONN : Nat := 4

/-- How many bytes `tcp_buf` takes from the socket. -/
def READ_LEN : Nat := 1500

/-- What a read found. -/
structure Chunk where
  data : Bytes
  some_bytes : data ≠ []
  fits : data.length ≤ READ_LEN

/-- How a read of the socket ends. -/
inductive PollRead where
  | Pending
  | Eof
  | Error
  | Ready (chunk : Chunk)

/-- A connection of the runner, with the reads it has left in the poll that is going on. -/
structure TcpConnState (X : Primitives) (L : http1.Limits) (M : h2.Limits) where
  conn : HttpServerConn X L M
  eof : Bool
  reads_left : Nat

/-- The connection is established. The poll in which its handshake ended may have reads left. -/
def TcpConnState.established (conn : HttpServerConn X L M) (reads_left : Nat) : TcpConnState X L M :=
  { conn, eof := false, reads_left }

/-- After an error the connection is at its end. -/
def TcpConnState.tcp_feed (data : Bytes) (now : Nat) (s : TcpConnState X L M) : TcpConnState X L M :=
  match s.conn.tcp_feed_data data now with
  | (.ok _, conn) => { s with conn }
  | (.error _, conn) => { conn, eof := true, reads_left := 0 }

/-- The call feeds the connection. Only the runner does that. -/
def Feeds : Call → Bool
  | .feed_data _ | .tcp_feed_data _ _ => true
  | _ => false

/-- What happens to a connection: step 2 of a poll begins, the socket is read once more in it, or
the server calls the connection after it. -/
inductive Step where
  | poll (now : Nat)
  | read (r : PollRead) (now : Nat)
  | call (a : Call) (not_fed : Feeds a = false)

/-- A connection that is blocked is only fed no bytes, and is not read in this poll. -/
def Step.apply : Step → TcpConnState X L M → TcpConnState X L M
  | .poll now, s =>
    if s.eof then s
    else if s.conn.recv_blocked then ({ s with reads_left := 0 } : TcpConnState X L M).tcp_feed [] now
    else { s with reads_left := MAX_READS_PER_CONN }
  | .read r now, s =>
    match s.reads_left, r with
    | 0, _ => s
    | _ + 1, .Pending => { s with reads_left := 0 }
    | _ + 1, .Eof | _ + 1, .Error => { s with eof := true, reads_left := 0 }
    | n + 1, .Ready chunk => ({ s with reads_left := n } : TcpConnState X L M).tcp_feed chunk.data now
  | .call a _, s => if s.eof then s else { s with conn := a.apply s.conn, reads_left := 0 }

/-- The peer does not end the TLS session. -/
def StaysOpen (s : TcpConnState X L M) (a : Step) : Prop :=
  (a.apply s).eof = true ∨ TlsOpen (a.apply s).conn

instance (s : TcpConnState X L M) (a : Step) : Decidable (StaysOpen s a) :=
  inferInstanceAs (Decidable (_ ∨ _))

/-! ## Room -/

/-- The bytes in the buffer a read is appended to. -/
def held : HttpServerConn X L M → Nat
  | .http1 s => s.recv_buf.length
  | .https1 s => s.tls.recv_buf.length
  | .h2 s => s.tls.recv_buf.length

/-- How many bytes that buffer may hold. -/
def capacity : HttpServerConn X L M → Nat
  | .http1 _ | .https1 _ => L.BUF
  | .h2 _ => M.BUF

/-- A read of the socket that is fed to the connection fits its buffer, as long as it may be. -/
def TakesRead (s : TcpConnState X L M) : Step → Prop
  | .read (.Ready _) _ => s.reads_left ≠ 0 → held s.conn + READ_LEN ≤ capacity s.conn
  | _ => True

/-! ## What the peer is in the middle of -/

/-- The bytes of a header section, of a chunk's line or of a trailer that is not there as a whole. A
body's own bytes are not among them. -/
def section_len (c : http1.Http1Connection L) : Nat :=
  match http1.Http1Connection.body_left c with
  | some _ => 0
  | none => if c.state = .Done ∧ ¬ c.Consumed then 0 else c.recv_buf.length

/-- How long the record is that begins the bytes, as far as it can be known. -/
def record_len (buf : Bytes) : Nat :=
  match decode_record_header (buf.take RECORD_HEADER_LEN) with
  | .ok hdr => RECORD_HEADER_LEN + hdr.length
  | .error _ => RECORD_HEADER_LEN

/-- How long the frame is that begins the bytes, as far as it can be known. Of a DATA frame only the
header is waited for. -/
def frame_len (buf : Bytes) : Nat :=
  if buf.length < 9 then 9
  else
    let hdr := h2.decode_frame_header buf
    if hdr.frame_type = .Data then h2.H2Connection.data_header_len hdr else 9 + hdr.length

/-- How many bytes the pieces take up at most that the peer has begun and not ended. -/
def unfinished : HttpServerConn X L M → Nat
  | .http1 s => section_len s
  | .https1 s => section_len s.lend + (record_len s.tls.hidden - 1)
  | .h2 s => (frame_len s.tls.visible - 1) + (record_len s.tls.hidden - 1)

/-- The application has not read a request to its end, and something of the next one is there. -/
def Behind : HttpServerConn X L M → Prop
  | .http1 s => s.state = .Done ∧ ¬ s.Consumed ∧ s.recv_buf ≠ []
  | .https1 s => s.lend.state = .Done ∧ ¬ s.lend.Consumed ∧ s.lend.recv_buf ≠ []
  | .h2 _ => False

instance : (conn : HttpServerConn X L M) → Decidable (Behind conn)
  | .http1 _ => instDecidableAnd
  | .https1 _ => instDecidableAnd
  | .h2 _ => isFalse id

/-- A read is made while the consumer does not hold the connection up: no body bytes are parked and
no request waits behind one that is not read. What the peer is in the middle of leaves room. -/
def ReadsInTime (s : TcpConnState X L M) : Step → Prop
  | .read (.Ready _) _ => s.reads_left ≠ 0 →
    s.conn.recv_blocked = false ∧ ¬ Behind s.conn ∧ unfinished s.conn + READ_LEN ≤ capacity s.conn
  | _ => True

instance (s : TcpConnState X L M) (a : Step) : Decidable (ReadsInTime s a) := by
  unfold ReadsInTime
  split <;> infer_instance

/-! ## What is held between two calls -/

theorem held_section {c : http1.Http1Connection L} (h : http1.stalls.Settled c)
    (hblocked : http1.stalls.recv_blocked c = false)
    (hbehind : ¬ (c.state = .Done ∧ ¬ c.Consumed ∧ c.recv_buf ≠ [])) :
    c.recv_buf.length ≤ section_len c := by
  have hstuck := h.stuck
  unfold http1.stalls.Stuck at hstuck
  unfold section_len
  rcases hbody : http1.Http1Connection.body_left c with _ | n
  · dsimp only
    split
    · rename_i hdone
      have hempty : c.recv_buf = [] := by
        by_contra hsome
        exact hbehind ⟨hdone.1, hdone.2, hsome⟩
      simp [hempty]
    · exact Nat.le_refl _
  · simp only [hbody] at hstuck
    have hempty : c.recv_buf = [] := by
      rcases hstuck with hempty | hparked
      · exact hempty
      · simpa [http1.stalls.recv_blocked, hparked] using hblocked
    simp [hempty]

theorem held_record {BUF : Nat} {buf : Bytes} (h : TlsConnection.Short BUF buf) :
    buf.length ≤ record_len buf - 1 := by
  unfold record_len
  rcases h with hshort | ⟨hdr, hhdr, -, hshort⟩
  · split <;> omega
  · rw [hhdr]
    dsimp only
    omega

theorem held_frame {buf : Bytes} (h : h2.stalls.Incomplete buf) : buf.length ≤ frame_len buf - 1 := by
  unfold frame_len
  by_cases hlen : buf.length < 9
  · rw [if_pos hlen]
    omega
  · rw [if_neg hlen]
    dsimp only
    rcases h with hlen' | ⟨htype, hshort⟩ | ⟨htype, hshort⟩
    · exact absurd hlen' hlen
    · rw [if_pos htype]
      omega
    · rw [if_neg htype]
      omega

theorem held_frame_settled {c : h2.H2Connection M} (h : h2.stalls.Settled c)
    (hblocked : h2.stalls.recv_blocked c = false) :
    c.io.recv_buf.length ≤ frame_len c.io.recv_buf - 1 := by
  rcases hpart : c.partial_data with _ | pd
  · exact held_frame (h.stopped.waits hpart)
  · have hempty : c.io.recv_buf = [] := by simpa [h2.stalls.recv_blocked, hpart] using hblocked
    simp [hempty]

/-- The buffer holds the plaintext that can be seen, and behind it the hidden bytes. -/
theorem visible_hidden {BUF : Nat} (c : TlsConnection X BUF) :
    c.recv_buf.length = c.visible.length + c.hidden.length := by
  simp only [TlsConnection.visible, TlsConnection.hidden, List.length_take, List.length_drop]
  omega

/-- A connection that its consumer does not hold up holds only what its peer has not ended. -/
theorem held_le_unfinished (h : Settled conn)
    (hblocked : conn.recv_blocked = false) (hbehind : ¬ Behind conn) :
    held conn ≤ unfinished conn := by
  cases conn with
  | http1 s => exact held_section h hblocked hbehind
  | https1 s =>
    have hsection : s.tls.visible.length ≤ section_len s.lend := held_section h.http hblocked hbehind
    have hrecord := held_record h.tls.short
    have hall := visible_hidden s.tls
    unfold held unfinished
    dsimp only
    omega
  | h2 s =>
    have hframe : s.tls.visible.length ≤ frame_len s.tls.visible - 1 :=
      held_frame_settled h.h2 hblocked
    have hrecord := held_record h.tls.short
    have hall := visible_hidden s.tls
    unfold held unfinished
    dsimp only
    omega

/-! ## Runs -/

theorem apply_tcp_feed_data (data : Bytes) (now : Nat) (conn : HttpServerConn X L M) :
    (Call.tcp_feed_data data now).apply conn = (conn.tcp_feed_data data now).2 := by
  cases conn <;> rfl

theorem serves_call {a : Call} (h : Feeds a = false) (conn : HttpServerConn X L M) :
    Serves conn a := by
  cases conn with
  | http1 s => trivial
  | https1 s => cases a <;> simp_all [Feeds, Serves]
  | h2 s => cases a <;> simp_all [Feeds, Serves]

/-- The runner is done with the connection, or a call has left it settled. -/
structure Fit (s : TcpConnState X L M) : Prop where
  ended : s.eof = true → s.reads_left = 0
  settled : s.eof = false → Settled s.conn

theorem fit_tcp_feed {s : TcpConnState X L M} (data : Bytes) (now : Nat) (hgoing : s.eof = false)
    (h : Settled s.conn)
    (hopen : (s.tcp_feed data now).eof = true ∨ TlsOpen (s.tcp_feed data now).conn) :
    Fit (s.tcp_feed data now) := by
  unfold TcpConnState.tcp_feed at hopen ⊢
  rcases hrun : s.conn.tcp_feed_data data now with ⟨e | u, conn⟩
  · exact ⟨fun _ => rfl, nofun⟩
  · rw [hrun] at hopen
    have hopen : TlsOpen conn := hopen.resolve_left (by simp [hgoing])
    have happly := apply_tcp_feed_data data now s.conn
    rw [hrun] at happly
    have hserves : Serves s.conn (.tcp_feed_data data now) := by
      cases hconn : s.conn with
      | http1 c => trivial
      | https1 c =>
        rw [hconn] at hrun happly
        refine ⟨by rw [hrun], ?_⟩
        rw [happly]
        exact hopen
      | h2 c =>
        rw [hconn] at hrun happly
        refine ⟨by rw [hrun], ?_⟩
        rw [happly]
        exact hopen
    have hsettled := settled_apply s.conn (.tcp_feed_data data now) hserves h
    rw [happly] at hsettled
    exact ⟨fun heof => by simp [hgoing] at heof, fun _ => hsettled⟩

theorem fit_step (s : TcpConnState X L M) (a : Step) (hopen : StaysOpen s a) (h : Fit s) :
    Fit (a.apply s) := by
  unfold StaysOpen at hopen
  by_cases heof : s.eof = true
  · -- the runner passes it over
    have hsame : a.apply s = s := by
      cases a with
      | poll now => simp [Step.apply, heof]
      | read r now => simp [Step.apply, h.ended heof]
      | call a not_fed => simp [Step.apply, heof]
    rw [hsame]
    exact h
  · have hgoing : s.eof = false := by simpa using heof
    have hsettled := h.settled hgoing
    cases a with
    | poll now =>
      simp only [Step.apply, if_neg heof] at hopen ⊢
      by_cases hblocked : s.conn.recv_blocked = true
      · rw [if_pos hblocked] at hopen ⊢
        exact fit_tcp_feed [] now hgoing hsettled hopen
      · rw [if_neg hblocked]
        exact ⟨fun hend => absurd hend heof, fun _ => hsettled⟩
    | read r now =>
      simp only [Step.apply] at hopen ⊢
      rcases hleft : s.reads_left with _ | n
      · exact h
      · simp only [hleft] at hopen
        cases r with
        | Pending => exact ⟨fun _ => rfl, fun _ => hsettled⟩
        | Eof => exact ⟨fun _ => rfl, nofun⟩
        | Error => exact ⟨fun _ => rfl, nofun⟩
        | Ready chunk => exact fit_tcp_feed chunk.data now hgoing hsettled hopen
    | call a not_fed =>
      simp only [Step.apply, if_neg heof]
      exact ⟨fun hend => absurd hend heof,
        fun _ => settled_apply s.conn a (serves_call not_fed s.conn) hsettled⟩

theorem fit_established (h : Started conn) (reads_left : Nat) :
    Fit (TcpConnState.established conn reads_left) :=
  ⟨nofun, fun _ => settled_started h⟩

/-- A read that is made in time finds room. -/
theorem takes_read {s : TcpConnState X L M} {a : Step} (h : Fit s) (htime : ReadsInTime s a) :
    TakesRead s a := by
  cases a with
  | poll now => trivial
  | call a not_fed => trivial
  | read r now =>
    cases r with
    | Pending => trivial
    | Eof => trivial
    | Error => trivial
    | Ready chunk =>
      intro hleft
      obtain ⟨hblocked, hbehind, hroom⟩ := htime hleft
      have hgoing : s.eof = false := by
        by_contra heof
        exact hleft (h.ended (by simpa using heof))
      have hheld := held_le_unfinished (h.settled hgoing) hblocked hbehind
      omega

/-- In every run of the runner, of the server and of a peer: as long as each read is made while the
consumer does not hold the connection up, each read finds room. -/
theorem reads_made_in_time_find_room {conn : HttpServerConn X L M} {reads_left : Nat}
    {steps : List Step} (hstart : Started conn)
    (hopen : run.Along Step.apply StaysOpen (.established conn reads_left) steps)
    (htime : run.Along Step.apply ReadsInTime (.established conn reads_left) steps) :
    run.Along Step.apply TakesRead (.established conn reads_left) steps := by
  have hfit := run.invariant_at fit_step hopen (fit_established hstart reads_left)
  intro x hx
  exact takes_read (hfit x hx) (htime x hx)

/-! ## An upload that is read slowly -/

/-- The default sizes of the server manager. -/
def limits : http1.Limits := { HDRBUF := 2048, DATABUF := 4096, BUF := 4096 }

def h2_limits : h2.Limits := { MAX_STREAMS := 4, HDRBUF := 2048, DATABUF := 4096, BUF := 4096 }

/-- The header section of an upload. -/
def upload : Bytes := ascii "POST /upload HTTP/1.1\r\nContent-Length: 20000\r\n\r\n"

/-- The header section and the first bytes of the body. -/
def first_chunk : Chunk where
  data := upload ++ List.replicate 1096 0x61
  some_bytes := by decide +kernel
  fits := by decide +kernel

/-- As much of the body as a read takes. -/
def body_chunk : Chunk where
  data := List.replicate READ_LEN 0x61
  some_bytes := by decide +kernel
  fits := by simp

def read_chunk (chunk : Chunk) : Step := .read (.Ready chunk) 0

/-- A cleartext server. -/
def server : TcpConnState standin.primitives limits h2_limits :=
  .established (.http1 .new_server) 0

/-- The first poll fills the body buffer to its last byte. The application learns of the request and
reads its headers, but nothing of its body yet. -/
def uploading : List Step :=
  [.poll 0, read_chunk first_chunk, read_chunk body_chunk, read_chunk body_chunk, .read .Pending 0,
    .call .poll_event rfl, .call .poll_event rfl, .call (.recv_headers 1) rfl]

/-- The second poll reads on. -/
def reading_on : List Step := [.poll 1, read_chunk body_chunk, read_chunk body_chunk]

/-- The server when the runner has read twice in the second poll. -/
@[irreducible] def parked : TcpConnState standin.primitives limits h2_limits :=
  run.final Step.apply server (uploading ++ reading_on)

/-- Each read of the first poll is made in time, though the last one leaves the body buffer full. -/
theorem upload_fills_the_body_buffer :
    run.Along Step.apply TakesRead server uploading := by
  have hstart : Started (L := limits) (M := h2_limits) (X := standin.primitives)
      (.http1 .new_server) := .http1
  have hrun : run.Along Step.apply StaysOpen server uploading ∧
      run.Along Step.apply ReadsInTime server uploading := by decide +kernel
  exact reads_made_in_time_find_room hstart hrun.1 hrun.2

/-- The second poll began with a connection that was not blocked. Two reads later three thousand bytes
are parked, the third read is refused, and the connection is at its end. -/
theorem slow_upload_is_cut_off :
    (run.final Step.apply server uploading).conn.recv_blocked = false ∧
      held parked.conn = 3000 ∧ parked.conn.recv_blocked = true ∧ parked.reads_left = 2 ∧
      (parked.conn.tcp_feed_data body_chunk.data 0).1 = .error (.BufferTooSmall 4500) ∧
      ((read_chunk body_chunk).apply parked).eof = true := by
  decide +kernel

end milli_http.backpressure
