-- The server runner (server/runner.rs): the manager between its sockets. What the manager has handed
-- out for a connection is in the chunk at hand, in what the connection has left to write or in the
-- record of a closed one, until the socket has taken it.
import MilliHttp.Server.Tables

open bytes method run

namespace milli_http.runner

open crypto tls tcp_tls transport connection manager

variable {X : Primitives} {BUF : Nat} {Q A P : Type}

/-! ## Sockets -/

/-- What `poll_read` finds. No bytes are the end of the stream. -/
inductive Read where
  | Ready (data : Bytes)
  | Error
  | Pending
  deriving DecidableEq, Repr

/-- What `poll_write` answers: it takes one byte and some more of what it is given, or nothing. -/
inductive Write where
  | Ready (more : Nat)
  | Error
  | Pending
  deriving DecidableEq, Repr

/-- What a stream answers, call by call. Behind that it is pending. -/
structure Answers where
  reads : List Read
  writes : List Write
  /-- Whether `poll_shutdown` resolves. -/
  shutdowns : List Bool
  deriving DecidableEq, Repr

/-- A stream, with the bytes it has taken and whether a write has failed. -/
structure TcpStream extends Answers where
  accepted : Bytes
  failed : Bool
  deriving DecidableEq, Repr

def TcpStream.poll_read (room : Nat) (s : TcpStream) : Read × TcpStream :=
  match s.reads with
  | [] => (.Pending, s)
  | .Ready data :: reads => (.Ready (data.take room), { s with reads })
  | answer :: reads => (answer, { s with reads })

def TcpStream.poll_shutdown (s : TcpStream) : Bool × TcpStream :=
  (s.shutdowns.headD false, { s with shutdowns := s.shutdowns.tail })

/-- The loop `while written < data.len()`, for a stream that answers so: whether a write failed, and
how far it came. -/
def write_loop (data : Bytes) : List Write → Nat → TcpStream → Bool × Nat × TcpStream
  | [], written, s => (false, written, { s with writes := [] })
  | answer :: writes, written, s =>
    if data.length ≤ written then (false, written, { s with writes := answer :: writes })
    else
      match answer with
      | .Ready more =>
        let n := min (more + 1) (data.length - written)
        write_loop data writes (written + n)
          { s with accepted := s.accepted ++ (data.drop written).take n }
      | .Error => (true, written, { s with writes, failed := true })
      | .Pending => (false, written, { s with writes })

def TcpStream.write (data : Bytes) (written : Nat) (s : TcpStream) : Bool × Nat × TcpStream :=
  write_loop data s.writes written s

/-! ## Connections -/

/-- What is left to write to a stream. Two fields keep account: what the manager has handed out for
it, and whether some of that was dropped for want of memory. -/
structure Writer where
  stream : TcpStream
  pending_write : Bytes
  write_offset : Nat
  pulled : Bytes
  lost : Bool
  deriving DecidableEq, Repr

structure TcpConnState extends Writer where
  id : Nat
  eof : Bool
  deriving DecidableEq, Repr

/-- A connection that the manager has closed. -/
structure ClosingConn extends Writer where
  started : Nat
  aborted : Bool
  deriving DecidableEq, Repr

def SHUTDOWN_LINGER_US : Nat := 5000000

def ABORT_LINGER_US : Nat := 1000000

def TcpConnState.new (id : Nat) (answers : Answers) : TcpConnState where
  stream := { answers with accepted := [], failed := false }
  pending_write := []
  write_offset := 0
  pulled := []
  lost := false
  id := id
  eof := false

/-- Gives up what is left. -/
def Writer.clear (w : Writer) : Writer := { w with pending_write := [], write_offset := 0 }

/-- Writes what is left, as far as the stream takes it: whether a write failed. -/
def Writer.flush (w : Writer) : Bool × Writer :=
  let (failed, write_offset, stream) := w.stream.write w.pending_write w.write_offset
  (failed, { w with stream, write_offset })

/-- Waits for the shutdown: whether the connection lingers. -/
def ClosingConn.shut_down (now : Nat) (c : ClosingConn) : Bool × ClosingConn :=
  let (ready, stream) := c.stream.poll_shutdown
  let c := { c with stream }
  if ready then (false, c)
  else if now - c.started < (if c.aborted then ABORT_LINGER_US else SHUTDOWN_LINGER_US) then (true, c)
  else if c.aborted then (false, c)
  else (true, { c with aborted := true, started := now })

/-- Step 0: writes what a closed connection owes its peer, and shuts it down. One whose peer does not
take it is given up in the end. -/
def ClosingConn.finish (now : Nat) (c : ClosingConn) : Bool × ClosingConn :=
  let (failed, writer) := c.flush
  let c := { c with toWriter := writer }
  if failed then (false, c)
  else if c.write_offset < c.pending_write.length ∧ c.aborted = false then
    if now - c.started < SHUTDOWN_LINGER_US then (true, c)
    else
      ({ c.clear with aborted := true, started := now } : ClosingConn).shut_down now
  else c.shut_down now

section Steps

variable [H3Server Q P]

def conn_recv_blocked (id : Nat) (m : ServerManager X BUF Q A) : Bool :=
  match m.find_tcp id with
  | some { state := .Established http, .. } => http.conn.recv_blocked
  | _ => false

/-- An error, if there was one, ends a connection. -/
def TcpConnState.fail_if (failed : Bool) (reason : CloseReason) (conn : TcpConnState)
    (m : ServerManager X BUF Q A) : TcpConnState × ServerManager X BUF Q A :=
  ({ conn with eof := conn.eof || failed },
    if failed then (m.note_close_reason conn.id reason).tcp_eof conn.id else m)

def MAX_READS_PER_CONN : Nat := 4

/-- Reads of a stream, no more than so many. -/
def reads (now : Nat) : Nat → TcpConnState → ServerManager X BUF Q A →
    TcpConnState × ServerManager X BUF Q A
  | 0, conn, m => (conn, m)
  | n + 1, conn, m =>
    let (found, stream) := conn.stream.poll_read 1500
    let conn := { conn with stream }
    match found with
    | .Pending => (conn, m)
    | .Error => conn.fail_if true .ReadError m
    | .Ready [] => ({ conn with eof := true }, m.tcp_eof conn.id)
    | .Ready data =>
      match m.tcp_feed conn.id data now with
      | (.error e, m) => conn.fail_if true (.FeedError e) m
      | (.ok _, m) => reads now n conn m

/-- Step 2: reads a connection, or only feeds it no bytes where it holds back what it has. -/
def read_conn (now : Nat) (conn : TcpConnState) (m : ServerManager X BUF Q A) :
    TcpConnState × ServerManager X BUF Q A :=
  if conn.eof then (conn, m)
  else if conn_recv_blocked conn.id m then
    match m.tcp_feed conn.id [] now with
    | (.error e, m) => conn.fail_if true (.FeedError e) m
    | (.ok _, m) => (conn, m)
  else reads now MAX_READS_PER_CONN conn m

/-- Step 3b: pulls output from the manager and writes it, until there is no more, or the stream takes
no more. What it does not take is kept, if there is memory for it. -/
def pull (alloc : TcpConnState → Nat → Bool) : Nat → TcpConnState → ServerManager X BUF Q A →
    TcpConnState × ServerManager X BUF Q A
  | 0, conn, m => (conn, m)
  | rounds + 1, conn, m =>
    if conn.pending_write.length - conn.write_offset ≥ BUF then (conn, m)
    else
      match m.tcp_poll_output conn.id 1500 with
      | (none, m) => (conn, m)
      | (some data, m) =>
        let (failed, written, stream) := conn.stream.write data 0
        let conn := { conn with stream, pulled := conn.pulled ++ data }
        let (conn, m) := conn.fail_if failed .WriteError m
        if written < data.length then
          let rest := data.drop written
          if alloc conn rest.length then
            ({ conn with pending_write := conn.pending_write ++ rest, write_offset := 0 }, m)
          else { conn with lost := true }.fail_if true .WriteError m
        else pull alloc rounds conn m

/-- Step 3: writes what is left from the polls before, and then new output. -/
def write_conn (alloc : TcpConnState → Nat → Bool) (rounds : Nat) (conn : TcpConnState)
    (m : ServerManager X BUF Q A) : TcpConnState × ServerManager X BUF Q A :=
  let (failed, writer) := conn.flush
  let conn := { conn with toWriter := writer }
  let (conn, m) := conn.fail_if failed .WriteError m
  if conn.write_offset < conn.pending_write.length then (conn, m)
  else pull alloc rounds { conn with toWriter := conn.clear } m

/-- A step of every connection, one after the other. -/
def each (step : TcpConnState → ServerManager X BUF Q A → TcpConnState × ServerManager X BUF Q A) :
    List TcpConnState → ServerManager X BUF Q A → List TcpConnState × ServerManager X BUF Q A
  | [], m => ([], m)
  | conn :: rest, m =>
    let (conn, m) := step conn m
    let (rest, m) := each step rest m
    (conn :: rest, m)

/-! ## The runner -/

structure ServerRunner (X : Primitives) (BUF : Nat) (Q A : Type) where
  manager : ServerManager X BUF Q A
  tcp_conns : List TcpConnState
  closing : List ClosingConn
  /-- The closed connections whose streams were dropped, to keep account. -/
  dropped : List ClosingConn

def ServerRunner.new (manager : ServerManager X BUF Q A) : ServerRunner X BUF Q A where
  manager := manager
  tcp_conns := []
  closing := []
  dropped := []

/-- What a poll finds around it. -/
structure Poll (A P : Type) where
  now : Nat
  /-- A stream on the TLS listener, with what is drawn for its connection. -/
  tls : Option (Answers × Bytes × Bytes)
  /-- A stream on the cleartext listener. -/
  cleartext : Option Answers
  /-- Whether there is memory for what a connection has to keep. -/
  alloc : TcpConnState → Nat → Bool
  /-- How often output is pulled for a connection. The code goes on until there is none. -/
  rounds : Nat
  /-- What the datagrams and the timers of steps 4 to 6 come to for the manager. -/
  udp : List (Op A P)

namespace ServerRunner

/-- Step 0. -/
def finish_closing (now : Nat) (r : ServerRunner X BUF Q A) : ServerRunner X BUF Q A :=
  let finished := r.closing.map (ClosingConn.finish now)
  { r with
    closing := (finished.filter (·.1)).map Prod.snd
    dropped := r.dropped ++ (finished.filter (!·.1)).map Prod.snd }

/-- A stream that was accepted, if the manager has room for it. -/
def accepted (answers : Answers) (r : ServerRunner X BUF Q A) :
    Except Error Nat × ServerManager X BUF Q A → ServerRunner X BUF Q A
  | (.ok id, manager) => { r with manager, tcp_conns := r.tcp_conns ++ [.new id answers] }
  | (.error _, manager) => { r with manager }

/-- Step 1, for the TLS listener. A kit that is too short is a panic. -/
def accept_tls (p : Poll A P) (r : ServerRunner X BUF Q A) : Option (ServerRunner X BUF Q A) :=
  match p.tls with
  | none => some r
  | some (answers, secret, random) =>
    (r.manager.accept_tcp secret random p.now).map (r.accepted answers)

/-- Step 1, for the cleartext listener. -/
def accept_cleartext (p : Poll A P) (r : ServerRunner X BUF Q A) : ServerRunner X BUF Q A :=
  match p.cleartext with
  | none => r
  | some answers => r.accepted answers (r.manager.accept_tcp_cleartext p.now)

/-- A step of all TCP connections. -/
def on_conns (step : TcpConnState → ServerManager X BUF Q A → TcpConnState × ServerManager X BUF Q A)
    (r : ServerRunner X BUF Q A) : ServerRunner X BUF Q A :=
  let (tcp_conns, manager) := each step r.tcp_conns r.manager
  { r with tcp_conns, manager }

/-- Step 7, for an event of the manager. A connection that it has closed lingers until its stream has
taken its output. -/
def hand_over (now : Nat) (event : ServerEvent) (r : ServerRunner X BUF Q A) :
    ServerRunner X BUF Q A :=
  match event with
  | .Closed id =>
    match r.tcp_conns.findIdx? (·.id == id) with
    | none => r
    | some pos =>
      match r.tcp_conns[pos]? with
      | none => r
      | some conn =>
        { r with
          tcp_conns := (r.tcp_conns.set pos (r.tcp_conns.getLastD conn)).dropLast
          closing := r.closing ++ [{ conn with started := now, aborted := false }] }
  | _ => r

/-- One poll, which may have an event, or panics. -/
def poll_event (p : Poll A P) (r : ServerRunner X BUF Q A) :
    Option (Option ServerEvent × ServerRunner X BUF Q A) := do
  let r ← (r.finish_closing p.now).accept_tls p
  let r := ((r.accept_cleartext p).on_conns (read_conn p.now)).on_conns (write_conn p.alloc p.rounds)
  match (p.udp.foldl (fun m op => op.apply m) r.manager).poll_event 2048 with
  | (some event, manager) => pure (some event, { r with manager }.hand_over p.now event)
  | (none, manager) => pure (none, { r with manager })

end ServerRunner

/-- A poll, or a call of the application on the manager. -/
inductive Step (A P : Type) where
  | poll (p : Poll A P)
  | call (op : Op A P)

/-- Nothing is done after a panic. -/
def Step.apply : Step A P → ServerRunner X BUF Q A → ServerRunner X BUF Q A
  | .poll p, r => ((r.poll_event p).map Prod.snd).getD r
  | .call op, r => { r with manager := op.apply r.manager }

end Steps

/-! ## The law -/

/-- What the stream has taken and what is left to write are what the manager has handed out. -/
def Writer.Exact (w : Writer) : Prop :=
  w.lost = true ∨ w.stream.accepted ++ w.pending_write.drop w.write_offset = w.pulled

/-- They are the beginning of what the manager has handed out. -/
def Writer.Ordered (w : Writer) : Prop :=
  w.lost = true ∨ w.stream.accepted ++ w.pending_write.drop w.write_offset <+: w.pulled

/-- The stream has taken everything, or it has failed or was given up. -/
def ClosingConn.Settled (c : ClosingConn) : Prop :=
  c.lost = true ∨ c.aborted = true ∨ c.stream.failed = true ∨ c.stream.accepted = c.pulled

/-- All output is accounted for: of connections that are open, of those that linger and of those whose
streams were dropped. -/
structure Accounted (r : ServerRunner X BUF Q A) : Prop where
  conns : ∀ conn ∈ r.tcp_conns, conn.Exact
  closing : ∀ c ∈ r.closing, c.Ordered ∧ (c.aborted = true ∨ c.Exact)
  dropped : ∀ c ∈ r.dropped, c.Ordered ∧ c.Settled

/-! ## Writing -/

theorem write_loop_moves (data : Bytes) (writes : List Write) (written : Nat) (s : TcpStream) :
    let r := write_loop data writes written s
    r.2.2.accepted ++ data.drop r.2.1 = s.accepted ++ data.drop written ∧
      (r.1 = true → r.2.2.failed = true) := by
  induction writes generalizing written s with
  | nil => exact ⟨rfl, by rintro ⟨⟩⟩
  | cons answer writes ih =>
    unfold write_loop
    split
    · exact ⟨rfl, by rintro ⟨⟩⟩
    · cases answer with
      | Ready more =>
        obtain ⟨hmoved, hfailed⟩ := ih (written + min (more + 1) (data.length - written))
          { s with accepted := s.accepted ++
              (data.drop written).take (min (more + 1) (data.length - written)) }
        refine ⟨hmoved.trans ?_, hfailed⟩
        rw [List.append_assoc, ← List.drop_drop, List.take_append_drop]
      | Error => exact ⟨rfl, fun _ => rfl⟩
      | Pending => exact ⟨rfl, by rintro ⟨⟩⟩

theorem write_moves (data : Bytes) (written : Nat) (s : TcpStream) :
    (s.write data written).2.2.accepted ++ data.drop (s.write data written).2.1 =
      s.accepted ++ data.drop written :=
  (write_loop_moves data s.writes written s).1

theorem write_fails {data : Bytes} {written : Nat} {s : TcpStream}
    (h : (s.write data written).1 = true) : (s.write data written).2.2.failed = true :=
  (write_loop_moves data s.writes written s).2 h

variable {w : Writer} {c : ClosingConn} {conn : TcpConnState}

theorem Writer.Exact.ordered (h : w.Exact) : w.Ordered :=
  h.imp_right fun h => by rw [h]

theorem Writer.Exact.flush (h : w.Exact) : w.flush.2.Exact :=
  h.imp_right fun h => (write_moves w.pending_write w.write_offset w.stream).trans h

theorem Writer.Ordered.flush (h : w.Ordered) : w.flush.2.Ordered :=
  h.imp_right fun h => by rwa [← write_moves w.pending_write w.write_offset w.stream] at h

theorem Writer.Ordered.cleared (h : w.Ordered) : w.clear.Ordered :=
  h.imp_right fun h => by
    rw [Writer.clear, List.drop_nil, List.append_nil]
    exact (List.prefix_append _ _).trans h

/-- What is written to its end is taken. -/
theorem Writer.Exact.all (h : w.Exact) (hdone : ¬w.write_offset < w.pending_write.length) :
    w.lost = true ∨ w.stream.accepted = w.pulled := by
  refine h.imp_right fun h => ?_
  rwa [List.drop_of_length_le (Nat.not_lt.mp hdone), List.append_nil] at h

/-! ## Connections that linger -/

theorem shut_down_keeps (now : Nat) (hordered : c.Ordered)
    (h : c.aborted = true ∨ c.Exact ∧ ¬c.write_offset < c.pending_write.length) :
    let c' := (c.shut_down now).2
    c'.Ordered ∧ (c'.aborted = true ∨ c'.Exact) ∧ c'.Settled := by
  have hexact : c.aborted = true ∨ c.Exact := h.imp_right And.left
  have hsettled : c.Settled := by
    rcases h with h | ⟨h, hdone⟩
    · exact .inr (.inl h)
    · exact (h.all hdone).imp_right fun h => .inr (.inr h)
  unfold ClosingConn.shut_down
  dsimp only
  split_ifs
  · exact ⟨hordered, hexact, hsettled⟩
  · exact ⟨hordered, hexact, hsettled⟩
  · exact ⟨hordered, hexact, hsettled⟩
  · exact ⟨hordered, hexact, hsettled⟩
  · exact ⟨hordered, .inl rfl, .inr (.inl rfl)⟩

theorem finish_keeps (now : Nat) (hordered : c.Ordered) (h : c.aborted = true ∨ c.Exact) :
    let (lingers, c') := c.finish now
    c'.Ordered ∧ (lingers = true → c'.aborted = true ∨ c'.Exact) ∧
      (lingers = false → c'.Settled) := by
  have hordered' := hordered.flush
  have hexact' : c.aborted = true ∨ c.flush.2.Exact := h.imp_right Writer.Exact.flush
  unfold ClosingConn.finish
  rcases hflush : c.flush with ⟨failed, w⟩
  rw [hflush] at hordered' hexact'
  dsimp only at hordered' hexact' ⊢
  split
  · next hfailed =>
    have hstream : w.stream.failed = true := by
      have hw : w = c.flush.2 := by rw [hflush]
      rw [hw]
      refine write_fails (Eq.trans ?_ hfailed)
      exact congrArg Prod.fst hflush
    exact ⟨hordered', by rintro ⟨⟩, fun _ => .inr (.inr (.inl hstream))⟩
  split
  · split
    · exact ⟨hordered', fun _ => hexact', by rintro ⟨⟩⟩
    · -- The peer does not take it.
      obtain ⟨h₁, h₂, h₃⟩ := shut_down_keeps (c := { w.clear with aborted := true, started := now })
        now hordered'.cleared (.inl rfl)
      exact ⟨h₁, fun _ => h₂, fun _ => h₃⟩
  · next hdone =>
    obtain ⟨h₁, h₂, h₃⟩ := shut_down_keeps (c := { c with toWriter := w }) now hordered' (by
      cases hab : c.aborted with
      | true => exact .inl rfl
      | false =>
        refine .inr ⟨hexact'.resolve_left (by simp [hab]), fun hlt => hdone ⟨hlt, hab⟩⟩)
    exact ⟨h₁, fun _ => h₂, fun _ => h₃⟩

/-! ## Connections that open and close -/

variable {r : ServerRunner X BUF Q A}

theorem finish_closing_accounts (now : Nat) (h : Accounted r) : Accounted (r.finish_closing now) := by
  have hkept : ∀ x ∈ r.closing.map (ClosingConn.finish now), x.2.Ordered ∧
      (x.1 = true → x.2.aborted = true ∨ x.2.Exact) ∧ (x.1 = false → x.2.Settled) :=
    List.forall_mem_map.mpr fun c hc => finish_keeps now (h.closing c hc).1 (h.closing c hc).2
  refine ⟨h.conns, List.forall_mem_map.mpr fun x hx => ?_,
    List.forall_mem_append.mpr ⟨h.dropped, List.forall_mem_map.mpr fun x hx => ?_⟩⟩
  · obtain ⟨hx, hlingers⟩ := List.mem_filter.mp hx
    exact ⟨(hkept x hx).1, (hkept x hx).2.1 hlingers⟩
  · obtain ⟨hx, hleft⟩ := List.mem_filter.mp hx
    exact ⟨(hkept x hx).1, (hkept x hx).2.2 ((Bool.not_eq_true' _).mp hleft)⟩

theorem accepted_accounts (answers : Answers) (found : Except Error Nat × ServerManager X BUF Q A)
    (h : Accounted r) : Accounted (r.accepted answers found) := by
  unfold ServerRunner.accepted
  split
  · exact ⟨List.forall_mem_append.mpr ⟨h.conns, List.forall_mem_singleton.mpr (.inr rfl)⟩,
      h.closing, h.dropped⟩
  · exact ⟨h.conns, h.closing, h.dropped⟩

theorem accept_tls_accounts {p : Poll A P} {r' : ServerRunner X BUF Q A} (h : Accounted r)
    (hrun : r.accept_tls p = some r') : Accounted r' := by
  unfold ServerRunner.accept_tls at hrun
  split at hrun
  · cases hrun
    exact h
  · obtain ⟨found, -, rfl⟩ := Option.map_eq_some_iff.mp hrun
    exact accepted_accounts _ found h

theorem accept_cleartext_accounts (p : Poll A P) (h : Accounted r) : Accounted (r.accept_cleartext p) := by
  unfold ServerRunner.accept_cleartext
  split
  · exact h
  · exact accepted_accounts _ _ h

theorem hand_over_accounts (now : Nat) (event : ServerEvent) (h : Accounted r) :
    Accounted (r.hand_over now event) := by
  unfold ServerRunner.hand_over
  split
  · split
    · exact h
    · split
      · exact h
      · next pos _ conn hconn =>
        have hexact := h.conns conn (List.mem_of_getElem? hconn)
        refine ⟨fun other hother => ?_, List.forall_mem_append.mpr ⟨h.closing,
          List.forall_mem_singleton.mpr ⟨hexact.ordered, .inr hexact⟩⟩, h.dropped⟩
        rcases List.mem_or_eq_of_mem_set (List.dropLast_subset _ hother) with hmem | rfl
        · exact h.conns other hmem
        · rcases List.mem_cons.mp List.getLastD_mem_cons with heq | hmem
          · exact heq ▸ hexact
          · exact h.conns _ hmem
  · exact h

theorem each_keeps
    {step : TcpConnState → ServerManager X BUF Q A → TcpConnState × ServerManager X BUF Q A}
    (hstep : ∀ conn m, conn.Exact → (step conn m).1.Exact) {conns : List TcpConnState}
    (h : ∀ conn ∈ conns, conn.Exact) (m : ServerManager X BUF Q A) :
    ∀ conn ∈ (each step conns m).1, conn.Exact := by
  induction conns generalizing m with
  | nil => exact h
  | cons conn rest ih =>
    obtain ⟨hconn, hrest⟩ := List.forall_mem_cons.mp h
    exact List.forall_mem_cons.mpr ⟨hstep conn m hconn, ih hrest _⟩

theorem on_conns_accounts
    {step : TcpConnState → ServerManager X BUF Q A → TcpConnState × ServerManager X BUF Q A}
    (hstep : ∀ conn m, conn.Exact → (step conn m).1.Exact) (h : Accounted r) :
    Accounted (r.on_conns step) :=
  ⟨each_keeps hstep h.conns r.manager, h.closing, h.dropped⟩

/-! ## Open connections -/

section Steps

variable [H3Server Q P]

theorem reads_keep (now n : Nat) (m : ServerManager X BUF Q A) (h : conn.Exact) :
    (reads now n conn m).1.Exact := by
  induction n generalizing conn m with
  | zero => exact h
  | succ n ih =>
    have hread : ({ conn with stream := (conn.stream.poll_read 1500).2 } : TcpConnState).Exact := by
      unfold TcpStream.poll_read
      split <;> exact h
    rw [reads]
    dsimp only
    split
    · exact hread
    · exact hread
    · exact hread
    · split
      · exact hread
      · exact ih _ hread

theorem read_conn_keeps (now : Nat) (m : ServerManager X BUF Q A) (h : conn.Exact) :
    (read_conn now conn m).1.Exact := by
  unfold read_conn
  split
  · exact h
  split
  · split <;> exact h
  · exact reads_keep now _ m h

/-- What is pulled is written, or kept behind nothing. -/
theorem pull_keeps (alloc : TcpConnState → Nat → Bool) (rounds : Nat) (m : ServerManager X BUF Q A)
    (h : conn.Exact) (hpending : conn.pending_write = []) (hoffset : conn.write_offset = 0) :
    (pull alloc rounds conn m).1.Exact := by
  induction rounds generalizing conn m with
  | zero => exact h
  | succ rounds ih =>
    rw [pull]
    split
    · exact h
    split
    · exact h
    · next data m' _ =>
      have hmoves := write_moves data 0 conn.stream
      rcases hwrite : conn.stream.write data 0 with ⟨failed, written, stream⟩
      rw [hwrite] at hmoves
      have htaken : conn.lost = true ∨
          stream.accepted ++ data.drop written = conn.pulled ++ data := by
        refine h.imp_right fun h => hmoves.trans ?_
        rw [← h, hpending, List.drop_nil, List.append_nil, List.drop_zero]
      dsimp only [TcpConnState.fail_if]
      split
      · split
        · refine htaken.imp_right fun h => ?_
          rw [hpending, List.nil_append, List.drop_zero]
          exact h
        · exact .inl rfl
      · next hdone =>
        refine ih _ (htaken.imp_right fun h => ?_) hpending hoffset
        rw [hpending, List.drop_nil]
        rwa [List.drop_of_length_le (Nat.not_lt.mp hdone)] at h

theorem write_conn_keeps (alloc : TcpConnState → Nat → Bool) (rounds : Nat)
    (m : ServerManager X BUF Q A) (h : conn.Exact) : (write_conn alloc rounds conn m).1.Exact := by
  have hflush := h.flush
  unfold write_conn
  rcases hw : conn.flush with ⟨failed, w⟩
  rw [hw] at hflush
  dsimp only [TcpConnState.fail_if] at hflush ⊢
  split
  · exact hflush
  · next hdone =>
    refine pull_keeps alloc rounds _ ?_ rfl rfl
    refine (hflush.all hdone).imp_right fun h => ?_
    rw [Writer.clear, List.drop_nil, List.append_nil]
    exact h

/-! ## Polls -/

theorem poll_event_accounts {p : Poll A P} {event : Option ServerEvent} {r' : ServerRunner X BUF Q A}
    (h : Accounted r) (hrun : r.poll_event p = some (event, r')) : Accounted r' := by
  obtain ⟨r₁, h₁, hrun⟩ := Option.bind_eq_some_iff.mp hrun
  have hr₂ := on_conns_accounts (fun _ => write_conn_keeps p.alloc p.rounds)
    (on_conns_accounts (fun _ => read_conn_keeps p.now)
      (accept_cleartext_accounts p (accept_tls_accounts (finish_closing_accounts p.now h) h₁)))
  set r₂ := ((r₁.accept_cleartext p).on_conns (read_conn p.now)).on_conns _
  have hmanager (manager : ServerManager X BUF Q A) : Accounted { r₂ with manager } :=
    ⟨hr₂.conns, hr₂.closing, hr₂.dropped⟩
  dsimp only at hrun
  split at hrun
  · cases hrun
    exact hand_over_accounts p.now _ (hmanager _)
  · cases hrun
    exact hmanager _

theorem step_accounts (step : Step A P) (h : Accounted r) : Accounted (step.apply r) := by
  cases step with
  | call op => exact ⟨h.conns, h.closing, h.dropped⟩
  | poll p =>
    cases hrun : r.poll_event p with
    | none =>
      have happly : (Step.poll p).apply r = r := by simp only [Step.apply, hrun]; rfl
      rwa [happly]
    | some out =>
      have happly : (Step.poll p).apply r = out.2 := by simp only [Step.apply, hrun]; rfl
      exact happly ▸ poll_event_accounts h hrun

end Steps

end milli_http.runner
