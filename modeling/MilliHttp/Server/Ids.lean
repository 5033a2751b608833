-- Connection ids: live connections have different ones, a new one is not named by a queued event,
-- and a call on one connection leaves the others alone, as long as the counter that ids come from
-- does not come around to one that is in use.
import MilliHttp.Server.Reports

open bytes method

namespace milli_http.manager

open crypto tls transport connection stranding ServerManager

variable {X : Primitives} {BUF : Nat} {Q A P : Type} [H3Server Q P]

/-! ## Ids in use -/

/-- The connection an event is about. -/
def ServerEvent.conn_id : ServerEvent → Nat
  | .Http conn _ => conn
  | .Connected id => id
  | .Closed id => id

/-- The connection a call is addressed to. -/
def Op.addressed : Op A P → Option Nat
  | .tcp_feed id _ _ => some id
  | .tcp_poll_output id _ => some id
  | .recv_headers id _ => some id
  | .recv_body id _ _ => some id
  | .discard_body id _ _ => some id
  | .send_response id _ _ _ _ => some id
  | .send_body id _ _ _ => some id
  | .tcp_eof id => some id
  | .close id => some id
  | _ => none

/-- The manager as it is when a call asks for an id. -/
def at_allotment : Op A P → ServerManager X BUF Q A → ServerManager X BUF Q A
  | .udp_feed _ _ now _ pool, m => (m.make_room now pool).1
  | _, m => m

/-- The ids of the open connections. -/
def ServerManager.live_ids (m : ServerManager X BUF Q A) : List Nat := m.live.map Prod.fst

/-- Entries of other ids are the same. -/
structure OthersKept (id : Nat) (m m' : ServerManager X BUF Q A) : Prop where
  tcp : m'.tcp_conns.filter (·.id != id) = m.tcp_conns.filter (·.id != id)
  quic : m'.quic_conns.filter (·.id != id) = m.quic_conns.filter (·.id != id)

/-- What connections may rely on of their ids. -/
structure Isolated (calls : History X BUF Q A P) (m : ServerManager X BUF Q A) : Prop where
  distinct : m.live_ids.Nodup
  unnamed : ∀ call ∈ calls, ∀ entry ∈ opened call.2 call.1,
    ∀ event ∈ (at_allotment call.2 call.1).events, event.conn_id ≠ entry.1
  others : ∀ call ∈ calls, ∀ id ∈ call.2.addressed, OthersKept id call.1 (call.2.apply call.1)

/-- No open connection has the next id. -/
def NotLive (m : ServerManager X BUF Q A) (a : Op A P) : Prop :=
  opened a m ≠ [] → m.next_id ∉ (at_allotment a m).live_ids

/-- No queued event names the next id. -/
def NotNamed (m : ServerManager X BUF Q A) (a : Op A P) : Prop :=
  opened a m ≠ [] → ∀ event ∈ (at_allotment a m).events, event.conn_id ≠ m.next_id

/-- The counter stands at an id that is not in use when a connection is opened. -/
def IdIsFree (m : ServerManager X BUF Q A) (a : Op A P) : Prop := NotLive m a ∧ NotNamed m a

/-! ## Calls on one connection -/

/-- Just the connection of an id is called, over TCP or over QUIC. -/
structure Touches (id : Nat) (m m' : ServerManager X BUF Q A) : Prop where
  next_id : m'.next_id = m.next_id
  tcp : ∃ f : TcpConn X BUF → TcpConn X BUF, (∀ conn, (f conn).id = conn.id) ∧
    m'.tcp_conns = keyed.modify TcpConn.id id f m.tcp_conns
  quic : ∃ f : QuicConn Q A → QuicConn Q A, (∀ qconn, (f qconn).id = qconn.id) ∧
    m'.quic_conns = keyed.modify QuicConn.id id f m.quic_conns

section Touches

variable {id : Nat} {m m' m'' : ServerManager X BUF Q A}

theorem Touches.others (h : Touches id m m') : OthersKept id m m' := by
  obtain ⟨-, ⟨f, hf, htcp⟩, ⟨g, hg, hquic⟩⟩ := h
  refine ⟨?_, ?_⟩
  · rw [htcp]
    exact keyed.filter_modify hf
  · rw [hquic]
    exact keyed.filter_modify hg

theorem Touches.of_same (h : Touches id m m') (hnext : m''.next_id = m'.next_id)
    (htcp : m''.tcp_conns = m'.tcp_conns) (hquic : m''.quic_conns = m'.quic_conns) :
    Touches id m m'' := by
  obtain ⟨hnext', ⟨f, hf, htcp'⟩, ⟨g, hg, hquic'⟩⟩ := h
  exact ⟨hnext.trans hnext', ⟨f, hf, htcp.trans htcp'⟩, ⟨g, hg, hquic.trans hquic'⟩⟩

theorem touches_refl (id : Nat) (m : ServerManager X BUF Q A) : Touches id m m :=
  ⟨rfl, ⟨fun conn => conn, fun _ => rfl, (keyed.modify_id id).symm⟩, ⟨fun qconn => qconn, fun _ => rfl, (keyed.modify_id id).symm⟩⟩

theorem touches_set_state (state : TcpState X BUF) : Touches id m (m.set_state id state) :=
  ⟨rfl, ⟨fun conn => { conn with state }, fun _ => rfl, rfl⟩, (touches_refl id m).quic⟩

theorem touches_set_server (server : Q) : Touches id m (m.set_server id server) :=
  ⟨rfl, (touches_refl id m).tcp, ⟨fun qconn => { qconn with server }, fun _ => rfl, rfl⟩⟩

theorem Touches.reported (h : Touches id m m') (k : Nat) (reason : CloseReason) :
    Touches id m (m'.report_closed k reason) := by
  refine h.of_same ?_ ?_ ?_ <;>
  · simp only [report_closed, push_server_event, note_close_reason]
    split <;> rfl

theorem Touches.pushed {α : Type} (h : Touches id m m') (event : α → ServerEvent) (l : List α) :
    Touches id m (l.foldl (fun m x => m.push_server_event (event x)) m') := by
  induction l generalizing m' with
  | nil => exact h
  | cons x rest ih => exact ih (h.of_same rfl rfl rfl)

theorem touches_close_tcp (state : TcpState X BUF) : Touches id m (m.close_tcp id state) :=
  (touches_set_state .Closed).of_same rfl rfl rfl

theorem touches_upgrade (parts : TlsParts X BUF) (now : Nat) : Touches id m (m.upgrade id parts now).2 := by
  unfold upgrade
  split
  · refine Touches.reported ?_ _ _
    exact (touches_set_state .Closed).of_same rfl rfl rfl
  · next protocol http halpn =>
    let fed := ((http.set_timeouts m.config.http_timeouts now).tcp_feed_data [] now).2
    exact ⟨rfl, ⟨fun conn => { conn with state := .Established fed, protocol }, fun _ => rfl, rfl⟩,
      (touches_refl id m).quic⟩

theorem touches_tcp_feed (data : Bytes) (now : Nat) : Touches id m (m.tcp_feed id data now).2 := by
  unfold tcp_feed
  split
  · exact touches_refl id m
  · split
    · split
      · exact (touches_close_tcp _).reported _ _
      · split
        · exact touches_upgrade _ now
        · exact touches_set_state _
    · exact touches_set_state _
    · exact touches_refl id m

theorem touches_tcp_poll_output (room : Nat) : Touches id m (m.tcp_poll_output id room).2 := by
  unfold tcp_poll_output
  split
  · exact touches_refl id m
  · split
    · exact touches_set_state _
    · exact touches_set_state _
    · exact touches_refl id m

theorem touches_on_stream {α : Type} (tcp : HttpConn X BUF → α × HttpConn X BUF) (quic : Q → α × Q)
    (otherwise : α) : Touches id m (m.on_stream id tcp quic otherwise).2 := by
  unfold on_stream
  split
  · exact touches_set_state _
  · split
    · exact touches_set_server _
    · exact touches_refl id m

theorem touches_discard_body (stream_id error_code : Nat) :
    Touches id m (m.discard_body id stream_id error_code).2 := by
  unfold discard_body
  split
  · exact touches_set_state _
  · exact touches_refl id m

theorem touches_tcp_eof : Touches id m (m.tcp_eof id) := by
  unfold tcp_eof
  split
  · exact touches_refl id m
  · split
    · exact touches_refl id m
    · exact (touches_close_tcp _).reported _ _
    · exact ((touches_close_tcp _).pushed _ _).reported _ _

theorem touches_close : Touches id m (m.close id).2 := by
  unfold close
  split
  · split
    · exact touches_refl id m
    · exact (touches_close_tcp _).reported _ _
  · split
    · exact touches_set_server _
    · exact touches_refl id m

end Touches

/-- A call on one connection leaves the others alone. -/
theorem touches_apply (a : Op A P) (m : ServerManager X BUF Q A) {id : Nat} (h : a.addressed = some id) :
    Touches id m (a.apply m) := by
  cases a with
  | tcp_feed k data now =>
    cases h
    exact touches_tcp_feed data now
  | tcp_poll_output k room =>
    cases h
    exact touches_tcp_poll_output room
  | recv_headers k stream_id =>
    cases h
    exact touches_on_stream _ _ _
  | recv_body k stream_id room =>
    cases h
    exact touches_on_stream _ _ _
  | discard_body k stream_id error_code =>
    cases h
    exact touches_discard_body stream_id error_code
  | send_response k stream_id status headers end_stream =>
    cases h
    exact touches_on_stream _ _ _
  | send_body k stream_id data end_stream =>
    cases h
    exact touches_on_stream _ _ _
  | tcp_eof k =>
    cases h
    exact touches_tcp_eof
  | close k =>
    cases h
    exact touches_close
  | _ => cases h

/-! ## Opening a connection -/

theorem opened_next (a : Op A P) (m : ServerManager X BUF Q A) :
    opened a m = [] ∨ ∃ kit, opened a m = [(m.next_id, kit)] := by
  cases a with
  | accept_tcp secret random now =>
    simp only [opened, accept_tcp]
    split
    · next h =>
      split at h
      · cases h
      · simp only [alloc_id, take_tls_buffer_kit, Option.map_eq_some_iff, Prod.mk.injEq,
          Except.ok.injEq] at h
        obtain ⟨parts, -, rfl, -⟩ := h
        exact .inr ⟨_, rfl⟩
    · exact .inl rfl
  | accept_tcp_cleartext now =>
    simp only [opened, accept_tcp_cleartext]
    split
    · next h =>
      split at h
      · cases h
      · cases h
        exact .inr ⟨_, rfl⟩
    · exact .inl rfl
  | udp_feed data addr now draws pool =>
    simp only [opened]
    split
    · exact .inr ⟨_, rfl⟩
    · exact .inl rfl
  | _ => exact .inl rfl

theorem live_opened {a : Op A P} {m : ServerManager X BUF Q A} (h : opened a m ≠ []) :
    ((at_allotment a m).live ++ opened a m).Perm (a.apply m).live := by
  have hlive := (moves_apply a m).live
  cases a with
  | udp_feed data addr now draws pool =>
    -- The connections that make room are those the call closes.
    rcases hroute : m.route data with _ | i
    · rcases hfed : m.udp_feed data addr now draws pool with _ | r
      · exact absurd (by simp [opened, hroute, hfed]) h
      · have hroom := (moves_make_room now pool m).live
        simp only [closes, closes_itself, hroute, hfed, Option.isNone_none, Option.isSome_some,
          Bool.true_and, Bool.and_true, List.append_nil] at hlive hroom
        have hboth := (hroom.append_right (opened (.udp_feed data addr now draws pool) m)).symm.trans hlive
        rw [List.append_assoc] at hboth
        exact (List.perm_append_left_iff _).mp hboth
    · exact absurd (by simp [opened, hroute]) h
  | accept_tcp secret random now => exact hlive
  | accept_tcp_cleartext now => exact hlive
  | _ => exact absurd rfl h

theorem distinct_at_allotment {m : ServerManager X BUF Q A} (a : Op A P) (h : m.live_ids.Nodup) :
    (at_allotment a m).live_ids.Nodup := by
  cases a with
  | udp_feed data addr now draws pool =>
    have hroom := ((moves_make_room now pool m).live.map Prod.fst).nodup_iff
    rw [List.append_nil, List.map_append] at hroom
    exact (hroom.mp h).of_append_right
  | _ => exact h

/-- Ids stay distinct exactly if a connection that is opened does not get the id of one that is
open. -/
theorem distinct_apply_iff {m : ServerManager X BUF Q A} (a : Op A P) (h : m.live_ids.Nodup) :
    (a.apply m).live_ids.Nodup ↔ NotLive m a := by
  rcases opened_next a m with hnone | ⟨kit, hopened⟩
  · refine iff_of_true ?_ (fun hsome => absurd hnone hsome)
    have hlive := ((moves_apply a m).live.map Prod.fst).nodup_iff
    have hexchange : (exchange a m).live = m.live := by cases a <;> rfl
    rw [hnone, List.append_nil, hexchange, List.map_append] at hlive
    exact (hlive.mp h).of_append_right
  · have hne : opened a m ≠ [] := by simp [hopened]
    have hlive := (live_opened hne).map Prod.fst
    rw [hopened, List.map_append] at hlive
    have hnodup := (List.perm_append_comm.trans hlive).nodup_iff
    rw [List.map_singleton, List.singleton_append, List.nodup_cons] at hnodup
    rw [live_ids, ← hnodup]
    constructor
    · exact fun hboth _ => hboth.1
    · exact fun hfree => ⟨hfree hne, distinct_at_allotment a h⟩

theorem unnamed_iff (a : Op A P) (m : ServerManager X BUF Q A) :
    (∀ entry ∈ opened a m, ∀ event ∈ (at_allotment a m).events, event.conn_id ≠ entry.1) ↔
      NotNamed m a := by
  rcases opened_next a m with hnone | ⟨kit, hopened⟩
  · simp [NotNamed, hnone]
  · simp [NotNamed, hopened]

/-! ## Whole runs -/

/-- In every run of a new manager: open connections have different ids, no queued event is about
another connection than it was queued for, and calls on one connection leave the others alone,
exactly if whenever a connection is opened the counter stands at an id that is not in use. -/
theorem ids_isolate_connections_iff (config : ServerConfig) (tls_config : ServerTlsConfig)
    (ops : List (Op A P)) :
    let m : ServerManager X BUF Q A := .new tls_config config
    run.Always Op.apply Isolated m ops ↔ run.Along Op.apply IdIsFree m ops := by
  intro m
  have hstart : m.live_ids.Nodup := List.nodup_nil
  have hdistinct : run.Throughout Op.apply (fun m : ServerManager X BUF Q A => m.live_ids.Nodup) m ops ↔
      run.Along Op.apply NotLive m ops :=
    @run.throughout_iff_along _ _ Op.apply _ _ _ (fun _ => True) _ (fun _ _ _ => trivial)
      (fun m a _ h => distinct_apply_iff a h) trivial hstart
  constructor
  · intro h call hcall
    have hlive : run.Throughout Op.apply (fun m : ServerManager X BUF Q A => m.live_ids.Nodup) m ops :=
      fun pre hpre => (h pre hpre).distinct
    have hall := h ops (List.prefix_refl ops)
    exact ⟨hdistinct.mp hlive call hcall, (unnamed_iff call.2 call.1).mp (hall.unnamed call hcall)⟩
  · intro h pre hpre
    have hlive := hdistinct.mpr (h.mono fun _ _ hfree => hfree.1)
    refine ⟨hlive pre hpre, ?_, fun call _ id hid => (touches_apply call.2 call.1 hid).others⟩
    intro call hcall
    exact (unnamed_iff call.2 call.1).mpr (h.upto hpre call hcall).2

/-! ## The counter comes around -/

/-- A datagram that opens no connection because no slot is free, but takes an id. -/
def bounced : Op Unit Unit :=
  .udp_feed [0x40] () 0 { secret_bytes := [], random := [], local_cid := [], initial_dcid := [] } ()

theorem bounced_apply {m : ServerManager standin.primitives 4096 Empty Unit} (hquic : m.quic_conns = [])
    (hroom : 0 < m.config.max_quic_conns) :
    bounced.apply m = { m with next_id := (m.next_id + 1) % 2 ^ 32 } := by
  have hroute : m.route [0x40] = none := by
    rw [route, hquic]
    rfl
  have hfull : m.quic_full = false := by
    rw [quic_full, hquic, decide_eq_false_iff_not]
    exact Nat.not_le.mpr hroom
  simp only [bounced, Op.apply, udp_feed, hroute, make_room, hfull, Bool.false_eq_true, if_false]
  rfl

theorem bounced_many (n : Nat) (m : ServerManager standin.primitives 4096 Empty Unit)
    (hquic : m.quic_conns = []) (hroom : 0 < m.config.max_quic_conns) (hid : m.next_id < 2 ^ 32) :
    run.final Op.apply m (List.replicate n bounced) =
      { m with next_id := (m.next_id + n) % 2 ^ 32 } := by
  induction n generalizing m with
  | zero =>
    rw [Nat.add_zero, Nat.mod_eq_of_lt hid]
    rfl
  | succ n ih =>
    rw [List.replicate_succ, run.final_cons, bounced_apply hquic hroom]
    refine (ih { m with next_id := (m.next_id + 1) % 2 ^ 32 } hquic hroom
      (Nat.mod_lt _ (by decide))).trans ?_
    have hsum : ((m.next_id + 1) % 2 ^ 32 + n) % 2 ^ 32 = (m.next_id + (n + 1)) % 2 ^ 32 := by omega
    simp only [hsum]

/-- Room for two connections over TCP, and for one over QUIC. -/
def two_and_one : ServerManager standin.primitives 4096 Empty Unit :=
  .new no_certificate { small_config with max_quic_conns := 1 }

/-- A connection is accepted, then there are datagrams, then another connection is accepted. -/
def ops_around (n : Nat) : List (Op Unit Unit) :=
  .accept_tcp_cleartext 0 :: List.replicate n bounced ++ [.accept_tcp_cleartext 0]

theorem final_ops_around (n : Nat) :
    run.final Op.apply two_and_one (ops_around n) =
      (Op.accept_tcp_cleartext 0 : Op Unit Unit).apply
        { (Op.accept_tcp_cleartext 0 : Op Unit Unit).apply two_and_one with
          next_id := (1 + n) % 2 ^ 32 } := by
  have hmany := bounced_many n ((Op.accept_tcp_cleartext 0 : Op Unit Unit).apply two_and_one) rfl
    (by decide) (by decide)
  rw [ops_around, run.final_append, run.final_cons, run.final_nil, run.final_cons, hmany]
  rfl

/-- Two connections are accepted, and so many datagrams bounce in between that the counter has come
around: both have the same id. -/
theorem two_connections_have_one_id :
    ¬ run.Always Op.apply Isolated two_and_one (ops_around (2 ^ 32 - 1)) := by
  intro h
  have hdistinct := (h _ (List.prefix_refl _)).distinct
  rw [final_ops_around] at hdistinct
  exact absurd hdistinct (by decide +kernel)

end milli_http.manager
