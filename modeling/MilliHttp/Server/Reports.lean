-- Every connection of the manager is reported closed exactly once, in every run in which the queue
-- of events does not overflow with such a report at its head.
import MilliHttp.Server.Ledger
import MilliHttp.Standin

open bytes method

namespace milli_http.manager

open crypto tls transport connection stranding ServerManager

variable {X : Primitives} {BUF : Nat} {Q A P : Type} [H3Server Q P]

/-! ## What a full queue loses -/

/-- The events a bounded queue loses when others are appended. -/
def overflow (max_events : Nat) (events pushed : List ServerEvent) : List ServerEvent :=
  (events ++ pushed).take
    ((events ++ pushed).length - (pushed.foldl (push max_events) events).length)

theorem push_suffix (max_events : Nat) (events : List ServerEvent) (event : ServerEvent) :
    push max_events events event <:+ events ++ [event] := by
  unfold push
  split
  · rw [List.suffix_append_self_iff]
    exact List.tail_suffix events
  · exact List.suffix_refl _

theorem foldl_push_suffix (max_events : Nat) (events pushed : List ServerEvent) :
    pushed.foldl (push max_events) events <:+ events ++ pushed := by
  induction pushed generalizing events with
  | nil => simp
  | cons event rest ih =>
    have hrest : push max_events events event ++ rest <:+ events ++ [event] ++ rest :=
      List.suffix_append_self_iff.mpr (push_suffix max_events events event)
    rw [List.append_assoc] at hrest
    exact (ih _).trans hrest

/-- What is appended to a queue is lost or there, and so is what was there. -/
theorem overflow_append (max_events : Nat) (events pushed : List ServerEvent) :
    overflow max_events events pushed ++ pushed.foldl (push max_events) events = events ++ pushed :=
  List.suffix_iff_eq_append.mp (foldl_push_suffix max_events events pushed)

/-- The events that a call makes the queue lose. -/
def lost (a : Op A P) (m : ServerManager X BUF Q A) : List ServerEvent :=
  overflow m.config.max_events (exchange a m).events (pushes a m)

/-! ## Reports -/

theorem closed_ids_append (events events' : List ServerEvent) :
    closed_ids (events ++ events') = closed_ids events ++ closed_ids events' :=
  List.filterMap_append

theorem closed_ids_closed (entries : List Entry) :
    closed_ids (entries.map fun entry => .Closed entry.1) = entries.map Prod.fst := by
  induction entries with
  | nil => rfl
  | cons entry rest ih => exact congrArg _ ih

theorem closed_ids_map {α : Type} (event : α → ServerEvent) (h : ∀ x, closed_ids [event x] = [])
    (l : List α) : closed_ids (l.map event) = [] := by
  induction l with
  | nil => rfl
  | cons x rest ih =>
    have hcons := closed_ids_append [event x] (rest.map event)
    rw [h, ih] at hcons
    exact hcons

theorem closed_ids_announces (a : Op A P) (m : ServerManager X BUF Q A) :
    closed_ids (announces a m) = [] := by
  cases a with
  | accept_tcp_cleartext now => exact closed_ids_map (fun entry : Entry => .Connected entry.1) (fun _ => rfl) _
  | tcp_feed id data now =>
    simp only [announces]
    split <;> rfl
  | tcp_eof id => exact closed_ids_map (.Http id) (fun _ => rfl) _
  | _ => rfl

/-- Of the events that a call queues, just those about the connections it closes say so. -/
theorem closed_ids_pushes (a : Op A P) (m : ServerManager X BUF Q A) :
    closed_ids (pushes a m) = (closes a m).map Prod.fst := by
  rw [pushes, closed_ids_append, closed_ids_closed, closed_ids_announces, List.nil_append]

theorem closed_ids_poll_quic (scratch_len : Nat) (conns : List (QuicConn Q A)) :
    closed_ids (poll_quic scratch_len conns).1.toList = [] := by
  induction conns with
  | nil => rfl
  | cons qconn rest ih =>
    rw [poll_quic]
    split
    · rfl
    · exact ih

/-- A report that was queued is returned or stays, and one that was not is returned at once. -/
theorem closed_ids_returned (a : Op A P) (m : ServerManager X BUF Q A) :
    closed_ids m.events ++ (closes_itself a m).map Prod.fst =
      closed_ids (returned a m).toList ++ closed_ids (exchange a m).events := by
  cases a with
  | poll_event scratch_len =>
    rcases hevents : m.events with _ | ⟨event, events⟩
    · have hquic := closed_ids_poll_quic scratch_len m.quic_conns
      rcases hpolled : poll_tcp m.tcp_conns with ⟨⟨conn, event⟩ | ⟨id, kit⟩ | _, conns⟩
      · simp [closes_itself, returned, exchange, poll_event, hevents, hpolled, Polled.closes, closed_ids]
      · simp [closes_itself, returned, exchange, poll_event, hevents, hpolled, Polled.closes, closed_ids]
      · rcases hq : poll_quic scratch_len m.quic_conns with ⟨_ | event, quic_conns⟩
        · simp [closes_itself, returned, exchange, poll_event, hevents, hpolled, Polled.closes,
            closed_ids, hq]
        · rw [hq] at hquic
          simp only [closes_itself, returned, exchange, poll_event, hevents, hpolled, Polled.closes, hq]
          simpa [closed_ids] using hquic
    · have hcons := closed_ids_append [event] events
      simpa [closes_itself, returned, exchange, poll_event, hevents] using hcons
  | _ => exact List.append_nil _

/-! ## Whole runs -/

/-- The calls of a run so far, each with the manager it was made on. -/
abbrev History (X : Primitives) (BUF : Nat) (Q A P : Type) := List (ServerManager X BUF Q A × Op A P)

/-- The ids of the connections that were opened. -/
def created (calls : History X BUF Q A P) : List Nat :=
  calls.flatMap fun call => (opened call.2 call.1).map Prod.fst

/-- The ids of the connections that `poll_event` has said are closed. -/
def reported (calls : History X BUF Q A P) : List Nat :=
  closed_ids (calls.filterMap fun call => returned call.2 call.1)

/-- Every connection that was opened is open, or it was reported closed, or its report is queued:
one of these, and once. -/
def ReportedOnce (calls : History X BUF Q A P) (m : ServerManager X BUF Q A) : Prop :=
  (created calls).Perm (m.live.map Prod.fst ++ reported calls ++ closed_ids m.events)

instance (calls : History X BUF Q A P) (m : ServerManager X BUF Q A) :
    Decidable (ReportedOnce calls m) := inferInstanceAs (Decidable (List.Perm _ _))

/-- No event that a call makes the queue lose is about a closed connection. -/
def LosesNoReport (m : ServerManager X BUF Q A) (a : Op A P) : Prop := closed_ids (lost a m) = []

instance (m : ServerManager X BUF Q A) (a : Op A P) : Decidable (LosesNoReport m a) :=
  inferInstanceAs (Decidable (_ = _))

/-- How a call moves ids between the connections that are open and the reports. -/
theorem count_apply (a : Op A P) (m : ServerManager X BUF Q A) (k : Nat) :
    (m.live.map Prod.fst).count k + (closed_ids m.events).count k +
        ((opened a m).map Prod.fst).count k =
      ((a.apply m).live.map Prod.fst).count k + (closed_ids (a.apply m).events).count k +
        (closed_ids (returned a m).toList).count k + (closed_ids (lost a m)).count k := by
  have hmoves := moves_apply a m
  have hlive : (exchange a m).live = m.live := by cases a <;> rfl
  have hconfig : (exchange a m).config = m.config := by cases a <;> rfl
  have hopen := (hmoves.live.map Prod.fst).count_eq k
  have hqueue := congrArg (fun events => (closed_ids events).count k)
    (overflow_append m.config.max_events (exchange a m).events (pushes a m))
  have hreturned := congrArg (List.count k) (closed_ids_returned a m)
  have hevents := hmoves.events
  rw [hconfig] at hevents
  rw [hlive] at hopen
  simp only [List.map_append, List.count_append] at hopen hreturned
  simp only [closed_ids_append, List.count_append, closed_ids_pushes, ← hevents] at hqueue
  have hlost : (closed_ids (overflow m.config.max_events (exchange a m).events (pushes a m))).count k =
      (closed_ids (lost a m)).count k := rfl
  omega

theorem created_append (calls calls' : History X BUF Q A P) :
    created (calls ++ calls') = created calls ++ created calls' := List.flatMap_append

theorem reported_append (calls calls' : History X BUF Q A P) :
    reported (calls ++ calls') = reported calls ++ reported calls' := by
  rw [reported, List.filterMap_append, closed_ids_append]
  rfl

/-- The ids of the connections whose reports were lost. -/
def lost_reports (calls : History X BUF Q A P) : List Nat :=
  calls.flatMap fun call => closed_ids (lost call.2 call.1)

/-- From a manager without connections and events, every connection that was opened is open,
reported, to be reported, or its report was lost. -/
theorem balance {m : ServerManager X BUF Q A} (hlive : m.live = []) (hevents : m.events = [])
    (ops : List (Op A P)) (k : Nat) :
    (created (run.trace Op.apply m ops)).count k =
      ((run.final Op.apply m ops).live.map Prod.fst).count k +
        (reported (run.trace Op.apply m ops)).count k +
        (closed_ids (run.final Op.apply m ops).events).count k +
        (lost_reports (run.trace Op.apply m ops)).count k := by
  have hok : run.Along Op.apply (fun _ _ => True) m ops := fun _ _ => trivial
  refine run.history (fun calls m => (created calls).count k = (m.live.map Prod.fst).count k +
    (reported calls).count k + (closed_ids m.events).count k + (lost_reports calls).count k)
    (fun calls m a _ ih => ?_) hok (by rw [hlive, hevents]; rfl)
  have hcall := count_apply a m k
  have hcreated : created [(m, a)] = (opened a m).map Prod.fst := List.append_nil _
  have hreported : reported [(m, a)] = closed_ids (returned a m).toList := by
    simp only [reported, List.filterMap_cons, List.filterMap_nil]
    cases returned a m <;> rfl
  have hlost : lost_reports (calls ++ [(m, a)]) = lost_reports calls ++ closed_ids (lost a m) := by
    simp [lost_reports]
  rw [created_append, reported_append, hlost, hcreated, hreported]
  simp only [List.count_append]
  omega

/-- Reports are in order exactly as long as none was lost. -/
theorem reported_once_iff_none_lost {m : ServerManager X BUF Q A} (hlive : m.live = [])
    (hevents : m.events = []) (ops : List (Op A P)) :
    ReportedOnce (run.trace Op.apply m ops) (run.final Op.apply m ops) ↔
      lost_reports (run.trace Op.apply m ops) = [] := by
  have hbalance := balance hlive hevents ops
  constructor
  · intro h
    have hnone (k : Nat) : (lost_reports (run.trace Op.apply m ops)).count k = 0 := by
      have hk := h.count_eq k
      have hb := hbalance k
      simp only [List.count_append] at hk
      omega
    exact List.eq_nil_iff_forall_not_mem.mpr fun k => List.count_eq_zero.mp (hnone k)
  · intro h
    refine List.perm_iff_count.mpr fun k => ?_
    have hb := hbalance k
    rw [h, List.count_nil] at hb
    simp only [List.count_append]
    omega

theorem none_lost_iff_along (m : ServerManager X BUF Q A) (ops : List (Op A P)) :
    lost_reports (run.trace Op.apply m ops) = [] ↔ run.Along Op.apply LosesNoReport m ops :=
  List.flatMap_eq_nil_iff

/-- In every run of a new manager, whatever the size of its queue: every connection that was opened
is open or reported closed, and reported once, exactly if no call makes the full queue lose a
report. -/
theorem every_close_is_reported_once_iff (config : ServerConfig) (tls_config : ServerTlsConfig)
    (ops : List (Op A P)) :
    let m : ServerManager X BUF Q A := .new tls_config config
    run.Always Op.apply ReportedOnce m ops ↔ run.Along Op.apply LosesNoReport m ops := by
  intro m
  constructor
  · intro h
    have hall := h ops (List.prefix_refl ops)
    exact (none_lost_iff_along m ops).mp ((reported_once_iff_none_lost rfl rfl ops).mp hall)
  · intro h pre hpre
    exact (reported_once_iff_none_lost rfl rfl pre).mpr
      ((none_lost_iff_along m pre).mpr (h.upto hpre))

/-! ## A report that is lost -/

/-- Without a free slot in the handshake pool there are no QUIC connections. -/
instance : H3Server Empty Unit where
  server _ _ _ pool := (.error .HandshakePoolExhausted, pool)
  local_cids := nofun
  recv _ _ _ := nofun
  poll_transmit _ _ := nofun
  release_handshake_slot := nofun
  poll_event _ := nofun
  recv_headers _ := nofun
  recv_body _ _ := nofun
  send_response _ _ _ _ := nofun
  send_body _ _ _ := nofun
  handle_timeout _ := nofun
  close _ _ := nofun
  is_established := nofun
  is_closed := nofun

/-- Room for two connections over TCP, and a queue for one event. -/
def small_config : ServerConfig where
  max_tcp_conns := 2
  max_quic_conns := 0
  max_events := 1
  handshake_timeout_us := 10000000
  http_timeouts := { idle_timeout_us := some 60000000, header_timeout_us := some 10000000 }

def no_certificate : ServerTlsConfig where
  cert_der := []
  private_key_der := []
  alpn_protocols := []
  transport_params := .default_params

/-- Two connections are accepted and closed between two polls: the second report pushes out the
first, and that connection is never reported. -/
theorem a_report_is_pushed_out :
    let m : ServerManager standin.primitives 4096 Empty Unit := .new no_certificate small_config
    let ops : List (Op Unit Unit) := [.accept_tcp_cleartext 0, .accept_tcp_cleartext 0, .close 0, .close 1,
      .poll_event 0, .poll_event 0]
    ¬ ReportedOnce (run.trace Op.apply m ops) (run.final Op.apply m ops) ∧
      reported (run.trace Op.apply m ops) = [1] ∧ (run.final Op.apply m ops).tcp_conns.length = 0 := by
  decide +kernel

end milli_http.manager
