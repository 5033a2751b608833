-- How the congestion window moves (transport/congestion.rs, and the ACK frames that drive it). It
-- never falls below two datagrams, an ACK opens it by no more than the bytes it acknowledges or
-- halves it, and it is halved again only for a packet sent after the last time.
import MilliHttp.InFlight
import MilliHttp.TimerArithmetic

open bytes method run
open method.Method (bind_run lift_run)

namespace milli_http.connection.congestion_window

open crypto tls transport packet frame connection Connection

variable {B : Build} {c c' : Connection B} {cc : CongestionController} {now : Instant}

/-! ## The law -/

/-- The time a step is taken at, if it reads the clock. -/
def clock : Step → Option Instant
  | .arrive _ now | .dispatch _ now _ => some now
  | .op (.poll_transmit _ now) | .op (.handle_timeout now) => some now
  | _ => none

/-- The clock does not go back. -/
def InOrder (steps : List Step) : Prop := (steps.filterMap clock).Pairwise (· ≤ ·)

instance (steps : List Step) : Decidable (InOrder steps) := inferInstanceAs (Decidable (List.Pairwise ..))

/-- The level, the time and the ranges of an ACK that is processed. -/
def ack_of : Step → Option (Level × Instant × AckFrame × List (Nat × Nat))
  | .dispatch level now (.Ack ack) =>
    match ack_range_pairs ack.ack_ranges.length ack.ack_ranges with
    | .error _ => none
    | .ok ranges => some (level, now, ack, ranges.take 16)
  | _ => none

/-- The bytes a step acknowledges. -/
def acked_size (x : Connection B × Step) : Nat :=
  match ack_of x.2 with
  | none => 0
  | some (level, _, ack, ranges) => ((x.1.sent_tracker.on_ack_received level ack.largest_ack
      ack.first_ack_range ranges).1.newly_acked.map (·.size)).sum

/-- A packet that a step declares lost. -/
def Loses (x : Connection B × Step) (pkt : SentPacket) : Prop :=
  ∃ level now ack ranges, ack_of x.2 = some (level, now, ack, ranges) ∧
    pkt ∈ x.1.sent_tracker.entries ∧ pkt.level = level ∧
    pkt.pn ∈ in_flight.declared_lost level now ack ranges x.1

/-- The window after a step. -/
def next_window (x : Connection B × Step) : Nat := (x.2.apply x.1).congestion.cwnd

/-- A step takes from the window. -/
def Reduces (x : Connection B × Step) : Prop := next_window x < x.1.congestion.cwnd

/-- What a step may do to the window. -/
structure Legal (x : Connection B × Step) : Prop where
  floor : 2400 ≤ next_window x
  opens : next_window x ≤ x.1.congestion.cwnd + acked_size x
  halves : x.1.congestion.cwnd / 2 ≤ next_window x

/-- How the window moves in a run. -/
structure Ruled (trace : List (Connection B × Step)) : Prop where
  legal : ∀ x ∈ trace, Legal x
  once : trace.Pairwise fun x y => Reduces x → Reduces y →
    ∃ t ∈ clock x.2, ∃ pkt, Loses y pkt ∧ t < pkt.time_sent

/-! ## The controller -/

/-- The window is above its least, that of two datagrams. -/
structure Wide (cc : CongestionController) : Prop where
  datagram : cc.max_datagram_size = 1200
  least : cc.minimum_window = 2400
  floor : 2400 ≤ cc.cwnd

/-- An acknowledged packet opens the window by at most its size. -/
theorem on_packet_acked_opens (hwide : Wide cc) (bytes : Nat) (sent_time : Instant) :
    Wide (cc.on_packet_acked bytes sent_time) ∧
      (cc.on_packet_acked bytes sent_time).recovery_start_time = cc.recovery_start_time ∧
      cc.cwnd ≤ (cc.on_packet_acked bytes sent_time).cwnd ∧
      (cc.on_packet_acked bytes sent_time).cwnd ≤ cc.cwnd + bytes := by
  obtain ⟨hdatagram, hleast, hfloor⟩ := hwide
  have hshare : cc.max_datagram_size * bytes / cc.cwnd ≤ bytes := by
    rw [hdatagram]
    exact Nat.div_le_of_le_mul (Nat.mul_le_mul_right bytes (by omega))
  unfold CongestionController.on_packet_acked
  dsimp only [CongestionController.remove_from_flight]
  split
  · exact ⟨⟨hdatagram, hleast, hfloor⟩, rfl, Nat.le_refl _, Nat.le_add_right _ _⟩
  · split
    · exact ⟨⟨hdatagram, hleast, Nat.le_add_right_of_le hfloor⟩, rfl, Nat.le_add_right _ _,
        Nat.le_refl _⟩
    · exact ⟨⟨hdatagram, hleast, Nat.le_add_right_of_le hfloor⟩, rfl, Nat.le_add_right _ _,
        Nat.add_le_add_left hshare _⟩

theorem acked_opens (hwide : Wide cc) (acked : List SentPacket) :
    let cc' := acked.foldl (fun cc pkt => cc.on_packet_acked pkt.size pkt.time_sent) cc
    Wide cc' ∧ cc'.recovery_start_time = cc.recovery_start_time ∧ cc.cwnd ≤ cc'.cwnd ∧
      cc'.cwnd ≤ cc.cwnd + (acked.map (·.size)).sum := by
  induction acked generalizing cc with
  | nil => exact ⟨hwide, rfl, Nat.le_refl _, Nat.le_refl _⟩
  | cons pkt rest ih =>
    obtain ⟨hwide', hstart, hle, hopens⟩ := on_packet_acked_opens hwide pkt.size pkt.time_sent
    obtain ⟨hwide'', hstart', hle', hopens'⟩ := ih hwide'
    dsimp only at hstart' hle' hopens' ⊢
    rw [List.foldl_cons, List.map_cons, List.sum_cons]
    exact ⟨hwide'', hstart'.trans hstart, Nat.le_trans hle hle', by omega⟩

/-- A lost packet halves the window and begins a recovery, or it was sent before the last one. -/
theorem on_packet_lost_halves (hwide : Wide cc) (bytes : Nat) (sent_time now : Instant) :
    let cc' := cc.on_packet_lost bytes sent_time now
    Wide cc' ∧ (cc.in_recovery sent_time = true ∧ cc'.cwnd = cc.cwnd ∧
        cc'.recovery_start_time = cc.recovery_start_time ∨
      cc.in_recovery sent_time = false ∧ cc'.cwnd = max (cc.cwnd / 2) 2400 ∧
        cc'.recovery_start_time = some now) := by
  obtain ⟨hdatagram, hleast, hfloor⟩ := hwide
  unfold CongestionController.on_packet_lost
  dsimp only [CongestionController.remove_from_flight]
  split
  · next hin => exact ⟨⟨hdatagram, hleast, hfloor⟩, .inl ⟨hin, rfl, rfl⟩⟩
  · next hin =>
    rw [hleast]
    exact ⟨⟨hdatagram, rfl, Nat.le_max_right _ _⟩, .inr ⟨Bool.eq_false_iff.mpr hin, rfl, rfl⟩⟩

/-- Lost packets that were sent by now halve the window once: for the first one that was sent
after the last recovery began. -/
theorem remove_lost_halves (level : Level) (now : Instant) (lost : List Nat)
    {s : SentPacketTracker × CongestionController} (hwide : Wide s.2)
    (hpast : ∀ pkt ∈ s.1.entries, pkt.time_sent ≤ now) :
    let s' := remove_lost level now lost s
    Wide s'.2 ∧ s'.1.entries ⊆ s.1.entries ∧
      (s'.2.cwnd = s.2.cwnd ∧ s'.2.recovery_start_time = s.2.recovery_start_time ∨
        s'.2.cwnd = max (s.2.cwnd / 2) 2400 ∧ s'.2.recovery_start_time = some now ∧
          ∃ pkt ∈ s.1.entries, pkt.level = level ∧ pkt.pn ∈ lost ∧
            s.2.in_recovery pkt.time_sent = false) := by
  induction lost generalizing s with
  | nil => exact ⟨hwide, List.Subset.refl _, .inl ⟨rfl, rfl⟩⟩
  | cons pn rest ih =>
    obtain ⟨t, cc⟩ := s
    unfold remove_lost
    rcases t.remove_cases level pn with hnone | ⟨pkt, hlevel, rfl, hsome, hperm⟩
    · rw [hnone]
      obtain ⟨hwide', hsub, hcase⟩ := ih hwide hpast
      refine ⟨hwide', hsub, hcase.imp_right ?_⟩
      rintro ⟨hcut, hstart, pkt, hpkt, hl, hp, hno⟩
      exact ⟨hcut, hstart, pkt, hpkt, hl, List.mem_cons_of_mem _ hp, hno⟩
    · rcases hr : t.remove level pkt.pn with ⟨removed, t'⟩
      rw [hr] at hsome hperm
      dsimp only at hsome hperm hwide
      subst hsome
      have hsub' : t'.entries ⊆ t.entries := fun x hx => hperm.subset (List.mem_cons_of_mem _ hx)
      obtain ⟨hwide', hlost⟩ := on_packet_lost_halves hwide pkt.size pkt.time_sent now
      dsimp only at hwide' hlost ⊢
      generalize cc.on_packet_lost pkt.size pkt.time_sent now = cc' at hwide' hlost ⊢
      obtain ⟨hwide'', hsub, hcase⟩ := ih (s := (t', cc')) hwide' fun x hx => hpast x (hsub' hx)
      refine ⟨hwide'', fun x hx => hsub' (hsub hx), ?_⟩
      dsimp only at hcase
      rcases hlost with ⟨-, hsame, hkept⟩ | ⟨hno, hcut, hstart⟩
      · unfold CongestionController.in_recovery at hcase ⊢
        rw [hsame, hkept] at hcase
        refine hcase.imp_right ?_
        rintro ⟨hcut, hstart, x, hx, hl, hp, hno⟩
        exact ⟨hcut, hstart, x, hsub' hx, hl, List.mem_cons_of_mem _ hp, hno⟩
      · -- Everything else was sent by now, so nothing halves the window again.
        rw [hcut, hstart] at hcase
        refine .inr ?_
        rcases hcase with ⟨hsame, hkept⟩ | ⟨-, -, x, hx, -, -, hrest⟩
        · exact ⟨hsame, hkept, pkt, hperm.subset List.mem_cons_self, hlevel, List.mem_cons_self, hno⟩
        · rw [CongestionController.in_recovery, hstart] at hrest
          exact absurd (hpast x (hsub' hx)) (of_decide_eq_false hrest)

/-! ## The other steps -/

/-- The window stays as it is, and what is sent is sent now. -/
structure Rests (time : Option Instant) (c c' : Connection B) : Prop where
  congestion : { c'.congestion with bytes_in_flight := 0 } = { c.congestion with bytes_in_flight := 0 }
  sent : ∀ pkt ∈ c'.sent_tracker.entries, pkt ∈ c.sent_tracker.entries ∨ time = some pkt.time_sent

instance (time : Option Instant) : IsPreorder (Connection B) (Rests time) where
  refl _ := ⟨rfl, fun _ => .inl⟩
  trans _ _ _ h₁ h₂ := ⟨h₂.congestion.trans h₁.congestion,
    fun pkt hpkt => (h₂.sent pkt hpkt).elim (h₁.sent pkt) .inr⟩

theorem Rests.of_same {time : Option Instant} (h : in_flight.flight_side c' = in_flight.flight_side c) :
    Rests time c c' := by
  simp only [in_flight.flight_side, Prod.mk.injEq] at h
  exact ⟨by rw [h.2], fun pkt hpkt => .inl (h.1 ▸ hpkt)⟩

theorem rests_fields {time : Option Instant} : KeptByFields (B := B) (Rests time) where
  state _ _ _ := .of_same rfl
  events _ _ := .of_same rfl
  remote_cid _ _ := .of_same rfl
  streams _ _ := .of_same rfl
  flow_control _ _ := .of_same rfl
  sio _ _ := .of_same rfl
  path_response _ _ := .of_same rfl
  keys _ _ := .of_same rfl
  slot _ _ := .of_same rfl

theorem rests_transmit (now : Instant) : KeptByTransmitAt (B := B) now (Rests (some now)) where
  toKeptByDrain := .of_fields rests_fields (fun _ => .of_same rfl) (fun _ _ => .of_same rfl)
    (fun _ _ => .of_same rfl) (fun _ _ => .of_same rfl)
  sent_at level size ack_eliciting in_flight c := by
    refine ⟨by cases in_flight <;> rfl, fun pkt hpkt => ?_⟩
    simp only [packet_sent, SentPacketTracker.on_packet_sent] at hpkt
    split at hpkt
    · exact .inl hpkt
    · refine (List.mem_append.mp hpkt).imp_right fun hpkt => ?_
      rw [List.mem_singleton.mp hpkt]
  emitted_at _ _ := .of_same rfl

/-- A step that processes no ACK leaves the window alone. -/
theorem rests_step {s : Step} (hack : ack_of s = none) (c : Connection B) :
    Rests (clock s) c (s.apply c) := by
  by_cases hframe : ∃ level now ack, s = .dispatch level now (.Ack ack)
  · -- An ACK whose ranges do not parse changes nothing.
    obtain ⟨level, now, ack, rfl⟩ := hframe
    have hrun : (Step.dispatch level now (.Ack ack)).apply c = (handle_ack level now ack c).2 := rfl
    rw [hrun, handle_ack, bind_run, lift_run]
    cases hranges : ack_range_pairs ack.ack_ranges.length ack.ack_ranges with
    | error e => exact .of_same rfl
    | ok ranges =>
      rw [ack_of, hranges] at hack
      cases hack
  by_cases htransmit : ∃ buf_len now, s = .op (.poll_transmit buf_len now)
  · obtain ⟨buf_len, now, rfl⟩ := htransmit
    exact (rests_transmit now).poll_transmit buf_len c
  · have hdrops := in_flight.drops_step (fun level now ack heq => hframe ⟨level, now, ack, heq⟩)
      (fun buf_len now heq => htransmit ⟨buf_len, now, heq⟩) c
    obtain ⟨dropped, hperm, -⟩ := hdrops.packets
    exact ⟨by rw [hdrops.congestion],
      fun pkt hpkt => .inl (List.mem_filter.mp (hperm.subset hpkt)).1⟩

/-! ## A step -/

/-- What a step does, if all packets were sent by then. -/
structure Moved (x : Connection B × Step) : Prop extends Legal x where
  wide : Wide (x.2.apply x.1).congestion
  sent : ∀ pkt ∈ (x.2.apply x.1).sent_tracker.entries,
    pkt ∈ x.1.sent_tracker.entries ∨ clock x.2 = some pkt.time_sent
  start : x.1.congestion.cwnd ≤ next_window x ∧
      (x.2.apply x.1).congestion.recovery_start_time = x.1.congestion.recovery_start_time ∨
    ∃ now ∈ clock x.2, (x.2.apply x.1).congestion.recovery_start_time = some now ∧
      ∃ pkt, Loses x pkt ∧ x.1.congestion.in_recovery pkt.time_sent = false

theorem ack_moves {s : Step} {level : Level} {ack : AckFrame} {ranges : List (Nat × Nat)}
    (hack : ack_of s = some (level, now, ack, ranges)) (hwide : Wide c.congestion)
    (hpast : ∀ pkt ∈ c.sent_tracker.entries, ∀ now ∈ clock s, pkt.time_sent ≤ now) :
    Moved (c, s) := by
  obtain ⟨happly, htime⟩ : s.apply c = on_ack level now ack ranges c ∧ clock s = some now := by
    unfold ack_of at hack
    split at hack
    · rename_i level' now' ack'
      have hrun : (Step.dispatch level' now' (.Ack ack')).apply c =
          (handle_ack level' now' ack' c).2 := rfl
      rw [hrun, handle_ack, bind_run, lift_run]
      split at hack
      · cases hack
      · rename_i ranges' hranges
        cases hack
        rw [hranges]
        exact ⟨rfl, rfl⟩
    · cases hack
  have hsub : (in_flight.unacknowledged level ack ranges c.sent_tracker).entries ⊆
      c.sent_tracker.entries := fun pkt hpkt =>
    (List.mem_filter.mp ((in_flight.unacknowledged_perm level ack ranges _).subset hpkt)).1
  obtain ⟨cc, hside, hwide', hstart, hle, hopens⟩ : ∃ cc : CongestionController,
      in_flight.flight_side (s.apply c) = remove_lost level now
        (in_flight.declared_lost level now ack ranges c)
        (in_flight.unacknowledged level ack ranges c.sent_tracker, cc) ∧
      Wide cc ∧ cc.recovery_start_time = c.congestion.recovery_start_time ∧
      c.congestion.cwnd ≤ cc.cwnd ∧ cc.cwnd ≤ c.congestion.cwnd + acked_size (c, s) := by
    rw [happly, acked_size, hack]
    exact ⟨_, rfl, acked_opens hwide _⟩
  have hlost := remove_lost_halves level now (in_flight.declared_lost level now ack ranges c)
    (s := (in_flight.unacknowledged level ack ranges c.sent_tracker, cc)) hwide'
    fun pkt hpkt => hpast pkt (hsub hpkt) now htime
  rw [← hside] at hlost
  obtain ⟨hwide'', hsub', hcase⟩ := hlost
  have hsent : ∀ pkt ∈ (s.apply c).sent_tracker.entries,
      pkt ∈ c.sent_tracker.entries ∨ clock s = some pkt.time_sent :=
    fun pkt hpkt => .inl (hsub (hsub' hpkt))
  have hfloor := hwide.floor
  rcases hcase with ⟨hsame, hkept⟩ | ⟨hcut, hnow, pkt, hpkt, hlevel, hlost, hno⟩
  · have hnext : next_window (c, s) = cc.cwnd := hsame
    exact ⟨⟨by omega, by dsimp only; omega, by dsimp only; omega⟩, hwide'', hsent,
      .inl ⟨by dsimp only; omega, hkept.trans hstart⟩⟩
  · have hnext : next_window (c, s) = max (cc.cwnd / 2) 2400 := hcut
    refine ⟨⟨by omega, by dsimp only; omega, by dsimp only; omega⟩, hwide'', hsent, .inr ⟨now, htime,
      hnow, pkt, ⟨level, now, ack, ranges, hack, hsub hpkt, hlevel, hlost⟩, ?_⟩⟩
    unfold CongestionController.in_recovery at hno ⊢
    rwa [hstart] at hno

theorem step_moves (s : Step) (hwide : Wide c.congestion)
    (hpast : ∀ pkt ∈ c.sent_tracker.entries, ∀ now ∈ clock s, pkt.time_sent ≤ now) :
    Moved (c, s) := by
  cases hack : ack_of s with
  | none =>
    have hrests := rests_step hack c
    obtain ⟨hcwnd, -, -, hstart, hdatagram, hleast⟩ := CongestionController.mk.inj hrests.congestion
    have hnext : next_window (c, s) = c.congestion.cwnd := hcwnd
    refine ⟨⟨?_, ?_, ?_⟩, ⟨hdatagram.trans hwide.1, hleast.trans hwide.2,
      hwide.3.trans_eq hcwnd.symm⟩, hrests.sent, .inl ⟨hnext.ge, hstart⟩⟩
    · exact hnext ▸ hwide.floor
    · exact hnext ▸ Nat.le_add_right _ _
    · exact hnext ▸ Nat.div_le_self _ _
  | some found => exact ack_moves hack hwide hpast

/-! ## Every run -/

/-- What holds throughout a run. -/
structure Moves (trace : List (Connection B × Step)) (c : Connection B) : Prop extends Ruled trace where
  wide : Wide c.congestion
  sent : ∀ pkt ∈ c.sent_tracker.entries, pkt.time_sent ∈ trace.filterMap (clock ·.2)
  reduced : ∀ x ∈ trace, Reduces x →
    ∃ t ∈ clock x.2, ∃ start ∈ c.congestion.recovery_start_time, t ≤ start

theorem Moves.step {trace : List (Connection B × Step)} (h : Moves trace c) (s : Step)
    (hclock : ∀ t ∈ trace.filterMap (clock ·.2), ∀ now ∈ clock s, t ≤ now) :
    Moves (trace ++ [(c, s)]) (s.apply c) := by
  have hmoved := step_moves s h.wide fun pkt hpkt => hclock _ (h.sent pkt hpkt)
  have hkeep {p : Connection B × Step → Prop} (htrace : ∀ x ∈ trace, p x) (hlast : p (c, s)) :
      ∀ x ∈ trace ++ [(c, s)], p x :=
    List.forall_mem_append.mpr ⟨htrace, List.forall_mem_singleton.mpr hlast⟩
  refine ⟨⟨hkeep h.legal hmoved.toLegal, List.pairwise_append.mpr
    ⟨h.once, List.pairwise_singleton _ _, fun x hx y hy hreduces hagain => ?_⟩⟩, hmoved.wide,
    fun pkt hpkt => ?_, ?_⟩
  · -- The second reduction is this step.
    obtain rfl := List.mem_singleton.mp hy
    obtain ⟨t, ht, start, hstart, hle⟩ := h.reduced x hx hreduces
    rcases hmoved.start with ⟨hmore, -⟩ | ⟨now, -, -, pkt, hloses, hno⟩
    · exact absurd hagain (Nat.not_lt.mpr hmore)
    · refine ⟨t, ht, pkt, hloses, Nat.lt_of_le_of_lt hle ?_⟩
      have hstart' : c.congestion.recovery_start_time = some start := hstart
      rw [CongestionController.in_recovery, hstart'] at hno
      exact Nat.not_le.mp (of_decide_eq_false hno)
  · rw [List.filterMap_append, List.mem_append]
    rcases hmoved.sent pkt hpkt with hold | hnew
    · exact .inl (h.sent pkt hold)
    · exact .inr (List.mem_filterMap.mpr ⟨(c, s), List.mem_singleton.mpr rfl, hnew⟩)
  · rcases hmoved.start with ⟨hmore, hstart⟩ | ⟨now, hnow, hstart, -⟩
    · refine hkeep ?_ fun hreduces => absurd hreduces (Nat.not_lt.mpr hmore)
      rw [hstart]
      exact h.reduced
    · refine hkeep (fun x hx hreduces => ?_) fun _ => ⟨now, hnow, now, hstart, Nat.le_refl _⟩
      obtain ⟨t, ht, -⟩ := h.reduced x hx hreduces
      exact ⟨t, ht, now, hstart, hclock t (List.mem_filterMap.mpr ⟨x, hx, ht⟩) now hnow⟩

theorem clocks_eq (c : Connection B) (steps : List Step) :
    (run.trace Step.apply c steps).filterMap (clock ·.2) = steps.filterMap clock := by
  induction steps generalizing c with
  | nil => rfl
  | cons s rest ih => simp only [trace_cons, List.filterMap_cons, ih]

theorem moves_run (h : Moves [] c) {steps : List Step} (hclock : InOrder steps) :
    Moves (run.trace Step.apply c steps) (c.after steps) := by
  induction steps using List.reverseRecOn with
  | nil => exact h
  | append_singleton steps s ih =>
    rw [InOrder, List.filterMap_append, List.pairwise_append] at hclock
    rw [after, final_append, trace_append]
    refine (ih hclock.1).step s fun t ht now hnow => ?_
    rw [clocks_eq] at ht
    exact hclock.2.2 t ht now (by simpa using hnow)

/-- In every run whose clock does not go back: the congestion window is never below two datagrams, a
step opens it by no more than the bytes it acknowledges and takes no more than half of it, and it is
taken from twice only where the second time a packet was lost that was sent after the first. -/
theorem window_moves_by_the_rules (hstart : Started c) (cs : List Call)
    (hclock : InOrder (c.steps cs)) : Ruled (run.trace Step.apply c (c.steps cs)) := by
  have hinit : Moves [] c := by
    obtain ⟨role, keys, tls, local_cid, remote_cid, tp, rfl⟩ := hstart.fresh
    exact ⟨⟨List.forall_mem_nil _, .nil⟩, ⟨rfl, rfl, Nat.le_of_ble_eq_true rfl⟩, List.forall_mem_nil _,
      List.forall_mem_nil _⟩
  exact (moves_run hinit hclock).toRuled

open standin timer_arithmetic

/-- A client's probe is acknowledged after ten seconds, and again when the packet before it is due:
the first time the window opens by a datagram, and the second time it is halved. -/
theorem late_answer_obeys_the_rules :
    let steps := (client .default_params).steps (probed 11024001 ++
      [.recv (initial_from_server [8, 7, 6, 5] 1 [.Ack (timer_arithmetic.ack_of 1)]) 1500 11250001])
    Ruled (run.trace Step.apply (client .default_params) steps) ∧
      ((run.trace Step.apply (client .default_params) steps).map next_window).dedup =
        [14720, 15920, 7960] :=
  ⟨window_moves_by_the_rules (client_started _) _ (by decide +kernel), by decide +kernel⟩

end milli_http.connection.congestion_window
