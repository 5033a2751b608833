-- Acknowledgements of packets that were never sent. The loss detector takes the largest number of
-- an ACK frame as it comes, whether it was sent or not: it stays below the next packet number, and
-- packets are lost only below what the peer can have received, if and only if every ACK covers sent
-- numbers alone.
import MilliHttp.AckProcessing
import MilliHttp.InFlight
import MilliHttp.TimerArithmetic
import MilliHttp.Transport.LossDetection

open bytes method run

namespace milli_http.connection.ack_bounds

open crypto tls transport packet frame Connection ack_processing in_flight timer_arithmetic

variable {B : Build} {c c' : Connection B} {trace : List (Connection B × Step)}

/-! ## What the law says -/

/-- The ACK has a range with the number. -/
def Covers (ack : AckFrame) (n : Nat) : Prop :=
  ∃ pairs, ack_range_pairs ack.ack_ranges.length ack.ack_ranges = .ok pairs ∧
    ∃ r ∈ ranges_of ack.largest_ack ack.first_ack_range pairs, r.1 ≤ (n : Int) ∧ (n : Int) ≤ r.2

/-- The largest acknowledged numbers have been sent. -/
def Bounded (c : Connection B) : Prop :=
  ∀ level, ∀ n ∈ c.loss_detector.largest_acked.get level, n < c.next_pn.get level

/-- An ACK that covers a number that was never sent leaves the loss recovery as it is. -/
def Harmless (c : Connection B) : Step → Prop
  | .dispatch level now (.Ack ack) =>
    (∃ n, c.next_pn.get level ≤ n ∧ Covers ack n) →
      let c' := (Step.dispatch level now (.Ack ack)).apply c
      c'.sent_tracker = c.sent_tracker ∧ c'.loss_detector = c.loss_detector ∧
        c'.congestion = c.congestion
  | _ => True

/-- The peer has acknowledged the number, and it had been sent before. -/
def Acknowledged (trace : List (Connection B × Step)) (level : Level) (n : Nat) : Prop :=
  ∃ x ∈ trace, ∃ now ack, x.2 = .dispatch level now (.Ack ack) ∧ Covers ack n ∧
    n < x.1.next_pn.get level

/-- The largest acknowledged numbers were sent, an ACK of others does nothing, and what the last
step declares lost was sent no later than something the peer has acknowledged. -/
structure Sound (trace : List (Connection B × Step)) (c : Connection B) : Prop where
  bounded : Bounded c
  harmless : ∀ x ∈ trace, Harmless x.1 x.2
  losses : ∀ before c level now ack pairs,
    trace = before ++ [(c, .dispatch level now (.Ack ack))] →
    ack_range_pairs ack.ack_ranges.length ack.ack_ranges = .ok pairs →
    ∀ pn ∈ declared_lost level now ack (pairs.take 16) c,
      ∃ n, pn ≤ n ∧ Acknowledged trace level n

/-- An ACK covers sent numbers alone. -/
def CoversSent (c : Connection B) : Step → Prop
  | .dispatch level _ (.Ack ack) => ∀ n, Covers ack n → n < c.next_pn.get level
  | _ => True

/-! ## What an ACK covers -/

theorem covers_largest {ack : AckFrame} {pairs : List (Nat × Nat)}
    (h : ack_range_pairs ack.ack_ranges.length ack.ack_ranges = .ok pairs) :
    Covers ack ack.largest_ack := by
  refine ⟨pairs, h, _, List.mem_cons_self, ?_, Int.le_refl _⟩
  dsimp only
  omega

theorem le_of_covers {ack : AckFrame} {n : Nat} (h : Covers ack n) : n ≤ ack.largest_ack := by
  obtain ⟨pairs, -, r, hr, -, hle⟩ := h
  rcases List.mem_cons.mp hr with rfl | hr
  · dsimp only at hle
    omega
  · have hbelow := (encoded_ranges_lt _ pairs).1 r hr
    omega

theorem covers_below_iff (ack : AckFrame) (bound : Nat) :
    (∀ n, Covers ack n → n < bound) ↔
      ∀ pairs, ack_range_pairs ack.ack_ranges.length ack.ack_ranges = .ok pairs →
        ack.largest_ack < bound := by
  constructor
  · exact fun h pairs hpairs => h _ (covers_largest hpairs)
  · exact fun h n hn => Nat.lt_of_le_of_lt (le_of_covers hn) (h hn.choose hn.choose_spec.1)

instance (ack : AckFrame) (bound : Nat) : Decidable (∀ n, Covers ack n → n < bound) :=
  match hpairs : ack_range_pairs ack.ack_ranges.length ack.ack_ranges with
  | .ok pairs => decidable_of_iff (ack.largest_ack < bound) (by
      rw [covers_below_iff]
      exact ⟨fun h _ _ => h, fun h => h pairs hpairs⟩)
  | .error e => .isTrue (by
      rw [covers_below_iff, hpairs]
      nofun)

instance (c : Connection B) (s : Step) : Decidable (CoversSent c s) :=
  decidable_of_iff ((match s with
    | .dispatch level _ (.Ack ack) => decide (∀ n, Covers ack n → n < c.next_pn.get level)
    | _ => true) = true) (by
    unfold CoversSent
    split <;> simp)

/-! ## What an ACK does -/

theorem update_rtt_largest (ld : LossDetector) (latest_rtt ack_delay : Nat) (confirmed : Bool) :
    (ld.update_rtt latest_rtt ack_delay confirmed).largest_acked = ld.largest_acked := by
  unfold LossDetector.update_rtt
  dsimp only
  split <;> rfl

theorem acked_detector_largest (level : Level) (now : Instant) (ack : AckFrame)
    (ranges : List (Nat × Nat)) (c : Connection B) :
    (acked_detector level now ack ranges c).largest_acked =
      (c.loss_detector.on_ack_received level ack.largest_ack).largest_acked := by
  unfold acked_detector
  dsimp only
  split
  · rfl
  · split
    · exact update_rtt_largest _ _ _ _
    · rfl

/-- The largest acknowledged number after an ACK is its own or an earlier one, and no smaller
than its own. -/
theorem on_ack_received_largest (ld : LossDetector) (level : Level) (largest : Nat) :
    ∃ m, largest ≤ m ∧ (m = largest ∨ m ∈ ld.largest_acked.get level) ∧
      (ld.on_ack_received level largest).largest_acked = ld.largest_acked.set level (some m) := by
  unfold LossDetector.on_ack_received
  cases hprev : ld.largest_acked.get level with
  | none => exact ⟨largest, Nat.le_refl _, .inl rfl, rfl⟩
  | some prev =>
    dsimp only
    split
    · exact ⟨largest, Nat.le_refl _, .inl rfl, rfl⟩
    · rename_i hle
      exact ⟨prev, Nat.le_of_not_lt hle, .inr rfl, (PerLevel.set_eq_self hprev).symm⟩

theorem acked_detector_sets (level : Level) (now : Instant) (ack : AckFrame)
    (ranges : List (Nat × Nat)) (c : Connection B) :
    ∃ m, ack.largest_ack ≤ m ∧ (m = ack.largest_ack ∨ m ∈ c.loss_detector.largest_acked.get level) ∧
      (acked_detector level now ack ranges c).largest_acked =
        c.loss_detector.largest_acked.set level (some m) := by
  rw [acked_detector_largest]
  exact on_ack_received_largest c.loss_detector level ack.largest_ack

/-- Looking for lost packets leaves the largest acknowledged number alone. -/
theorem on_ack_largest (level : Level) (now : Instant) (ack : AckFrame) (ranges : List (Nat × Nat))
    (c : Connection B) : (on_ack level now ack ranges c).loss_detector.largest_acked =
      (acked_detector level now ack ranges c).largest_acked := by
  obtain ⟨loss_time, htimer⟩ := detect_timer (acked_detector level now ack ranges c) level
    (acked_tracker level ack ranges c) now
  have hdetector : (on_ack level now ack ranges c).loss_detector =
      { acked_detector level now ack ranges c with loss_time } := htimer
  rw [hdetector]

/-- What is declared lost is not past the largest acknowledged number. -/
theorem lost_below {ld : LossDetector} {level : Level} {tracker : SentPacketTracker} {now : Instant}
    {pn : Nat} (h : pn ∈ (ld.detect_lost_packets level tracker now).1) :
    ∃ m ∈ ld.largest_acked.get level, pn ≤ m := by
  unfold LossDetector.detect_lost_packets at h
  cases hlargest : ld.largest_acked.get level with
  | none =>
    rw [hlargest] at h
    cases h
  | some m =>
    rw [hlargest] at h
    dsimp only at h
    rw [LossDetector.lost_scan_found _ _ _ _ _ _ (Nat.zero_le _)] at h
    have h := List.mem_of_mem_take h
    rw [List.nil_append] at h
    obtain ⟨pkt, hpkt, rfl⟩ := List.mem_map.mp h
    have hbelow := (List.mem_filter.mp (List.mem_filter.mp hpkt).1).2
    have hlt : pkt.pn < m + 1 := of_decide_eq_true (Bool.and_eq_true_iff.mp hbelow).2
    exact ⟨m, rfl, Nat.le_of_lt_succ hlt⟩

theorem dispatch_ack_cases (level : Level) (now : Instant) (ack : AckFrame) (c : Connection B) :
    (∃ e, ack_range_pairs ack.ack_ranges.length ack.ack_ranges = .error e ∧
      (Step.dispatch level now (.Ack ack)).apply c = c) ∨
    ∃ pairs, ack_range_pairs ack.ack_ranges.length ack.ack_ranges = .ok pairs ∧
      (Step.dispatch level now (.Ack ack)).apply c = on_ack level now ack (pairs.take 16) c := by
  have hrun : (Step.dispatch level now (.Ack ack)).apply c = (handle_ack level now ack c).2 := rfl
  rw [hrun]
  unfold handle_ack
  rw [Method.bind_run, Method.lift_run]
  cases hpairs : ack_range_pairs ack.ack_ranges.length ack.ack_ranges with
  | error e => exact .inl ⟨e, rfl, rfl⟩
  | ok pairs => exact .inr ⟨pairs, rfl, rfl⟩

/-! ## The other steps -/

/-- Packet numbers go up, and no larger number is acknowledged. -/
structure Follows (c c' : Connection B) : Prop where
  next : ∀ level, c.next_pn.get level ≤ c'.next_pn.get level
  acked : ∀ level, ∀ n ∈ c'.loss_detector.largest_acked.get level,
    n ∈ c.loss_detector.largest_acked.get level

instance : IsPreorder (Connection B) Follows where
  refl _ := ⟨fun _ => Nat.le_refl _, fun _ _ => id⟩
  trans _ _ _ h₁ h₂ :=
    ⟨fun level => Nat.le_trans (h₁.next level) (h₂.next level),
      fun level n hn => h₁.acked level n (h₂.acked level n hn)⟩

theorem Follows.of_same (hnext : c'.next_pn = c.next_pn)
    (hacked : c'.loss_detector.largest_acked = c.loss_detector.largest_acked) : Follows c c' :=
  ⟨fun level => Nat.le_of_eq (by rw [hnext]), fun level n hn => by rwa [← hacked]⟩

theorem follows_data : Connection.KeptByData (B := B) Follows where
  streams _ _ := .of_same rfl rfl
  received _ _ := .of_same rfl rfl
  max_data _ _ := .of_same rfl rfl
  max_streams _ _ _ := .of_same rfl rfl
  max_data_sent _ := .of_same rfl rfl
  sio _ _ := .of_same rfl rfl
  path_response _ _ := .of_same rfl rfl

theorem follows_keys : Connection.KeptByKeys (B := B) Follows where
  remote_cid _ _ := .of_same rfl rfl
  keys _ _ := .of_same rfl rfl
  slot _ _ := .of_same rfl rfl

theorem follows_pushed (event : Event) (c : Connection B) : Follows c (c.push_event event) := by
  unfold Connection.push_event
  split <;> exact .of_same rfl rfl

theorem follows_shifts : Connection.KeptByShifts (B := B) Follows where
  toKeptByData := follows_data
  toKeptByKeys := follows_keys
  draining _ := .of_same rfl rfl
  pushed event c _ := follows_pushed event c
  connected c _ := IsTrans.trans _ { c with state := .Active, address_validated := true } _
    (.of_same rfl rfl) (follows_pushed .Connected _)
  drop_space level c :=
    { next := fun _ => Nat.le_refl _
      acked := fun level' n hn => by
        by_cases hlevel : level' = level
        · subst hlevel
          simp only [Connection.drop_space, LossDetector.drop_space, PerLevel.get_set_self] at hn
          cases hn
        · simpa only [Connection.drop_space, LossDetector.drop_space,
            PerLevel.get_set_ne _ _ hlevel] using hn }
  learn_peer_params _ _ := .of_same rfl rfl
  record pr c := by
    unfold record_packet track_received_pn
    split <;> exact .of_same rfl rfl

theorem follows_calls : Connection.KeptByCalls (B := B) Follows where
  toKeptByData := follows_data
  pushed event c _ := follows_pushed event c
  polled _ := .of_same rfl rfl
  closed _ := .of_same rfl rfl
  pto _ _ := .of_same rfl rfl
  close _ _ _ := .of_same rfl rfl
  key_update := Method.keeps_on fun _ => .of_same rfl rfl

theorem follows_transmit : Connection.KeptByTransmit (B := B) Follows where
  toKeptByDrain := .of_parts follows_data follows_keys (fun _ => .of_same rfl rfl)
    (fun _ _ => .of_same rfl rfl) (fun _ _ => .of_same rfl rfl) (fun _ _ => .of_same rfl rfl)
  sent level size ack_eliciting in_flight now c :=
    { next := fun level' => by
        by_cases hlevel : level' = level
        · subst hlevel
          simp only [Connection.packet_sent, PerLevel.get_set_self]
          exact Nat.le_succ _
        · simp only [Connection.packet_sent, PerLevel.get_set_ne _ _ hlevel]
          exact Nat.le_refl _
      acked := fun _ _ hn => by
        cases ack_eliciting <;> exact hn }
  emitted _ _ := .of_same rfl rfl

/-- Every step but an acknowledgement acknowledges nothing. -/
theorem follows_step {s : Step} (hack : ∀ level now ack, s ≠ .dispatch level now (.Ack ack))
    (c : Connection B) : Follows c (s.apply c) := by
  by_cases hop : ∃ o, s = .op o
  · obtain ⟨o, rfl⟩ := hop
    by_cases htransmit : ∃ buf_len now, o = .poll_transmit buf_len now
    · obtain ⟨buf_len, now, rfl⟩ := htransmit
      exact follows_transmit.poll_transmit buf_len now c
    · exact follows_calls.op (fun buf_len now heq => htransmit ⟨buf_len, now, heq⟩) c
  · by_cases harrive : ∃ len now, s = .arrive len now
    · obtain ⟨len, now, rfl⟩ := harrive
      simp only [Step.apply, Connection.arrive]
      split <;> exact .of_same rfl rfl
    · exact follows_shifts.step (fun len now heq => harrive ⟨len, now, heq⟩)
        (fun o heq => hop ⟨o, heq⟩) hack c

/-! ## Every run -/

/-- What holds of the largest acknowledged numbers throughout a run. -/
structure Traced (trace : List (Connection B × Step)) (c : Connection B) : Prop where
  acked : ∀ level, ∀ n ∈ c.loss_detector.largest_acked.get level,
    n < c.next_pn.get level ∧ Acknowledged trace level n
  losses : ∀ before c level now ack pairs,
    trace = before ++ [(c, .dispatch level now (.Ack ack))] →
    ack_range_pairs ack.ack_ranges.length ack.ack_ranges = .ok pairs →
    ∀ pn ∈ declared_lost level now ack (pairs.take 16) c,
      ∃ n, pn ≤ n ∧ Acknowledged trace level n

theorem Acknowledged.later {level : Level} {n : Nat}
    (h : Acknowledged trace level n) (x : Connection B × Step) :
    Acknowledged (trace ++ [x]) level n := by
  obtain ⟨y, hy, hacked⟩ := h
  exact ⟨y, List.mem_append_left _ hy, hacked⟩

theorem last_eq {before pre : List (Connection B × Step)} {x y : Connection B × Step}
    (h : pre ++ [x] = before ++ [y]) : x = y :=
  List.singleton_inj.mp (List.append_inj' h rfl).2

theorem traced_ack {level : Level} {now : Instant}
    {ack : AckFrame} (hsent : CoversSent c (.dispatch level now (.Ack ack))) (h : Traced trace c) :
    Traced (trace ++ [(c, .dispatch level now (.Ack ack))])
      ((Step.dispatch level now (.Ack ack)).apply c) := by
  rcases dispatch_ack_cases level now ack c with ⟨e, herror, hsame⟩ | ⟨pairs, hpairs, happly⟩
  · rw [hsame]
    refine ⟨fun level' n hn => ⟨(h.acked level' n hn).1, (h.acked level' n hn).2.later _⟩, ?_⟩
    intro before c' level' now' ack' pairs heq hpairs
    cases last_eq heq
    rw [herror] at hpairs
    cases hpairs
  · have hcovers := covers_largest hpairs
    have hself : Acknowledged (trace ++ [(c, .dispatch level now (.Ack ack))]) level
        ack.largest_ack :=
      ⟨_, List.mem_append_right _ (List.mem_singleton.mpr rfl), now, ack, rfl, hcovers,
        hsent _ hcovers⟩
    obtain ⟨m, -, hm, hset⟩ := acked_detector_sets level now ack (pairs.take 16) c
    have hnew : m < c.next_pn.get level ∧
        Acknowledged (trace ++ [(c, .dispatch level now (.Ack ack))]) level m := by
      rcases hm with rfl | hm
      · exact ⟨hsent _ hcovers, hself⟩
      · exact ⟨(h.acked level m hm).1, (h.acked level m hm).2.later _⟩
    rw [happly]
    refine ⟨fun level' n hn => ?_, ?_⟩
    · rw [on_ack_largest, hset] at hn
      by_cases hlevel : level' = level
      · subst hlevel
        rw [PerLevel.get_set_self] at hn
        cases hn
        exact hnew
      · rw [PerLevel.get_set_ne _ _ hlevel] at hn
        exact ⟨(h.acked level' n hn).1, (h.acked level' n hn).2.later _⟩
    · intro before c' level' now' ack' pairs' heq hpairs' pn hpn
      cases last_eq heq
      rw [hpairs] at hpairs'
      cases hpairs'
      have hlost : pn ∈ ((acked_detector level now ack (pairs.take 16) c).detect_lost_packets level
        (acked_tracker level ack (pairs.take 16) c) now).1 := hpn
      obtain ⟨m', hm', hle⟩ := lost_below hlost
      rw [hset, PerLevel.get_set_self] at hm'
      cases hm'
      exact ⟨m, hle, hnew.2⟩

theorem traced_step {s : Step} (hsent : CoversSent c s)
    (h : Traced trace c) : Traced (trace ++ [(c, s)]) (s.apply c) := by
  by_cases hack : ∃ level now ack, s = .dispatch level now (.Ack ack)
  · obtain ⟨level, now, ack, rfl⟩ := hack
    exact traced_ack hsent h
  · have hno : ∀ level now ack, s ≠ .dispatch level now (.Ack ack) :=
      fun level now ack heq => hack ⟨level, now, ack, heq⟩
    have hfollows := follows_step hno c
    refine ⟨fun level n hn => ?_, fun before c' level now ack pairs heq => ?_⟩
    · obtain ⟨hlt, hacked⟩ := h.acked level n (hfollows.acked level n hn)
      exact ⟨Nat.lt_of_lt_of_le hlt (hfollows.next level), hacked.later _⟩
    · cases last_eq heq
      exact absurd rfl (hno level now ack)

theorem traced_started (h : Connection.Started c) : Traced [] c := by
  obtain ⟨role, keys, tls, local_cid, remote_cid, tp, rfl⟩ := h.fresh
  refine ⟨fun level n hn => ?_, fun before c' level now ack pairs heq => ?_⟩
  · cases level <;> cases hn
  · exact absurd heq.symm (List.append_ne_nil_of_right_ne_nil _ nofun)

theorem harmless_of_coversSent {s : Step} (h : CoversSent c s) : Harmless c s := by
  unfold Harmless
  split
  · rintro ⟨n, hge, hn⟩
    exact absurd (h n hn) (Nat.not_lt_of_le hge)
  · trivial

/-- An ACK after which the largest acknowledged numbers were sent covers sent numbers alone. -/
theorem coversSent_of_bounded {s : Step} (h : Bounded (s.apply c)) : CoversSent c s := by
  unfold CoversSent
  split
  · rename_i level now ack
    rw [covers_below_iff]
    intro pairs hpairs
    rcases dispatch_ack_cases level now ack c with ⟨e, herror, -⟩ | ⟨pairs', -, happly⟩
    · rw [hpairs] at herror
      cases herror
    · obtain ⟨m, hle, -, hset⟩ := acked_detector_sets level now ack (pairs'.take 16) c
      rw [happly] at h
      refine Nat.lt_of_le_of_lt hle (h level m ?_)
      rw [on_ack_largest, hset, PerLevel.get_set_self]
      rfl
  · trivial

/-- In a run the largest acknowledged numbers were sent, ACKs of others do nothing, and nothing is
declared lost that was sent after all that was acknowledged, if and only if every ACK covers sent
numbers alone. -/
theorem unsent_numbers_are_not_acked_iff (hstart : Connection.Started c) (cs : List Call) :
    Always Step.apply Sound c (c.steps cs) ↔ Along Step.apply CoversSent c (c.steps cs) := by
  constructor
  · intro h x hx
    obtain ⟨pre, hpre, hbefore⟩ := of_mem_trace hx
    refine coversSent_of_bounded ?_
    have hbounded := (h _ hpre).bounded
    rwa [final_append, ← hbefore] at hbounded
  · intro h pre hpre
    have hsteps := h.upto hpre
    have htraced :=
      history Traced (fun _ _ _ hs h => traced_step hs h) hsteps (traced_started hstart)
    exact ⟨fun level n hn => (htraced.acked level n hn).1,
      fun x hx => harmless_of_coversSent (hsteps x hx), htraced.losses⟩

/-! ## An answer, and an ACK of packets to come -/

open standin

/-- The client sends a packet, which the server acknowledges. -/
def answered : List Call :=
  [.op (.poll_transmit 1500 1),
    .recv (initial_from_server [8, 7, 6, 5] 0 [.Ack (ack_of 0)]) 1500 2]

/-- The server acknowledges packet 7 when packet 0 is the only one. -/
def foretold : List Call :=
  [.op (.poll_transmit 1500 1),
    .recv (initial_from_server [8, 7, 6, 5] 0 [.Ack (ack_of 7)]) 1500 2]

/-- The law while the client is answered. -/
theorem answer_is_of_sent_packets :
    Always Step.apply Sound (client .default_params) ((client .default_params).steps answered) :=
  (unsent_numbers_are_not_acked_iff (client_started _) answered).mpr (by decide +kernel)

/-- The client takes the ACK of packet 7, and declares packet 0 lost. -/
theorem unsent_packet_is_acked :
    ((client .default_params).after
        ((client .default_params).steps foretold)).loss_detector.largest_acked.initial = some 7 ∧
    ((client .default_params).after ((client .default_params).steps foretold)).next_pn.initial = 1 ∧
    ((client .default_params).after
        ((client .default_params).steps foretold)).sent_tracker.entries = [] ∧
    ¬ Always Step.apply Sound (client .default_params)
      ((client .default_params).steps foretold) := by
  have hrun : ((client .default_params).after
        ((client .default_params).steps foretold)).loss_detector.largest_acked.initial = some 7 ∧
      ((client .default_params).after ((client .default_params).steps foretold)).next_pn.initial = 1 ∧
      ((client .default_params).after
        ((client .default_params).steps foretold)).sent_tracker.entries = [] := by decide +kernel
  obtain ⟨hacked, hnext, hentries⟩ := hrun
  refine ⟨hacked, hnext, hentries, fun h => ?_⟩
  have hbounded : Bounded ((client .default_params).after ((client .default_params).steps foretold)) :=
    (h _ (List.prefix_refl _)).bounded
  generalize (client .default_params).after ((client .default_params).steps foretold) = c at *
  have hlt : 7 < c.next_pn.initial := hbounded .Initial 7 hacked
  omega

end milli_http.connection.ack_bounds
