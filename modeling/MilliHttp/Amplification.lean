-- Anti-amplification: before its peer's address is validated, an endpoint sends at most three
-- times what it received. The datagram with a CONNECTION_CLOSE is neither checked nor counted,
-- so the law needs the limit to allow for it.
import MilliHttp.Connection.Updates
import MilliHttp.Standin

open bytes method

namespace milli_http.connection.amplification

open crypto tls transport packet frame Connection

variable {B : Build} {c c' : Connection B} {trace : List (Connection B × Step)}

/-! ## What is sent and received in a run -/

/-- The length of the datagram a step passes to `recv`. -/
def received : Step → Nat
  | .arrive len _ => len
  | _ => 0

/-- The length of the datagram a step returns from `poll_transmit`. -/
def sent (c : Connection B) : Step → Nat
  | .op (.poll_transmit buf_len now) =>
    ((c.poll_transmit buf_len now).1.map (·.data.length)).getD 0
  | _ => 0

def total_received (trace : List (Connection B × Step)) : Nat :=
  (trace.map fun x => received x.2).sum

def total_sent (trace : List (Connection B × Step)) : Nat := (trace.map fun x => sent x.1 x.2).sum

/-- At every point of the run before the address is validated, three times what came in covers
what went out. -/
def WithinLimit (c : Connection B) (steps : List Step) : Prop :=
  ∀ pre, pre <+: steps → (c.after pre).address_validated = false →
    total_sent (run.trace Step.apply c pre) ≤ 3 * total_received (run.trace Step.apply c pre)

/-- A CONNECTION_CLOSE is sent only into a buffer the limit allows in full, and the counters
stay within range. -/
def CloseAllowed (c : Connection B) : Step → Prop
  | .op (.poll_transmit buf_len _) =>
    c.close_frame = none ∨ c.close_level = none ∨ c.amplification_allows buf_len = true
  | .arrive len _ => c.anti_amplification_bytes_received + len ≤ U64_MAX / 3
  | _ => True

instance (c : Connection B) (s : Step) : Decidable (CloseAllowed c s) :=
  match s with
  | .op o =>
    match o with
    | .poll_transmit _ _ => instDecidableOr
    | .handle_timeout _ | .poll_event | .open_stream | .open_uni_stream | .stream_send _ _ _
    | .stream_recv _ _ | .stream_reset _ | .stream_stop_sending _ | .close _ _
    | .initiate_key_update => .isTrue trivial
  | .arrive _ _ => Nat.decLe _ _
  | .open_packet _ _ _ | .dispatch _ _ _ | .initial_done | .record _ | .check_tls_keys =>
    .isTrue trivial

/-! ## The counters -/

/-- The counters stay as they are, and a validated address stays validated. -/
structure Uncounted (c c' : Connection B) : Prop where
  received : c'.anti_amplification_bytes_received = c.anti_amplification_bytes_received
  sent : c'.anti_amplification_bytes_sent = c.anti_amplification_bytes_sent
  validated : c.address_validated = true → c'.address_validated = true

instance : IsPreorder (Connection B) Uncounted where
  refl _ := ⟨rfl, rfl, id⟩
  trans _ _ _ h₁ h₂ := ⟨h₂.1.trans h₁.1, h₂.2.trans h₁.2, fun h => h₂.3 (h₁.3 h)⟩

theorem uncounted_updates : KeptByUpdates (B := B) Uncounted where
  keys _ _ := ⟨rfl, rfl, id⟩
  slot _ _ := ⟨rfl, rfl, id⟩
  state _ _ _ := ⟨rfl, rfl, id⟩
  validated _ := ⟨rfl, rfl, fun _ => rfl⟩
  events _ _ := ⟨rfl, rfl, id⟩
  drop_space _ _ := ⟨rfl, rfl, id⟩
  peer_params _ _ _ _ := ⟨rfl, rfl, id⟩
  remote_cid _ _ := ⟨rfl, rfl, id⟩
  ack _ _ _ _ _ := ⟨rfl, rfl, id⟩
  streams _ _ := ⟨rfl, rfl, id⟩
  flow_control _ _ := ⟨rfl, rfl, id⟩
  sio _ _ := ⟨rfl, rfl, id⟩
  path_response _ _ := ⟨rfl, rfl, id⟩
  record pr c := by
    unfold record_packet
    split <;> exact ⟨rfl, rfl, id⟩
  closed _ := ⟨rfl, rfl, id⟩
  pto _ _ := ⟨rfl, rfl, id⟩
  close _ _ := ⟨rfl, rfl, id⟩
  key_update := Method.keeps_on fun _ => ⟨rfl, rfl, id⟩

/-- What the limit looks at. -/
def amp_side (c : Connection B) : Nat × Nat × Bool × Option (Nat × Bytes) :=
  (c.anti_amplification_bytes_received, c.anti_amplification_bytes_sent, c.address_validated,
    c.close_frame)

theorem amp_side_parts : KeptByParts (B := B) (Method.Same amp_side) where
  keys _ _ := rfl
  slot _ _ := rfl
  state _ _ _ := rfl
  events _ _ := rfl
  remote_cid _ _ := rfl
  streams _ _ := rfl
  flow_control _ _ := rfl
  sio _ _ := rfl
  path_response _ _ := rfl
  record pr c := by
    unfold record_packet
    split <;> rfl

/-- Building packets leaves it alone. -/
theorem amp_side_build : KeptByBuild (B := B) (Method.Same amp_side) where
  toKeptByDrain := .of_fields amp_side_parts.toKeptByFields (fun _ => rfl) (fun _ _ => rfl) (fun _ _ => rfl)
    (fun _ _ => rfl)
  sent _ _ _ _ _ _ := rfl

theorem amplification_allows_congr (h : amp_side c' = amp_side c) (n : Nat) :
    c'.amplification_allows n = c.amplification_allows n := by
  simp only [amp_side, Prod.mk.injEq] at h
  simp only [amplification_allows, h.1, h.2.1, h.2.2.1]

/-! ## Transmitting -/

/-- A datagram goes out within the limit, and is counted. -/
theorem emit_cases (packets : List Packet) (c : Connection B) :
    ((c.emit packets).1 = none ∧ (c.emit packets).2 = c) ∨
    ∃ t, (c.emit packets).1 = some t ∧ c.amplification_allows t.data.length = true ∧
      (c.emit packets).2 = if c.address_validated then c else
        { c with anti_amplification_bytes_sent :=
            saturating_add c.anti_amplification_bytes_sent t.data.length } := by
  unfold Connection.emit
  dsimp only
  split
  · exact .inl ⟨rfl, rfl⟩
  · split
    · rename_i hv
      refine .inr ⟨_, rfl, ?_, ?_⟩
      · simp [amplification_allows, hv]
      · rfl
    · split
      · rename_i hallows
        exact .inr ⟨_, rfl, hallows, rfl⟩
      · exact .inl ⟨rfl, rfl⟩

/-- A CONNECTION_CLOSE goes out unchecked and uncounted, as long as there are keys. -/
theorem transmit_close_cases (error_code : Nat) (reason : Bytes) (buf_len : Nat) (now : Instant)
    (c : Connection B) :
    (c.transmit_close error_code reason buf_len now).1 = none ∨
    ∃ t, (c.transmit_close error_code reason buf_len now).1 = some t ∧ t.data.length ≤ buf_len ∧
      c.close_level ≠ none ∧ (c.transmit_close error_code reason buf_len now).2.state = .Closed := by
  unfold transmit_close
  split
  · exact .inl rfl
  · rename_i level hlevel
    dsimp only
    cases hpkt : (c.build_close_packet level (.ConnectionClose
        { is_application := false, error_code, frame_type := 0, reason }) buf_len now).1 with
    | none => exact .inl (by simp)
    | some pkt =>
      refine .inr ⟨_, rfl, ?_, by simp [hlevel], rfl⟩
      unfold build_close_packet at hpkt
      split at hpkt
      · cases hpkt
      · dsimp only at hpkt
        split at hpkt
        · cases hpkt
        · rename_i sealed_pkt hsealed
          obtain rfl := Option.some.inj hpkt
          split at hsealed
          · obtain ⟨⟨p, n⟩, hseal, rfl⟩ := Option.map_eq_some_iff.mp hsealed
            exact seal_initial_fits hseal
          · exact seal_level_fits hsealed

theorem auto_key_update_of_no_keys {c : Connection B} (h : c.close_level = none) :
    auto_key_update c = (.ok (), c) := by
  have hsend : c.keys.has_send_keys .Application = false := by
    unfold close_level at h
    split at h
    · cases h
    · simpa using ‹¬ c.keys.has_send_keys .Application = true›
  have hno : c.keys.needs_key_update = false := by
    have happ : c.keys.app_send.isSome = false := hsend
    simp [ConnectionKeys.needs_key_update, ConnectionKeys.can_initiate_key_update, happ]
  unfold auto_key_update
  simp [Method.bind_run, hno]

/-- All that a call of `poll_transmit` can do to the counters. -/
theorem poll_transmit_cases (buf_len : Nat) (now : Instant) (c : Connection B) :
    ((c.poll_transmit buf_len now).1 = none ∧
      amp_side (c.poll_transmit buf_len now).2 = amp_side c) ∨
    (∃ t, (c.poll_transmit buf_len now).1 = some t ∧ t.data.length ≤ buf_len ∧
      c.close_frame ≠ none ∧ c.close_level ≠ none ∧
      (c.poll_transmit buf_len now).2.state = .Closed ∧
      amp_side (c.poll_transmit buf_len now).2 = amp_side c) ∨
    ∃ t, (c.poll_transmit buf_len now).1 = some t ∧ c.amplification_allows t.data.length = true ∧
      amp_side (c.poll_transmit buf_len now).2 = (c.anti_amplification_bytes_received,
        (if c.address_validated then c.anti_amplification_bytes_sent
          else saturating_add c.anti_amplification_bytes_sent t.data.length),
        c.address_validated, c.close_frame) := by
  unfold poll_transmit
  split
  · exact .inl ⟨rfl, rfl⟩
  · split
    · exact .inl ⟨rfl, rfl⟩
    · have hkeys := amp_side_build.key_update c
      split
      · rename_i heq
        rw [heq] at hkeys
        exact .inl ⟨rfl, hkeys⟩
      · rename_i c₁ heq
        rw [heq] at hkeys
        have hc₁ : amp_side c₁.rewind_crypto = amp_side c := (amp_side_build.rewind c₁).trans hkeys
        have hframe : c₁.rewind_crypto.close_frame = c.close_frame := by
          simp only [amp_side, Prod.mk.injEq] at hc₁
          exact hc₁.2.2.2
        unfold transmit
        split
        · rename_i error_code reason hclose
          have hside := amp_side_build.transmit_close error_code reason buf_len now c₁.rewind_crypto
          rcases transmit_close_cases error_code reason buf_len now c₁.rewind_crypto with
            hnone | ⟨t, ht, hlen, hlevel, hstate⟩
          · exact .inl ⟨hnone, hside.trans hc₁⟩
          · refine .inr (.inl ⟨t, ht, hlen, ?_, ?_, hstate, hside.trans hc₁⟩)
            · rw [← hframe, hclose]
              exact nofun
            · intro hno
              rw [auto_key_update_of_no_keys hno] at heq
              obtain ⟨-, rfl⟩ := Prod.mk.inj heq
              refine hlevel (Eq.trans ?_ hno)
              unfold rewind_crypto
              split <;> rfl
        · have hbuilt := (amp_side_build.build_packets buf_len now c₁.rewind_crypto).trans hc₁
          dsimp only
          generalize c₁.rewind_crypto.build_packets buf_len now = r at hbuilt ⊢
          obtain ⟨packets, c₂⟩ := r
          dsimp only at hbuilt ⊢
          have hallows := amplification_allows_congr hbuilt
          simp only [amp_side, Prod.mk.injEq] at hbuilt
          obtain ⟨hr, hs, hv, hf⟩ := hbuilt
          rcases emit_cases packets c₂ with ⟨hnone, hsame⟩ | ⟨t, ht, hlimit, hcounted⟩
          · refine .inl ⟨hnone, ?_⟩
            rw [hsame]
            simp only [amp_side, hr, hs, hv, hf]
          · refine .inr (.inr ⟨t, ht, (hallows _).symm.trans hlimit, ?_⟩)
            rw [hcounted, hv]
            split <;> simp only [amp_side, hr, hs, hv, hf]

/-! ## Runs -/

/-- What the counters say about the run so far. A CONNECTION_CLOSE is not in them, but nothing
follows it. -/
structure Counted (trace : List (Connection B × Step)) (c : Connection B) : Prop where
  received : c.anti_amplification_bytes_received ≤ total_received trace
  range : c.anti_amplification_bytes_received ≤ U64_MAX / 3
  within : total_sent trace ≤ 3 * c.anti_amplification_bytes_received
  sent : c.state ≠ .Closed → total_sent trace = c.anti_amplification_bytes_sent

theorem total_received_append (trace : List (Connection B × Step)) (c : Connection B) (s : Step) :
    total_received (trace ++ [(c, s)]) = total_received trace + received s := by
  simp [total_received]

theorem total_sent_append (trace : List (Connection B × Step)) (c : Connection B) (s : Step) :
    total_sent (trace ++ [(c, s)]) = total_sent trace + sent c s := by
  simp [total_sent]

/-- An endpoint whose peer is not validated has counted everything. -/
def Accounts (trace : List (Connection B × Step)) (c : Connection B) : Prop :=
  c.address_validated = false → Counted trace c

theorem accounts_of_uncounted {s : Step}
    (h : Accounts trace c) (hside : Uncounted c c') (hreceived : received s = 0) (hsent : sent c s = 0)
    (hclosed : c.state = .Closed → c'.state = .Closed) : Accounts (trace ++ [(c, s)]) c' := by
  intro hv
  have hv₀ : c.address_validated = false := by
    cases hval : c.address_validated with
    | false => rfl
    | true => rw [hside.validated hval] at hv; cases hv
  have hc := h hv₀
  refine ⟨?_, ?_, ?_, fun hstate => ?_⟩
  · rw [hside.received, total_received_append, hreceived]
    exact hc.received
  · rw [hside.received]
    exact hc.range
  · rw [hside.received, total_sent_append, hsent]
    exact hc.within
  · rw [hside.sent, total_sent_append, hsent]
    exact hc.sent fun h => hstate (hclosed h)

theorem uncounted_of_side (h : amp_side c' = amp_side c) : Uncounted c c' := by
  simp only [amp_side, Prod.mk.injEq] at h
  exact ⟨h.1, h.2.1, fun hv => h.2.2.1.trans hv⟩

theorem accounts_arrive {c : Connection B} (len : Nat)
    (now : Instant) (hrange : c.anti_amplification_bytes_received + len ≤ U64_MAX / 3)
    (h : Accounts trace c) : Accounts (trace ++ [(c, .arrive len now)]) (c.arrive len now) := by
  have hside : (c.arrive len now).address_validated = c.address_validated ∧
      (c.arrive len now).state = c.state ∧
      (c.arrive len now).anti_amplification_bytes_sent = c.anti_amplification_bytes_sent := by
    unfold arrive
    dsimp only
    split <;> exact ⟨rfl, rfl, rfl⟩
  obtain ⟨hval, hstate, hsent⟩ := hside
  intro hv
  rw [hval] at hv
  have hc := h hv
  have hreceived : (c.arrive len now).anti_amplification_bytes_received =
      c.anti_amplification_bytes_received + len := by
    unfold arrive
    dsimp only
    rw [if_neg (by simp [hv])]
    dsimp only
    unfold saturating_add
    omega
  have hreceived₀ := hc.received
  have hwithin := hc.within
  have hnone : sent c (.arrive len now) = 0 := rfl
  refine ⟨?_, ?_, ?_, fun hne => ?_⟩
  · rw [total_received_append, hreceived, received]
    omega
  · rw [hreceived]
    exact hrange
  · rw [total_sent_append, hreceived, hnone]
    omega
  · rw [total_sent_append, hnone, hsent]
    exact hc.sent (hstate ▸ hne)

theorem accounts_poll_transmit {c : Connection B} (buf_len : Nat) (now : Instant)
    (hallowed : CloseAllowed c (.op (.poll_transmit buf_len now))) (h : Accounts trace c) :
    Accounts (trace ++ [(c, .op (.poll_transmit buf_len now))]) (c.poll_transmit buf_len now).2 := by
  have hclosed : c.state = .Closed → (c.poll_transmit buf_len now).2.state = .Closed :=
    fun hc => op_of_closed hc (.poll_transmit buf_len now)
  have hopen : ∀ t, (c.poll_transmit buf_len now).1 = some t → c.state ≠ .Closed := by
    intro t ht hc
    rw [poll_transmit, if_pos hc] at ht
    cases ht
  rcases poll_transmit_cases buf_len now c with ⟨hnone, hside⟩ |
    ⟨t, ht, hlen, hframe, hlevel, hstate, hside⟩ | ⟨t, ht, hlimit, hside⟩
  · refine accounts_of_uncounted h (uncounted_of_side hside) rfl ?_ hclosed
    simp [sent, hnone]
  · intro hv
    have hsent : sent c (.op (.poll_transmit buf_len now)) = t.data.length := by simp [sent, ht]
    simp only [amp_side, Prod.mk.injEq] at hside
    obtain ⟨hr, hs, hval, -⟩ := hside
    have hc := h (hval ▸ hv)
    have hcount := hc.sent (hopen t ht)
    have hfits : c.anti_amplification_bytes_sent + buf_len ≤
        3 * c.anti_amplification_bytes_received := by
      have hlimit := (hallowed.resolve_left hframe).resolve_left hlevel
      rw [hval] at hv
      simpa [amplification_allows, hv] using hlimit
    refine ⟨?_, ?_, ?_, fun hne => absurd hstate hne⟩
    · rw [hr, total_received_append]
      exact Nat.le_add_right_of_le hc.received
    · rw [hr]
      exact hc.range
    · rw [hr, total_sent_append, hsent]
      omega
  · intro hv
    have hsent : sent c (.op (.poll_transmit buf_len now)) = t.data.length := by simp [sent, ht]
    simp only [amp_side, Prod.mk.injEq] at hside
    obtain ⟨hr, hs, hval, -⟩ := hside
    rw [hval] at hv
    have hc := h hv
    have hcount := hc.sent (hopen t ht)
    have hfits : c.anti_amplification_bytes_sent + t.data.length ≤
        3 * c.anti_amplification_bytes_received := by
      simpa [amplification_allows, hv] using hlimit
    have hrange := hc.range
    refine ⟨?_, ?_, ?_, fun _ => ?_⟩
    · rw [hr, total_received_append]
      exact Nat.le_add_right_of_le hc.received
    · rw [hr]
      exact hrange
    · rw [hr, total_sent_append, hsent]
      omega
    · rw [hs, total_sent_append, hsent, if_neg (by simp [hv])]
      unfold saturating_add
      omega

theorem accounts_step (trace : List (Connection B × Step)) (c : Connection B) (s : Step)
    (hlive : Live c s) (hallowed : CloseAllowed c s) (h : Accounts trace c) :
    Accounts (trace ++ [(c, s)]) (s.apply c) := by
  by_cases harrive : ∃ len now, s = .arrive len now
  · obtain ⟨len, now, rfl⟩ := harrive
    exact accounts_arrive len now hallowed h
  · by_cases htransmit : ∃ buf_len now, s = .op (.poll_transmit buf_len now)
    · obtain ⟨buf_len, now, rfl⟩ := htransmit
      exact accounts_poll_transmit buf_len now hallowed h
    · have hside := uncounted_updates.step (fun len now h => harrive ⟨len, now, h⟩)
        (fun buf_len now h => htransmit ⟨buf_len, now, h⟩) c
      have hreceived : received s = 0 := by
        unfold received
        split
        · exact absurd ⟨_, _, rfl⟩ harrive
        · rfl
      have hsent : sent c s = 0 := by
        unfold sent
        split
        · exact absurd ⟨_, _, rfl⟩ htransmit
        · rfl
      refine accounts_of_uncounted h hside hreceived hsent fun hc => ?_
      obtain ⟨o, rfl⟩ := hlive.resolve_right fun hne => hne hc
      exact op_of_closed hc o

/-- In every run whose CONNECTION_CLOSE the limit allows for, an endpoint sends at most three
times what it received until the address of its peer is validated. -/
theorem sent_at_most_three_times_received {c : Connection B} (hstart : Started c) (cs : List Call)
    (hallowed : run.Along Step.apply CloseAllowed c (c.steps cs)) :
    WithinLimit c (c.steps cs) := by
  intro pre hpre hv
  have hok : run.Along Step.apply (fun c s => Live c s ∧ CloseAllowed c s) c pre :=
    fun x hx => ⟨(steps_live c cs).upto hpre x hx, hallowed.upto hpre x hx⟩
  have hinit : Accounts [] c := by
    obtain ⟨role, keys, tls, local_cid, remote_cid, tp, rfl⟩ := hstart.fresh
    exact fun _ => ⟨Nat.le_refl _, Nat.zero_le _, Nat.zero_le _, fun _ => rfl⟩
  have hcounted := run.history Accounts (fun pre c s h => accounts_step pre c s h.1 h.2) hok hinit hv
  exact Nat.le_trans hcounted.within (Nat.mul_le_mul_left 3 hcounted.received)

/-! ## A server that closes early -/

open standin

theorem server_started (tp : TransportParams) : Started (server tp) := .server _ _ _ _ _

/-- An Initial packet of 13 bytes arrives, and the application closes the connection. -/
def early_close : List Call :=
  [.recv [0xc0, 0, 0, 0, 1, 4, 8, 7, 6, 5, 0, 0, 0] 1500 0,
    .op (.close 0 (List.replicate 64 0)), .op (.poll_transmit 1500 0)]

/-- The law at the first flight of a server. -/
theorem first_flight_is_within_limit :
    WithinLimit (server .default_params) ((server .default_params).steps
      [(deliver (client .default_params) (server .default_params)).2.1,
        .op (.poll_transmit 1500 0)]) :=
  sent_at_most_three_times_received (server_started _) _ (by decide +kernel)

/-- The CONNECTION_CLOSE is longer than 39 bytes. -/
theorem close_exceeds_limit : ¬ WithinLimit (server .default_params)
    ((server .default_params).steps early_close) := by
  intro h
  have hrun : ((server .default_params).after
        ((server .default_params).steps early_close)).address_validated = false ∧
      ¬ total_sent (run.trace Step.apply (server .default_params)
          ((server .default_params).steps early_close)) ≤
        3 * total_received (run.trace Step.apply (server .default_params)
          ((server .default_params).steps early_close)) := by decide +kernel
  exact hrun.2 (h _ (List.prefix_refl _) hrun.1)

end milli_http.connection.amplification
