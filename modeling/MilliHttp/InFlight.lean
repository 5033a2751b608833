-- In-flight accounting: the congestion controller counts the bytes of the tracked packets
-- that are in flight. Acknowledged, lost and forgotten packets leave the tracker in ways that
-- do not all leave the count, so the law needs each of them to be one that does.
import MilliHttp.Connection.Updates
import MilliHttp.Standin

open bytes method

namespace milli_http.connection.in_flight

open crypto tls transport packet frame Connection

variable {B : Build} {level : Level} {now : Instant} {c : Connection B}

/-! ## The bytes in flight -/

/-- The bytes of the packets that are in flight. -/
def flight (entries : List SentPacket) : Nat := ((entries.filter (·.in_flight)).map (·.size)).sum

/-- The congestion controller counts the bytes of the tracked packets in flight. -/
def Counted (c : Connection B) : Prop :=
  c.congestion.bytes_in_flight = flight c.sent_tracker.entries

@[simp] theorem flight_nil : flight [] = 0 := rfl

theorem flight_cons (pkt : SentPacket) (entries : List SentPacket) :
    flight (pkt :: entries) = (if pkt.in_flight then pkt.size else 0) + flight entries := by
  unfold flight
  by_cases h : pkt.in_flight = true
  · simp [h]
  · simp [h]

theorem flight_perm {l₁ l₂ : List SentPacket} (h : l₁.Perm l₂) : flight l₁ = flight l₂ :=
  ((h.filter _).map _).sum_nat

theorem flight_append (l₁ l₂ : List SentPacket) : flight (l₁ ++ l₂) = flight l₁ + flight l₂ := by
  simp [flight]

theorem flight_filter {p : SentPacket → Bool} {entries : List SentPacket}
    (h : ∀ pkt ∈ entries, pkt.in_flight = true → p pkt = true) :
    flight (entries.filter p) = flight entries := by
  unfold flight
  rw [List.filter_filter]
  congr 2
  refine List.filter_congr fun pkt hpkt => ?_
  cases hf : pkt.in_flight with
  | false => simp
  | true => simp [h pkt hpkt hf]

theorem flight_of_all {entries : List SentPacket} (h : ∀ pkt ∈ entries, pkt.in_flight = true) :
    flight entries = (entries.map (·.size)).sum := by
  unfold flight
  rw [List.filter_eq_self.mpr h]

/-! ## Acknowledged packets -/

theorem on_packet_acked_bytes (cc : CongestionController) (bytes : Nat) (sent_time : Instant) :
    (cc.on_packet_acked bytes sent_time).bytes_in_flight = cc.bytes_in_flight - bytes := by
  unfold CongestionController.on_packet_acked
  dsimp only
  split
  · rfl
  · split <;> rfl

theorem on_packet_lost_bytes (cc : CongestionController) (bytes : Nat) (sent_time now : Instant) :
    (cc.on_packet_lost bytes sent_time now).bytes_in_flight = cc.bytes_in_flight - bytes := by
  unfold CongestionController.on_packet_lost
  dsimp only
  split <;> rfl

theorem acked_bytes (acked : List SentPacket) (cc : CongestionController) :
    (acked.foldl (fun cc pkt => cc.on_packet_acked pkt.size pkt.time_sent) cc).bytes_in_flight =
      cc.bytes_in_flight - (acked.map (·.size)).sum := by
  induction acked generalizing cc with
  | nil => rfl
  | cons pkt acked ih =>
    rw [List.foldl_cons, ih, on_packet_acked_bytes, List.map_cons, List.sum_cons]
    omega

/-- Whether an ACK acknowledges a packet. -/
def acknowledges (level : Level) (ack : AckFrame) (ranges : List (Nat × Nat)) (pkt : SentPacket) :
    Bool :=
  let first_lo := ack.largest_ack - ack.first_ack_range
  pkt.level == level &&
    ((first_lo, ack.largest_ack) :: SentPacketTracker.more_ranges first_lo ranges).any
      fun (lo, hi) => pkt.pn ≥ lo && pkt.pn ≤ hi

/-- The tracker once the acknowledged packets are out of it. -/
def unacknowledged (level : Level) (ack : AckFrame) (ranges : List (Nat × Nat))
    (t : SentPacketTracker) : SentPacketTracker :=
  (t.on_ack_received level ack.largest_ack ack.first_ack_range ranges).2

theorem unacknowledged_perm (level : Level) (ack : AckFrame) (ranges : List (Nat × Nat))
    (t : SentPacketTracker) : (unacknowledged level ack ranges t).entries.Perm
      (t.entries.filter fun pkt => !acknowledges level ack ranges pkt) :=
  (drain_split (acknowledges level ack ranges) t.entries).2

theorem newly_acked_perm {ack : AckFrame} {ranges : List (Nat × Nat)}
    {t : SentPacketTracker} (h : (t.entries.filter (acknowledges level ack ranges)).length ≤ 32) :
    (t.on_ack_received level ack.largest_ack ack.first_ack_range ranges).1.newly_acked.Perm
      (t.entries.filter (acknowledges level ack ranges)) := by
  have hperm := (drain_split (acknowledges level ack ranges) t.entries).1
  have htake : (t.on_ack_received level ack.largest_ack ack.first_ack_range ranges).1.newly_acked =
      (drain (acknowledges level ack ranges) t.entries.length 0 t.entries).2.take 32 := rfl
  rw [htake, List.take_of_length_le (hperm.length_eq ▸ h)]
  exact hperm

/-! ## Lost packets -/

/-- The packets an ACK declares lost. -/
def declared_lost (level : Level) (now : Instant) (ack : AckFrame) (ranges : List (Nat × Nat))
    (c : Connection B) : List Nat :=
  let acked := (c.sent_tracker.on_ack_received level ack.largest_ack ack.first_ack_range ranges).1
  let ld := c.loss_detector.on_ack_received level ack.largest_ack
  let ld := match acked.largest_newly_acked with
    | none => ld
    | some largest =>
      let ld := if largest.time_sent > 0 ∧ now ≥ largest.time_sent then
          ld.update_rtt (now - largest.time_sent) ack.ack_delay (decide (c.state = ConnectionState.Active))
        else ld
      ld.reset_pto_count
  (ld.detect_lost_packets level (unacknowledged level ack ranges c.sent_tracker) now).1

/-- What the tracker and the controller have in common is kept when all lost packets are in
flight. -/
theorem remove_lost_counted (level : Level) (now : Instant) (lost : List Nat)
    {s : SentPacketTracker × CongestionController}
    (hlost : ∀ pkt ∈ s.1.entries, pkt.level = level → pkt.pn ∈ lost → pkt.in_flight = true)
    (h : s.2.bytes_in_flight = flight s.1.entries) :
    (remove_lost level now lost s).2.bytes_in_flight =
        flight (remove_lost level now lost s).1.entries ∧
      (remove_lost level now lost s).1.entries ⊆ s.1.entries := by
  induction lost generalizing s with
  | nil => exact ⟨h, List.Subset.refl _⟩
  | cons pn rest ih =>
    obtain ⟨t, cc⟩ := s
    unfold remove_lost
    rcases t.remove_cases level pn with hnone | ⟨pkt, hlevel, hpn, hsome, hperm⟩
    · rw [hnone]
      exact ih (fun pkt hpkt hl hp => hlost pkt hpkt hl (List.mem_cons_of_mem _ hp)) h
    · rcases hr : t.remove level pn with ⟨removed, t'⟩
      rw [hr] at hsome hperm
      dsimp only at hsome hperm
      subst hsome
      have hmem : pkt ∈ t.entries := hperm.subset List.mem_cons_self
      have hsub : t'.entries ⊆ t.entries := fun x hx => hperm.subset (List.mem_cons_of_mem _ hx)
      have hflies := hlost pkt hmem hlevel (hpn ▸ List.mem_cons_self)
      have hflight := flight_perm hperm
      rw [flight_cons, hflies, if_pos rfl] at hflight
      dsimp only at h
      obtain ⟨hcount, hsub'⟩ := ih (s := (t', cc.on_packet_lost pkt.size pkt.time_sent now))
        (fun x hx hl hp => hlost x (hsub hx) hl (List.mem_cons_of_mem _ hp))
        (by rw [on_packet_lost_bytes]; dsimp only; omega)
      exact ⟨hcount, fun x hx => hsub (hsub' hx)⟩

/-- Every packet an ACK takes out of the tracker is in flight, and no more than 32 are
acknowledged. -/
structure AckCounts (level : Level) (now : Instant) (ack : AckFrame) (ranges : List (Nat × Nat))
    (c : Connection B) : Prop where
  acked : ∀ pkt ∈ c.sent_tracker.entries, acknowledges level ack ranges pkt = true →
    pkt.in_flight = true
  lost : ∀ pkt ∈ c.sent_tracker.entries, pkt.level = level →
    pkt.pn ∈ declared_lost level now ack ranges c → pkt.in_flight = true
  few : (c.sent_tracker.entries.filter (acknowledges level ack ranges)).length ≤ 32

theorem on_ack_counted {ack : AckFrame} {ranges : List (Nat × Nat)}
    (hack : AckCounts level now ack ranges c) (h : Counted c) :
    Counted (on_ack level now ack ranges c) ∧
      (on_ack level now ack ranges c).sent_tracker.entries ⊆ c.sent_tracker.entries := by
  have hkept := unacknowledged_perm level ack ranges c.sent_tracker
  have hacked := newly_acked_perm hack.few
  have hsub : (unacknowledged level ack ranges c.sent_tracker).entries ⊆ c.sent_tracker.entries :=
    fun pkt hpkt => (List.mem_filter.mp (hkept.subset hpkt)).1
  have hsplit : flight c.sent_tracker.entries =
      flight (c.sent_tracker.entries.filter (acknowledges level ack ranges)) +
        flight (unacknowledged level ack ranges c.sent_tracker).entries := by
    rw [flight_perm hkept, ← flight_append]
    exact (flight_perm (List.filter_append_perm _ _)).symm
  have hsizes := (hacked.map (·.size)).sum_nat
  rw [← flight_of_all fun pkt hpkt => hack.acked pkt (List.mem_filter.mp hpkt).1
    (List.mem_filter.mp hpkt).2] at hsizes
  have hcount : ((c.sent_tracker.on_ack_received level ack.largest_ack ack.first_ack_range
        ranges).1.newly_acked.foldl (fun cc pkt => cc.on_packet_acked pkt.size pkt.time_sent)
        c.congestion).bytes_in_flight =
      flight (unacknowledged level ack ranges c.sent_tracker).entries := by
    rw [acked_bytes, hsizes]
    unfold Counted at h
    omega
  obtain ⟨hdone, hsub'⟩ := remove_lost_counted level now (declared_lost level now ack ranges c)
    (s := (unacknowledged level ack ranges c.sent_tracker, _))
    (fun pkt hpkt hl hp => hack.lost pkt (hsub hpkt) hl hp) hcount
  exact ⟨hdone, fun x hx => hsub (hsub' hx)⟩

/-! ## Packet number spaces -/

/-- Packets are tracked only of levels there are send keys for. -/
def Keyed (c : Connection B) : Prop :=
  ∀ pkt ∈ c.sent_tracker.entries, c.keys.has_send_keys pkt.level = true

/-- Spaces may be dropped, with their keys and their packets. Nothing else happens to the
packets and the count. -/
structure Drops (c c' : Connection B) : Prop where
  congestion : c'.congestion = c.congestion
  packets : ∃ dropped : Level → Bool,
    c'.sent_tracker.entries.Perm (c.sent_tracker.entries.filter fun pkt => !dropped pkt.level) ∧
    (∀ level, dropped level = true → c'.keys.has_send_keys level = false) ∧
    ∀ level, dropped level = false → c.keys.has_send_keys level = true →
      c'.keys.has_send_keys level = true

/-- The tracker and the controller. -/
def flight_side (c : Connection B) : SentPacketTracker × CongestionController :=
  (c.sent_tracker, c.congestion)

/-- A step that leaves both alone and takes no keys drops nothing. -/
theorem drops_nothing {c c' : Connection B} (hside : flight_side c' = flight_side c)
    (hkeys : ∀ level, c.keys.has_send_keys level = true → c'.keys.has_send_keys level = true) :
    Drops c c' := by
  simp only [flight_side, Prod.mk.injEq] at hside
  refine ⟨hside.2, fun _ => false, ?_, nofun, fun level _ => hkeys level⟩
  rw [hside.1]
  simp

/-- When no packet in flight is dropped, the count stays right. -/
theorem Drops.keeps {c c' : Connection B} (h : Drops c c')
    (hflies : ∀ pkt ∈ c.sent_tracker.entries, pkt.in_flight = true →
      c'.keys.has_send_keys pkt.level = true)
    (hc : Counted c ∧ Keyed c) : Counted c' ∧ Keyed c' := by
  obtain ⟨dropped, hperm, hdropped, hkept⟩ := h.packets
  constructor
  · unfold Counted
    rw [h.congestion, flight_perm hperm, flight_filter fun pkt hpkt hf => ?_]
    · exact hc.1
    · cases hd : dropped pkt.level with
      | false => rfl
      | true =>
        have hkeys := hflies pkt hpkt hf
        rw [hdropped pkt.level hd] at hkeys
        cases hkeys
  · intro pkt hpkt
    obtain ⟨hmem, hnot⟩ := List.mem_filter.mp (hperm.subset hpkt)
    exact hkept pkt.level (by simpa using hnot) (hc.2 pkt hmem)

theorem flight_side_parts : KeptByParts (B := B) (Method.Same flight_side) where
  keys _ _ := rfl
  slot _ _ := rfl
  state _ _ _ := rfl
  events _ _ := rfl
  remote_cid _ _ := rfl
  streams _ _ := rfl
  flow_control _ _ := rfl
  sio _ _ := rfl
  path_response _ _ := rfl
  record pr c := by
    unfold record_packet
    split <;> rfl

theorem flight_side_ops : KeptByOps (B := B) (Method.Same flight_side) where
  toKeptByPlain := flight_side_parts.toKeptByPlain
  closed _ := rfl
  pto _ _ := rfl
  close _ _ := rfl
  key_update := flight_side_parts.on_keys _

/-! ## The handshake -/

/-- What the handshake can do: the Initial space ends for good, and when the Handshake space
ends the handshake is over. -/
structure Advances (c c' : Connection B) : Prop where
  congestion : c'.congestion = c.congestion
  no_initial : c.keys.initial_send = none → c'.keys.initial_send = none
  ended : c.handshake_slot = none → c'.handshake_slot = none ∧ c'.keys = c.keys
  packets : ∃ dropped : Level → Bool,
    c'.sent_tracker.entries.Perm (c.sent_tracker.entries.filter fun pkt => !dropped pkt.level) ∧
    dropped .Application = false ∧
    (dropped .Initial = true → c'.keys.initial_send = none) ∧
    (dropped .Handshake = true → c'.keys.handshake_send = none ∧ c'.handshake_slot = none) ∧
    ∀ level, dropped level = false → c.keys.has_send_keys level = true →
      c'.keys.has_send_keys level = true

instance : IsPreorder (Connection B) Advances where
  refl c := by
    refine ⟨rfl, id, fun h => ⟨h, rfl⟩, fun _ => false, ?_, rfl, nofun, nofun, fun _ _ => id⟩
    simp
  trans c c₁ c₂ h₁ h₂ := by
    obtain ⟨d₁, hperm₁, happ₁, hini₁, hhs₁, hkept₁⟩ := h₁.packets
    obtain ⟨d₂, hperm₂, happ₂, hini₂, hhs₂, hkept₂⟩ := h₂.packets
    refine ⟨h₂.congestion.trans h₁.congestion, fun h => h₂.no_initial (h₁.no_initial h), fun h => ?_,
      fun level => d₁ level || d₂ level, ?_, ?_, fun h => ?_, fun h => ?_, fun level h hk => ?_⟩
    · obtain ⟨hs₁, hk₁⟩ := h₁.ended h
      obtain ⟨hs₂, hk₂⟩ := h₂.ended hs₁
      exact ⟨hs₂, hk₂.trans hk₁⟩
    · refine hperm₂.trans ((hperm₁.filter _).trans ?_)
      rw [List.filter_filter]
      refine List.Perm.of_eq (List.filter_congr fun pkt _ => ?_)
      simp [Bool.and_comm]
    · simp [happ₁, happ₂]
    · rcases (Bool.or_eq_true _ _).mp h with h | h
      · exact h₂.no_initial (hini₁ h)
      · exact hini₂ h
    · rcases (Bool.or_eq_true _ _).mp h with h | h
      · obtain ⟨hk, hs⟩ := hhs₁ h
        obtain ⟨hs', hk'⟩ := h₂.ended hs
        exact ⟨by rw [hk', hk], hs'⟩
      · exact hhs₂ h
    · simp only [Bool.or_eq_false_iff] at h
      exact hkept₂ level h.2 (hkept₁ level h.1 hk)

theorem Advances.drops {c c' : Connection B} (h : Advances c c') : Drops c c' := by
  obtain ⟨dropped, hperm, happ, hini, hhs, hkept⟩ := h.packets
  refine ⟨h.congestion, dropped, hperm, fun level hd => ?_, hkept⟩
  cases level with
  | Initial => simp [ConnectionKeys.has_send_keys, hini hd]
  | Handshake => simp [ConnectionKeys.has_send_keys, ConnectionKeys.send_keys, (hhs hd).1]
  | Application =>
    rw [happ] at hd
    cases hd

/-- Neither packets nor keys leave, and a handshake that is over stays over. -/
theorem advances_of_side {c c' : Connection B} (hside : flight_side c' = flight_side c)
    (hslot : c.handshake_slot = none → c'.handshake_slot = none ∧ c'.keys = c.keys)
    (hinitial : c'.keys.initial_send = c.keys.initial_send)
    (hkeys : ∀ level, c.keys.has_send_keys level = true → c'.keys.has_send_keys level = true) :
    Advances c c' := by
  simp only [flight_side, Prod.mk.injEq] at hside
  refine ⟨hside.2, fun h => hinitial.trans h, hslot, fun _ => false, ?_, rfl, nofun, nofun,
    fun level _ => hkeys level⟩
  rw [hside.1]
  simp

/-- The keys and the slot are as they were. -/
theorem advances_of_eq {c c' : Connection B} (hside : flight_side c' = flight_side c)
    (hslot : c.handshake_slot = none → c'.handshake_slot = none) (hkeys : c'.keys = c.keys) :
    Advances c c' :=
  advances_of_side hside (fun h => ⟨hslot h, hkeys⟩) (by rw [hkeys]) (fun _ h => by rwa [hkeys])

theorem drop_space_perm (t : SentPacketTracker) (level : Level) :
    (t.drop_space level).entries.Perm (t.entries.filter fun pkt => !(pkt.level == level)) :=
  (drain_split (fun pkt => pkt.level == level) t.entries).2

theorem advances_release (c : Connection B) : Advances c c.maybe_release_handshake_slot := by
  rcases maybe_release_cases c with h | ⟨ctx, -, -, h⟩
  · rw [h]
    exact refl c
  · rw [h]
    exact advances_of_eq rfl (fun _ => rfl) rfl

theorem advances_learn_params (c : Connection B) : Advances c c.learn_params := by
  unfold learn_params
  split
  · exact advances_of_eq rfl id rfl
  · exact refl c

theorem advances_keys_taken {ctx : HandshakeContext}
    (hslot : c.handshake_slot = some ctx) (derived : DerivedKeys) :
    Advances c (c.keys_taken ctx derived) := by
  have hover : c.handshake_slot = none → (c.keys_taken ctx derived).handshake_slot = none ∧
      (c.keys_taken ctx derived).keys = c.keys := by
    intro h
    rw [hslot] at h
    cases h
  rcases ConnectionKeys.install_derived_cases derived c.keys with
    ⟨-, h⟩ | ⟨-, send, recv, h⟩ | ⟨-, send, recv, key_update, h⟩
  · exact advances_of_side rfl hover (by rw [keys_taken, h]) (fun level hk => by rwa [keys_taken, h])
  · refine advances_of_side rfl hover (by rw [keys_taken, h]) fun level hk => ?_
    rw [keys_taken, h]
    cases level with
    | Handshake => rfl
    | _ => exact hk
  · refine advances_of_side rfl hover (by rw [keys_taken, h]) fun level hk => ?_
    rw [keys_taken, h]
    cases level with
    | Application => rfl
    | _ => exact hk

theorem advances_discard_initial (hslot : c.handshake_slot ≠ none) :
    Advances c c.discard_initial := by
  refine ⟨rfl, fun _ => rfl, fun h => absurd h hslot, fun level => level == .Initial,
    drop_space_perm _ _, rfl, fun _ => rfl, nofun, fun level hd hk => ?_⟩
  cases level with
  | Initial => cases hd
  | _ => exact hk

/-- A server that gets its application keys ends the Handshake space and is done. -/
theorem advances_connected (hslot : c.handshake_slot ≠ none)
    (hrole : c.role = .Server) : Advances c (maybe_release_handshake_slot (learn_params
      (discard_handshake (push_event { c with state := .Active, address_validated := true }
        .Connected)))) := by
  have hpushed : ∀ c : Connection B, flight_side (c.push_event .Connected) = flight_side c ∧
      (c.push_event .Connected).keys = c.keys ∧ (c.push_event .Connected).role = c.role ∧
      (c.push_event .Connected).state = c.state ∧
      (c.push_event .Connected).handshake_slot = c.handshake_slot := by
    intro c
    unfold push_event
    split <;> exact ⟨rfl, rfl, rfl, rfl, rfl⟩
  obtain ⟨hside, hkeys, hrole', hstate, hslot'⟩ :=
    hpushed { c with state := .Active, address_validated := true }
  generalize push_event { c with state := .Active, address_validated := true } .Connected = c₁ at *
  have hlearned : flight_side (learn_params c₁.discard_handshake) = flight_side c₁.discard_handshake ∧
      (learn_params c₁.discard_handshake).keys = c₁.discard_handshake.keys ∧
      (learn_params c₁.discard_handshake).role = c₁.role ∧
      (learn_params c₁.discard_handshake).state = c₁.state := by
    unfold learn_params
    split <;> exact ⟨rfl, rfl, rfl, rfl⟩
  obtain ⟨hside₂, hkeys₂, hrole₂, hstate₂⟩ := hlearned
  generalize learn_params c₁.discard_handshake = c₂ at *
  have hreleased : c₂.maybe_release_handshake_slot = { c₂ with handshake_slot := none } := by
    unfold maybe_release_handshake_slot
    split
    · rename_i hnone
      rw [← hnone]
    · rw [if_pos]
      simp [can_release, hrole₂, hrole', hrole, hstate₂, hstate]
  rw [hreleased]
  simp only [flight_side, Prod.mk.injEq] at hside hside₂
  have hsend : c₂.keys = c.keys.drop_handshake := by
    rw [hkeys₂]
    change c₁.keys.drop_handshake = _
    rw [hkeys]
  refine ⟨hside₂.2.trans hside.2, fun h => ?_, fun h => absurd h hslot,
    fun level => level == .Handshake, ?_, rfl, nofun, fun _ => ⟨?_, rfl⟩, fun level hd hk => ?_⟩
  · rw [hsend]
    exact h
  · change c₂.sent_tracker.entries.Perm _
    rw [hside₂.1]
    change (c₁.sent_tracker.drop_space .Handshake).entries.Perm _
    rw [hside.1]
    exact drop_space_perm _ _
  · rw [hsend]
    rfl
  · rw [hsend]
    cases level with
    | Handshake => cases hd
    | _ => exact hk

theorem advances_check_tls_keys : Method.Keeps Advances (check_tls_keys (B := B)) := by
  intro c
  rcases check_tls_keys_cases c with h | ⟨ctx, derived, hslot, -, h | ⟨-, h⟩⟩
  · rw [h]
    exact advances_release c
  · rw [h]
    exact advances_keys_taken hslot derived
  · rw [h]
    have htaken := advances_keys_taken hslot derived
    have hthere : (c.keys_taken ctx derived).handshake_slot ≠ none := nofun
    generalize c.keys_taken ctx derived = c₁ at htaken hthere
    have hrest : ∀ c₂ : Connection B, Advances c₁ c₂ →
        Advances c c₂.learn_params.maybe_release_handshake_slot := fun c₂ h₂ =>
      IsTrans.trans _ _ _ htaken (IsTrans.trans _ _ _ h₂
        (IsTrans.trans _ _ _ (advances_learn_params c₂) (advances_release _)))
    cases derived.level with
    | Initial => exact hrest c₁ (refl c₁)
    | Handshake =>
      simp only [keys_installed]
      split
      · exact hrest _ (advances_discard_initial hthere)
      · exact hrest c₁ (refl c₁)
    | Application =>
      simp only [keys_installed]
      split
      · rename_i hserver
        exact IsTrans.trans _ _ _ htaken (advances_connected hthere hserver.1)
      · exact hrest c₁ (refl c₁)

theorem advances_crypto (level : Level) (offset : Nat) (data : Bytes) :
    Method.Keeps Advances (handle_crypto_frame (B := B) level offset data) := by
  refine handle_crypto_frame_keeps (fun _ _ c => ?_) (fun _ _ c => ?_) advances_check_tls_keys level
    offset data
  · refine advances_of_eq rfl (fun h => ?_) rfl
    simp only [map_reasm, h, Option.map_none]
  · rw [on_tls_run]
    refine advances_of_eq rfl (fun h => ?_) rfl
    simp only [map_tls, h, Option.map_none]

/-! ## Steps of `recv` -/

theorem drops_discard_initial (c : Connection B) : Drops c c.discard_initial := by
  refine ⟨rfl, fun level => level == .Initial, drop_space_perm _ _, fun level hd => ?_,
    fun level hd hk => ?_⟩
  · rw [eq_of_beq hd]
    rfl
  · cases level with
    | Initial => cases hd
    | _ => exact hk

theorem drops_handshake_done (c : Connection B) : Drops c c.handshake_done := by
  unfold handshake_done
  split
  · exact drops_nothing rfl fun _ h => h
  · generalize hc₁ : (if c.state = .Handshaking then
      push_event { c with state := .Active, address_validated := true } .Connected else c) = c₁
    have hside : flight_side c₁ = flight_side c ∧ c₁.keys = c.keys := by
      rw [← hc₁]
      split
      · unfold push_event
        split <;> exact ⟨rfl, rfl⟩
      · exact ⟨rfl, rfl⟩
    obtain ⟨hside, hkeys⟩ := hside
    simp only [flight_side, Prod.mk.injEq] at hside
    refine ⟨hside.2, fun level => level == .Handshake, ?_, fun level hd => ?_, fun level hd hk => ?_⟩
    · change (c₁.sent_tracker.drop_space .Handshake).entries.Perm _
      rw [hside.1]
      exact drop_space_perm _ _
    · rw [eq_of_beq hd]
      rfl
    · change c₁.keys.drop_handshake.has_send_keys level = true
      rw [hkeys]
      cases level with
      | Handshake => cases hd
      | _ => exact hk

theorem drops_open_initial (pkt_data : Bytes) (scratch_len : Nat) (c : Connection B) :
    Drops c (c.open_kind .Initial pkt_data scratch_len).2 := by
  refine drops_nothing (flight_side_parts.open_kind _ _ _ c) fun level hk => ?_
  rcases open_initial_cases pkt_data scratch_len c with h | ⟨hdr, -, h⟩
  · rwa [h]
  · rw [h]
    have hcid : ∀ c : Connection B, (learn_remote_cid hdr c).keys = c.keys := by
      intro c
      unfold learn_remote_cid
      split <;> rfl
    rcases learn_initial_cases hdr c with ⟨-, h⟩ | ⟨-, send, recv, h⟩
    · rw [h, hcid]
      exact hk
    · rw [h, hcid]
      have hrecorded : ∀ c : Connection B, (record_cids hdr c).keys = c.keys := by
        intro c
        unfold record_cids
        split <;> rfl
      rw [hrecorded]
      cases level with
      | Initial => rfl
      | _ => exact hk

/-- Every step but an ACK and a call of `poll_transmit` only drops spaces. -/
theorem drops_step {s : Step} (hack : ∀ level now ack, s ≠ .dispatch level now (.Ack ack))
    (htransmit : ∀ buf_len now, s ≠ .op (.poll_transmit buf_len now)) (c : Connection B) :
    Drops c (s.apply c) := by
  have hcalm : moves_handshake s = false → flight_side (s.apply c) = flight_side c →
      Drops c (s.apply c) :=
    fun hs hside => drops_nothing hside (calm_step hs c).send_keys
  cases s with
  | arrive len now =>
    refine hcalm rfl ?_
    simp only [Step.apply, arrive]
    split <;> rfl
  | open_packet kind pkt_data scratch_len =>
    cases kind with
    | Initial => exact drops_open_initial pkt_data scratch_len c
    | _ => exact hcalm rfl (flight_side_parts.open_kind _ _ _ c)
  | dispatch level now frame =>
    cases hf : is_handshake_frame frame with
    | false => exact hcalm hf (flight_side_parts.plain_frame hf (fun ack h => hack level now ack
        (by rw [h])) level now c)
    | true =>
      cases frame with
      | Crypto crypto => exact (advances_crypto level _ _ c).drops
      | HandshakeDone => exact drops_handshake_done c
      | _ => cases hf
  | initial_done =>
    simp only [Step.apply, initial_done]
    split
    · exact drops_discard_initial c
    · exact drops_nothing rfl fun _ h => h
  | record pr => exact hcalm rfl (flight_side_parts.record pr c)
  | check_tls_keys => exact (advances_check_tls_keys c).drops
  | op o =>
    have ho : ∀ buf_len now, o ≠ .poll_transmit buf_len now := fun buf_len now h =>
      htransmit buf_len now (by rw [h])
    refine hcalm ?_ (flight_side_ops.op ho c)
    cases o with
    | poll_transmit buf_len now => exact absurd rfl (ho buf_len now)
    | _ => rfl

/-! ## Transmitting -/

/-- The role stays, and no send keys are taken. -/
structure KeepsKeys (c c' : Connection B) : Prop where
  role : c'.role = c.role
  send : ∀ level, c.keys.has_send_keys level = true → c'.keys.has_send_keys level = true

instance : IsPreorder (Connection B) KeepsKeys where
  refl _ := ⟨rfl, fun _ => id⟩
  trans _ _ _ h₁ h₂ := ⟨h₂.role.trans h₁.role, fun level h => h₂.send level (h₁.send level h)⟩

theorem keepsKeys_transmit : KeptByTransmit (B := B) KeepsKeys := by
  refine .of_calm (fun _ _ h => ⟨h.role, h.send_keys⟩) (fun _ => ⟨rfl, fun _ => id⟩) fun c => ?_
  rcases maybe_release_cases c with h | ⟨ctx, -, -, h⟩
  · rw [h]
    exact refl c
  · rw [h]
    exact ⟨rfl, fun _ => id⟩

/-- Frames are drained, but nothing is sent. -/
def Idle (c c' : Connection B) : Prop := Method.Same flight_side c c' ∧ KeepsKeys c c'

instance : IsPreorder (Connection B) Idle where
  refl c := ⟨rfl, refl c⟩
  trans _ _ _ h₁ h₂ := ⟨h₂.1.trans h₁.1, IsTrans.trans _ _ _ h₁.2 h₂.2⟩

theorem idle_drain : KeptByDrain (B := B) Idle :=
  KeptByDrain.and
    (.of_fields flight_side_parts.toKeptByFields (fun _ => rfl) (fun _ _ => rfl) (fun _ _ => rfl)
      (fun _ _ => rfl))
    keepsKeys_transmit.toKeptByDrain

theorem Idle.keeps {c c' : Connection B} (h : Idle c c') (hc : Counted c ∧ Keyed c) :
    Counted c' ∧ Keyed c' := by
  obtain ⟨hside, hkeys⟩ := h
  simp only [Method.Same, flight_side, Prod.mk.injEq] at hside
  constructor
  · unfold Counted
    rw [hside.1, hside.2]
    exact hc.1
  · intro pkt hpkt
    rw [hside.1] at hpkt
    exact hkeys.send pkt.level (hc.2 pkt hpkt)

theorem Idle.entries {c c' : Connection B} (h : Idle c c') :
    c'.sent_tracker.entries = c.sent_tracker.entries := by
  have hside := h.1
  simp only [Method.Same, flight_side, Prod.mk.injEq] at hside
  rw [hside.1]

/-- A packet that is booked is tracked and counted, if there is room for it. -/
theorem packet_sent_counted {size : Nat} {in_flight : Bool}
    (ack_eliciting : Bool) (now : Instant) (hkeys : c.keys.has_send_keys level = true)
    (hroom : in_flight = true → c.sent_tracker.entries.length < B.SENT_PER_SPACE ∧ size < 2 ^ 16)
    (h : Counted c ∧ Keyed c) :
    (Counted (c.packet_sent level size ack_eliciting in_flight now) ∧
      Keyed (c.packet_sent level size ack_eliciting in_flight now)) ∧
    (c.packet_sent level size ack_eliciting in_flight now).sent_tracker.entries.length ≤
      c.sent_tracker.entries.length + 1 := by
  obtain ⟨hcount, hkeyed⟩ := h
  unfold Counted Keyed packet_sent SentPacketTracker.on_packet_sent
  dsimp only
  by_cases hfull : c.sent_tracker.entries.length ≥ B.SENT_PER_SPACE
  · have hnot : in_flight = false := by
      cases in_flight with
      | false => rfl
      | true => exact absurd (hroom rfl).1 (by omega)
    rw [if_pos hfull, hnot]
    exact ⟨⟨hcount, hkeyed⟩, Nat.le_succ _⟩
  · rw [if_neg hfull]
    refine ⟨⟨?_, fun pkt hpkt => ?_⟩, by simp⟩
    · rw [flight_append, flight_cons, flight_nil]
      cases in_flight with
      | false => simpa using (show c.congestion.bytes_in_flight = _ from hcount)
      | true =>
        have hsize := Nat.mod_eq_of_lt (hroom rfl).2
        simp only [if_true, CongestionController.on_packet_sent, hsize]
        unfold Counted at hcount
        omega
    · rcases List.mem_append.mp hpkt with hpkt | hpkt
      · exact hkeyed pkt hpkt
      · rw [List.mem_singleton.mp hpkt]
        exact hkeys

/-- The packet finds a place in the tracker, and its size fits the tracker's field. -/
def Fits (c : Connection B) (i : Nat) (pkt : Packet) : Prop :=
  Flies c pkt → c.sent_tracker.entries.length + i < B.SENT_PER_SPACE ∧ pkt.data.length < 2 ^ 16

theorem build_counted {cap : Nat} {build : Connection B → Option Packet × Connection B}
    (hbuild : ∀ c, Builds Idle level cap now c (build c))
    (hfits : ∀ pkt, (c.build_with_keys level build).1 = some pkt → Fits c 0 pkt)
    (h : Counted c ∧ Keyed c) :
    (Counted (c.build_with_keys level build).2 ∧ Keyed (c.build_with_keys level build).2) ∧
    (c.build_with_keys level build).2.role = c.role ∧
    (c.build_with_keys level build).2.sent_tracker.entries.length ≤
      c.sent_tracker.entries.length + (c.build_with_keys level build).1.toList.length := by
  unfold build_with_keys at hfits ⊢
  split
  · rename_i hkeys
    rw [if_pos hkeys] at hfits
    rcases hbuild c with ⟨hnone, hidle⟩ |
      ⟨d, p, pkt, ack_eliciting, in_flight, hidle, hsome, -, -, hflies, hrest⟩
    · rw [hnone]
      exact ⟨hidle.keeps h, hidle.2.role, Nat.le_of_eq (by rw [hidle.entries]; rfl)⟩
    · have hroom : in_flight = true →
          d.sent_tracker.entries.length < B.SENT_PER_SPACE ∧ pkt.data.length < 2 ^ 16 := by
        intro hf
        rw [hidle.entries]
        exact hfits pkt hsome (hflies hf)
      obtain ⟨hsent, hlen⟩ := packet_sent_counted ack_eliciting now (hidle.2.send level hkeys) hroom
        (hidle.keeps h)
      refine ⟨hrest.keeps hsent, hrest.2.role.trans hidle.2.role, ?_⟩
      rw [hrest.entries, hsome]
      rw [hidle.entries] at hlen
      exact hlen
  · exact ⟨h, rfl, Nat.le_refl _⟩

/-- Every packet of a datagram fits. -/
def AllFit (c : Connection B) (packets : List Packet) : Prop :=
  ∀ x ∈ packets.zipIdx, Fits c x.2 x.1

theorem AllFit.at {packets : List Packet} (h : AllFit c packets) {i : Nat}
    {pkt : Packet} (hpkt : packets[i]? = some pkt) : Fits c i pkt :=
  h (pkt, i) (List.mk_mem_zipIdx_iff_getElem?.mpr hpkt)

/-- Packets that follow `n` others need as many places more. -/
theorem fits_of_le {c c' : Connection B} {i n : Nat} {pkt : Packet} (h : Fits c i pkt)
    (hrole : c'.role = c.role)
    (hlen : c'.sent_tracker.entries.length ≤ c.sent_tracker.entries.length + n) (hn : n ≤ i) :
    Fits c' 0 pkt := by
  intro hf
  have hflies : Flies c pkt := by
    unfold Flies at hf ⊢
    rwa [hrole] at hf
  obtain ⟨hplace, hsize⟩ := h hflies
  exact ⟨by omega, hsize⟩

theorem build_packets_counted {buf_len : Nat}
    (hfit : AllFit c (c.build_packets buf_len now).1) (h : Counted c ∧ Keyed c) :
    Counted (c.build_packets buf_len now).2 ∧ Keyed (c.build_packets buf_len now).2 := by
  unfold Connection.build_packets build_long_packets at hfit ⊢
  dsimp only at hfit ⊢
  -- The three builds, each with the packets before it.
  generalize hr₁ : c.build_with_keys .Initial (build_initial_packet buf_len now) = r₁ at hfit ⊢
  generalize hr₂ : r₁.2.build_with_keys .Handshake
    (build_handshake_packet (buf_len - packet_length r₁.1) now) = r₂ at hfit ⊢
  generalize hr₃ : r₂.2.maybe_release_handshake_slot.build_with_keys .Application
    (build_short_packet (buf_len - packet_length r₁.1 - packet_length r₂.1) now) = r₃ at hfit ⊢
  have h₁ := build_counted (idle_drain.build_initial_packet buf_len now) (c := c) (fun pkt hpkt => ?_) h
  · rw [hr₁] at h₁
    obtain ⟨hc₁, hrole₁, hlen₁⟩ := h₁
    have h₂ := build_counted (idle_drain.build_handshake_packet (buf_len - packet_length r₁.1) now)
      (c := r₁.2) (fun pkt hpkt => ?_) hc₁
    · rw [hr₂] at h₂
      obtain ⟨hc₂, hrole₂, hlen₂⟩ := h₂
      have hrelease := idle_drain.release r₂.2
      have h₃ := build_counted (idle_drain.build_short_packet
        (buf_len - packet_length r₁.1 - packet_length r₂.1) now)
        (c := r₂.2.maybe_release_handshake_slot) (fun pkt hpkt => ?_) (hrelease.keeps hc₂)
      · rw [hr₃] at h₃
        exact h₃.1
      · rw [hr₃] at hpkt
        refine fits_of_le (hfit.at (i := (r₁.1.toList ++ r₂.1.toList).length) ?_)
          (hrelease.2.role.trans (hrole₂.trans hrole₁))
          (n := (r₁.1.toList ++ r₂.1.toList).length) ?_ (Nat.le_refl _)
        · simp [hpkt]
        · rw [hrelease.entries, List.length_append]
          omega
    · rw [hr₂] at hpkt
      refine fits_of_le (hfit.at (i := r₁.1.toList.length) ?_) hrole₁ hlen₁ (Nat.le_refl _)
      simp [hpkt, List.append_assoc]
  · rw [hr₁] at hpkt
    exact hfit.at (by simp [hpkt])

/-- The packets a call of `poll_transmit` seals, also if the datagram is not sent after all. A
CONNECTION_CLOSE is not among them. -/
def sealed_packets (buf_len : Nat) (now : Instant) (c : Connection B) : List Packet :=
  if c.state = .Closed then []
  else if c.amplification_allows 1 = false then []
  else
    match auto_key_update c with
    | (.error _, _) => []
    | (.ok _, c) =>
      match c.rewind_crypto.close_frame with
      | some _ => []
      | none => (c.rewind_crypto.build_packets buf_len now).1

theorem close_level_keys (h : c.close_level = some level) : c.keys.has_send_keys level = true := by
  unfold close_level at h
  split at h
  · cases h
    assumption
  · split at h
    · cases h
      assumption
    · split at h
      · cases h
        assumption
      · cases h

theorem transmit_close_counted (error_code : Nat) (reason : Bytes) (buf_len : Nat) (now : Instant)
    (h : Counted c ∧ Keyed c) :
    Counted (c.transmit_close error_code reason buf_len now).2 ∧
      Keyed (c.transmit_close error_code reason buf_len now).2 := by
  unfold transmit_close
  split
  · exact h
  · rename_i level hlevel
    refine (idle_drain.closed _).keeps ?_
    rcases idle_drain.build_close_packet level _ buf_len now c with ⟨-, hidle⟩ | ⟨p, pkt, -, -, -, hidle⟩
    · exact hidle.keeps h
    · exact hidle.keeps
        (packet_sent_counted false now (close_level_keys hlevel) (fun hf => by cases hf) h).1

theorem poll_transmit_counted {buf_len : Nat}
    (hfit : AllFit c (sealed_packets buf_len now c)) (h : Counted c ∧ Keyed c) :
    Counted (c.poll_transmit buf_len now).2 ∧ Keyed (c.poll_transmit buf_len now).2 := by
  unfold sealed_packets at hfit
  unfold poll_transmit
  split
  · exact h
  · rename_i hstate
    rw [if_neg hstate] at hfit
    split
    · exact h
    · rename_i hallows
      rw [if_neg hallows] at hfit
      have hkeys := idle_drain.key_update c
      rcases hr : auto_key_update c with ⟨_ | _, c₁⟩
      · rw [hr] at hkeys
        exact (idle_drain.closed c₁).keeps (hkeys.keeps h)
      · rw [hr] at hkeys hfit
        have hidle : Idle c c₁.rewind_crypto := IsTrans.trans _ _ _ hkeys (idle_drain.rewind c₁)
        dsimp only at hfit ⊢
        unfold transmit
        split
        · exact transmit_close_counted _ _ _ _ (hidle.keeps h)
        · rename_i hclose
          rw [hclose] at hfit
          have hfit₁ : AllFit c₁.rewind_crypto (c₁.rewind_crypto.build_packets buf_len now).1 := by
            intro x hx hf
            have hflies : Flies c x.1 := by
              unfold Flies at hf ⊢
              rwa [hidle.2.role] at hf
            rw [hidle.entries]
            exact hfit x hx hflies
          have hbuilt := build_packets_counted hfit₁ (hidle.keeps h)
          dsimp only
          unfold emit
          dsimp only
          split
          · exact hbuilt
          · split
            · exact hbuilt
            · split <;> exact hbuilt

/-! ## Runs -/

instance (c : Connection B) (i : Nat) (pkt : Packet) : Decidable (Fits c i pkt) :=
  inferInstanceAs (Decidable (_ → _))

instance (c : Connection B) (packets : List Packet) : Decidable (AllFit c packets) :=
  inferInstanceAs (Decidable (∀ x ∈ packets.zipIdx, Fits c x.2 x.1))

instance (level : Level) (now : Instant) (ack : AckFrame) (ranges : List (Nat × Nat))
    (c : Connection B) : Decidable (AckCounts level now ack ranges c) :=
  decidable_of_iff (_ ∧ _ ∧ _) ⟨fun h => ⟨h.1, h.2.1, h.2.2⟩, fun h => ⟨h.acked, h.lost, h.few⟩⟩

/-- An ACK takes only packets in flight, and at most 32 of them; what is sent in flight finds a
place in the tracker; and no other step drops a space that has packets in flight. -/
def Counts (c : Connection B) : Step → Prop
  | .dispatch level now (.Ack ack) =>
    match ack_range_pairs ack.ack_ranges.length ack.ack_ranges with
    | .ok ranges => AckCounts level now ack (ranges.take 16) c
    | .error _ => True
  | .op (.poll_transmit buf_len now) => AllFit c (sealed_packets buf_len now c)
  | s => ∀ pkt ∈ c.sent_tracker.entries, pkt.in_flight = true →
      (s.apply c).keys.has_send_keys pkt.level = true

instance (c : Connection B) (s : Step) : Decidable (Counts c s) :=
  decidable_of_iff ((match s with
    | .dispatch level now (.Ack ack) =>
      match ack_range_pairs ack.ack_ranges.length ack.ack_ranges with
      | .ok ranges => decide (AckCounts level now ack (ranges.take 16) c)
      | .error _ => true
    | .op (.poll_transmit buf_len now) => decide (AllFit c (sealed_packets buf_len now c))
    | s => decide (∀ pkt ∈ c.sent_tracker.entries, pkt.in_flight = true →
      (s.apply c).keys.has_send_keys pkt.level = true)) = true) (by
    unfold Counts
    split
    · split <;> simp
    · simp
    · simp)

theorem ack_frame_counted {ack : AckFrame}
    (hcounts : Counts c (.dispatch level now (.Ack ack))) (h : Counted c ∧ Keyed c) :
    Counted (dispatch_frame level now (.Ack ack) c).2 ∧
      Keyed (dispatch_frame level now (.Ack ack) c).2 := by
  simp only [Counts] at hcounts
  simp only [dispatch_frame, handle_ack, Method.bind_run, Method.lift_run]
  cases hr : ack_range_pairs ack.ack_ranges.length ack.ack_ranges with
  | error e => exact h
  | ok ranges =>
    rw [hr] at hcounts
    obtain ⟨hcount, hsub⟩ := on_ack_counted hcounts h.1
    exact ⟨hcount, fun pkt hpkt => h.2 pkt (hsub hpkt)⟩

theorem step_counted (c : Connection B) (s : Step) (hcounts : Counts c s) (h : Counted c ∧ Keyed c) :
    Counted (s.apply c) ∧ Keyed (s.apply c) := by
  by_cases hack : ∃ level now ack, s = .dispatch level now (.Ack ack)
  · obtain ⟨level, now, ack, rfl⟩ := hack
    exact ack_frame_counted hcounts h
  · by_cases htransmit : ∃ buf_len now, s = .op (.poll_transmit buf_len now)
    · obtain ⟨buf_len, now, rfl⟩ := htransmit
      exact poll_transmit_counted hcounts h
    · refine (drops_step (fun level now ack heq => hack ⟨level, now, ack, heq⟩)
        (fun buf_len now heq => htransmit ⟨buf_len, now, heq⟩) c).keeps ?_ h
      unfold Counts at hcounts
      split at hcounts
      · exact absurd ⟨_, _, _, rfl⟩ hack
      · exact absurd ⟨_, _, rfl⟩ htransmit
      · exact hcounts

/-- In every run whose steps all count, the congestion controller counts the bytes of the
tracked packets in flight, in every state reached. -/
theorem bytes_in_flight_are_those_tracked {c : Connection B} (hstart : Started c) (cs : List Call)
    (hcounts : run.Along Step.apply Counts c (c.steps cs)) :
    run.Throughout Step.apply Counted c (c.steps cs) := by
  intro pre hpre
  have hinit : Counted c ∧ Keyed c := by
    obtain ⟨role, keys, tls, local_cid, remote_cid, tp, rfl⟩ := hstart.fresh
    exact ⟨rfl, nofun⟩
  exact (run.invariant step_counted (hcounts.upto hpre) hinit).1

/-! ## A server in a handshake -/

open standin

/-- What a server is called with in an ordinary handshake, up to the client's first Handshake
packet. -/
def server_handshake : List Call :=
  let (c, hello, s) := deliver (client .default_params) (server .default_params)
  let (_, _, c) := deliver s c
  [hello, .op (.poll_transmit 1500 0),
    .recv (((c.poll_transmit 1500 0).1.map (·.data)).getD []) 1500 0]

theorem server_handshake_counts :
    run.Along Step.apply Counts (server .default_params) ((server .default_params).steps
      [(deliver (client .default_params) (server .default_params)).2.1,
        .op (.poll_transmit 1500 0)]) ∧
    ¬ Counted ((server .default_params).after ((server .default_params).steps server_handshake)) := by
  unfold Counted
  decide +kernel

/-- The law at the first flight of a server. -/
theorem first_flight_is_counted :
    run.Throughout Step.apply Counted (server .default_params) ((server .default_params).steps
      [(deliver (client .default_params) (server .default_params)).2.1,
        .op (.poll_transmit 1500 0)]) :=
  bytes_in_flight_are_those_tracked (.server _ _ _ _ _) _ server_handshake_counts.1

/-- The server's Initial packet is never acknowledged: it is forgotten with its space, and stays
in the count. -/
theorem dropped_initial_stays_counted :
    ¬ run.Throughout Step.apply Counted (server .default_params)
      ((server .default_params).steps server_handshake) := by
  intro h
  exact absurd h.finish server_handshake_counts.2

end milli_http.connection.in_flight
