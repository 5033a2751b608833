-- Packets that do not authenticate. Only the anti-amplification counter may move for them,
-- but the idle timer restarts for every datagram, an Initial header is believed before its
-- packet is opened, and a 1-RTT packet number counts as a duplicate before its packet is.
import MilliHttp.Connection.Effects
import MilliHttp.Standin

open bytes method

namespace milli_http.connection.unauthenticated

open crypto tls transport packet frame Connection Outcome

variable {B : Build} {scratch_len : Nat} {c c₁ : Connection B}

/-! ## Packets that do not open -/

/-- The packet opens: its payload passes the AEAD. -/
def authentic (kind : PacketKind) (pkt_data : Bytes) (scratch_len : Nat) (c : Connection B) : Bool :=
  match kind with
  | .Short =>
    match c.unprotect_short pkt_data scratch_len with
    | .ok u => (open_phase u c).1.toBool
    | _ => false
  | kind =>
    match (c.open_kind kind pkt_data scratch_len).1 with
    | .ok _ => true
    | _ => false

/-- The packet a step takes up does not open. -/
def Unauthentic (c : Connection B) (s : Step) : Prop :=
  ∀ pkt ∈ s.packet, authentic pkt.1 pkt.2.1 pkt.2.2 c = false

instance (c : Connection B) (s : Step) : Decidable (Unauthentic c s) :=
  inferInstanceAs (Decidable (∀ pkt ∈ s.packet, _))

/-- Everything but the count of received bytes is as it was. -/
def Untouched (c c' : Connection B) : Prop :=
  c' = { c with anti_amplification_bytes_received := c'.anti_amplification_bytes_received }

/-- The Source Connection ID of an Initial header would be taken for the peer's. -/
def LearnsCid (c : Connection B) (hdr : InitialHeader) : Prop :=
  hdr.scid ≠ [] ∧ (c.remote_cid.length = 0 ∨ c.role = .Client ∧ c.state = .Handshaking) ∧
    ConnectionId.from_slice hdr.scid ≠ c.remote_cid

/-- The packet finds nothing to write before it fails to open. -/
def Harmless (c : Connection B) (scratch_len : Nat) (pkt_data : Bytes) : PacketKind → Prop
  | .Initial => ∀ hdr, parse_initial_header pkt_data = .ok hdr →
      c.keys.initial_recv.isSome ∧ ¬ LearnsCid c hdr
  | .Handshake => True
  | .Short => ∀ u, c.unprotect_short pkt_data scratch_len = .ok u →
      (c.recv_pn_tracker.get .Application).contains u.pn = true →
        ∃ largest ∈ c.largest_recv_pn.get .Application, u.pn ≤ largest

/-- The TLS engine has no keys to hand out, and the handshake context is still needed. -/
def TlsIdle (c : Connection B) : Prop :=
  ∀ ctx ∈ c.handshake_slot, ctx.tls.pending_keys = none ∧ c.can_release ctx = false

/-- The packets of a datagram, up to a malformed one. -/
def packets : List (Outcome Error Bytes) → List Bytes
  | .ok pkt_data :: rest => pkt_data :: packets rest
  | _ => []

/-! ## Untouched connections -/

theorem untouched_iff {c c' : Connection B} : Untouched c c' ↔
    { c' with anti_amplification_bytes_received := 0 } =
      { c with anti_amplification_bytes_received := 0 } := by
  constructor
  · intro h
    rw [h]
  · intro h
    have hback := congrArg (fun d : Connection B =>
      { d with anti_amplification_bytes_received := c'.anti_amplification_bytes_received }) h
    exact hback

instance : IsEquiv (Connection B) Untouched where
  refl _ := untouched_iff.mpr rfl
  symm _ _ h := untouched_iff.mpr (untouched_iff.mp h).symm
  trans _ _ _ h₁ h₂ := untouched_iff.mpr ((untouched_iff.mp h₂).trans (untouched_iff.mp h₁))

theorem untouched_arrive_iff (c : Connection B) (len : Nat) (now : Instant) :
    Untouched c (c.arrive len now) ↔ now = c.last_activity := by
  constructor
  · intro h
    have hnow : (c.arrive len now).last_activity = now := by
      unfold arrive
      dsimp only
      split <;> rfl
    rw [← hnow, h]
  · rintro rfl
    unfold arrive
    dsimp only
    split <;> rfl

/-! ## Opening packets -/

theorem untouched_learn_remote_cid_iff (hdr : InitialHeader) (c : Connection B) :
    Untouched c (learn_remote_cid hdr c) ↔ ¬ LearnsCid c hdr := by
  unfold learn_remote_cid LearnsCid
  split
  · rename_i h
    simp only [h.1, h.2, ne_eq, not_false_eq_true, true_and, not_not]
    constructor
    · intro heq
      exact congrArg Connection.remote_cid heq
    · intro heq
      rw [heq]
      exact refl c
  · rename_i h
    exact iff_of_true (refl c) fun hl => h ⟨hl.1, hl.2.1⟩

theorem learn_remote_cid_keys (hdr : InitialHeader) (c : Connection B) :
    (learn_remote_cid hdr c).keys = c.keys := by
  unfold learn_remote_cid
  split <;> rfl

theorem record_cids_keys (hdr : InitialHeader) (c : Connection B) :
    (record_cids hdr c).keys = c.keys := by
  unfold record_cids
  split <;> rfl

theorem untouched_learn_initial_iff (hdr : InitialHeader) (c : Connection B) :
    Untouched c (learn_initial hdr c).2 ↔ c.keys.initial_recv.isSome ∧ ¬ LearnsCid c hdr := by
  rcases learn_initial_cases hdr c with ⟨hsome, hrun⟩ | ⟨hnone, send, recv, hrun⟩
  · rw [hrun, untouched_learn_remote_cid_iff]
    simp [hsome]
  · refine iff_of_false (fun h => ?_) (by simp [hnone])
    have hkeys := congrArg (fun c => c.keys.initial_recv) h
    rw [hrun] at hkeys
    simp only [learn_remote_cid_keys, record_cids_keys, hnone, reduceCtorEq] at hkeys

/-- A 1-RTT payload that does not open leaves the keys alone. -/
theorem open_phase_atomic (u : Unprotected) : Method.Atomic (open_phase (B := B) u) := by
  have hconfirm : ∀ next, Method.Atomic
      (ConnectionKeys.confirm_peer_key_update (X := B.toPrimitives) next) := fun next =>
    Method.atomic_bind Method.readOnly_get fun _ =>
      Method.atomic_bind (Method.readOnly_lift _) fun _ =>
      Method.atomic_bind (Method.readOnly_lift _) fun _ =>
      Method.atomic_bind (Method.readOnly_lift _) fun _ => Method.atomic_modify _
  refine Method.atomic_bind Method.readOnly_get fun c => ?_
  refine Method.atomic_bind (Method.readOnly_okOr _ _) fun recv => Method.atomic_ite ?_ ?_
  · intro c e c' h
    unfold open_current at h
    split at h
    · cases h
    · split at h <;> exact (congrArg Prod.snd h).symm
  · refine Method.atomic_bind Method.readOnly_get fun c => ?_
    refine Method.atomic_bind (Method.readOnly_lift _) fun next => ?_
    refine Method.atomic_bind (Method.readOnly_lift _) fun payload => ?_
    exact Method.atomic_map (Method.atomic_on (hconfirm next) fun _ => rfl) _

/-- The steps of a packet that does not open: a duplicate 1-RTT packet is booked, any other is
dropped. -/
theorem packet_steps_unauthentic {kind : PacketKind} {pkt_data : Bytes}
    {c : Connection B} (now : Instant) (h : authentic kind pkt_data scratch_len c = false) :
    (c.packet_steps kind pkt_data scratch_len now = [.open_packet kind pkt_data scratch_len] ∧
      (kind = .Short → (c.open_kind kind pkt_data scratch_len).2 = c ∧
        ∀ u, c.unprotect_short pkt_data scratch_len = .ok u →
          (c.recv_pn_tracker.get .Application).contains u.pn = false)) ∨
    (∃ u, kind = .Short ∧ c.unprotect_short pkt_data scratch_len = .ok u ∧
      (c.recv_pn_tracker.get .Application).contains u.pn = true ∧
      (c.open_kind kind pkt_data scratch_len).2 = c ∧
      c.packet_steps kind pkt_data scratch_len now = [.open_packet kind pkt_data scratch_len,
        .record { ack_eliciting := false, level := .Application, pn := u.pn }]) := by
  unfold packet_steps
  cases kind with
  | Initial =>
    left
    simp only [authentic] at h
    rcases ho : c.open_kind .Initial pkt_data scratch_len with ⟨o | e | _, c'⟩
    · rw [ho] at h
      cases h
    · exact ⟨rfl, by rintro ⟨⟩⟩
    · exact ⟨rfl, by rintro ⟨⟩⟩
  | Handshake =>
    left
    simp only [authentic] at h
    rcases ho : c.open_kind .Handshake pkt_data scratch_len with ⟨o | e | _, c'⟩
    · rw [ho] at h
      cases h
    · exact ⟨rfl, by rintro ⟨⟩⟩
    · exact ⟨rfl, by rintro ⟨⟩⟩
  | Short =>
    simp only [authentic] at h
    simp only [open_kind, open_short]
    cases hu : c.unprotect_short pkt_data scratch_len with
    | panic => exact .inl ⟨rfl, fun _ => ⟨rfl, by simp⟩⟩
    | err e => exact .inl ⟨rfl, fun _ => ⟨rfl, by simp⟩⟩
    | ok u =>
      rw [hu] at h
      dsimp only at h ⊢
      cases hdup : (c.recv_pn_tracker.get .Application).contains u.pn with
      | true => exact .inr ⟨u, trivial, rfl, hdup, by simp, by simp [opened_steps]⟩
      | false =>
        left
        rcases hphase : open_phase u c with ⟨e | payload, c'⟩
        · have hsame := open_phase_atomic u c e c' hphase
          refine ⟨rfl, fun _ => ⟨hsame, fun u' hu' => ?_⟩⟩
          cases hu'
          exact hdup
        · rw [hphase] at h
          cases h

/-- Booking a duplicate moves at most the largest packet number. -/
theorem untouched_record_iff {c : Connection B} {pn : Nat}
    (h : (c.recv_pn_tracker.get .Application).contains pn = true) :
    Untouched c (c.record_packet { ack_eliciting := false, level := .Application, pn }) ↔
      ∃ largest ∈ c.largest_recv_pn.get .Application, pn ≤ largest := by
  have htracker : c.recv_pn_tracker.set .Application
      ((c.recv_pn_tracker.get .Application).record pn) = c.recv_pn_tracker := by
    rw [RecvPnTracker.record_of_contains h]
    exact PerLevel.set_get_self _ _
  have hrun : c.record_packet { ack_eliciting := false, level := .Application, pn } =
      { c with
        largest_recv_pn := c.largest_recv_pn.set .Application
          (larger_pn (c.largest_recv_pn.get .Application) pn) } := by
    simp only [record_packet, track_received_pn, Bool.false_eq_true, if_false, htracker]
  have hlarger : larger_pn (c.largest_recv_pn.get .Application) pn =
      c.largest_recv_pn.get .Application ↔
        ∃ largest ∈ c.largest_recv_pn.get .Application, pn ≤ largest := by
    cases c.largest_recv_pn.get .Application with
    | none => simp [larger_pn]
    | some prev =>
      simp only [larger_pn, Option.mem_def, Option.some.injEq, exists_eq_left']
      split
      · rw [Option.some.injEq]
        omega
      · exact iff_of_true rfl (by omega)
  rw [hrun, ← hlarger]
  constructor
  · intro heq
    have hlargest := congrArg (fun c => c.largest_recv_pn.get .Application) heq
    simpa using hlargest
  · intro heq
    rw [PerLevel.set_eq_self heq.symm]
    exact refl c

/-! ## The packets of a datagram -/

theorem untouched_congr (h : Untouched c c₁) (x : Connection B) : Untouched c x ↔ Untouched c₁ x :=
  ⟨fun hx => IsTrans.trans _ _ _ (Std.Symm.symm _ _ h) hx, fun hx => IsTrans.trans _ _ _ h hx⟩

theorem harmless_congr (h : Untouched c c₁) (scratch_len : Nat)
    (pkt_data : Bytes) (kind : PacketKind) :
    Harmless c scratch_len pkt_data kind ↔ Harmless c₁ scratch_len pkt_data kind := by
  rw [h]
  cases kind <;> rfl

/-- A packet that does not open leaves no trace exactly when it is harmless. -/
theorem packet_untouched_iff {kind : PacketKind} {pkt_data : Bytes}
    {c : Connection B} (now : Instant) (h : authentic kind pkt_data scratch_len c = false) :
    run.Throughout Step.apply (Untouched c) c (c.packet_steps kind pkt_data scratch_len now) ↔
      Harmless c scratch_len pkt_data kind := by
  rcases packet_steps_unauthentic now h with ⟨hsteps, hshort⟩ | ⟨u, rfl, hu, hdup, hopen, hsteps⟩
  · rw [hsteps, run.throughout_cons, run.throughout_nil]
    simp only [Step.apply, refl c, true_and]
    cases kind with
    | Initial =>
      simp only [Harmless, open_kind, open_initial]
      cases hparse : parse_initial_header pkt_data with
      | panic => exact iff_of_true (refl c) (by rintro _ ⟨⟩)
      | err e => exact iff_of_true (refl c) (by rintro _ ⟨⟩)
      | ok hdr =>
        simp only [Outcome.ok.injEq, forall_eq']
        rw [← untouched_learn_initial_iff]
        rcases learn_initial hdr c with ⟨_ | _, c'⟩
        · rfl
        · dsimp only
          cases c'.keys.initial_recv <;> rfl
    | Handshake =>
      refine iff_of_true ?_ trivial
      simp only [open_kind, open_handshake]
      split
      · exact refl c
      · exact refl c
      · split <;> exact refl c
    | Short =>
      obtain ⟨hsame, hnew⟩ := hshort rfl
      rw [hsame]
      refine iff_of_true (refl c) fun u hu hdup => ?_
      rw [hnew u hu] at hdup
      cases hdup
  · rw [hsteps, run.throughout_cons, run.throughout_cons, run.throughout_nil]
    simp only [Step.apply, hopen, refl c, true_and]
    rw [untouched_record_iff hdup]
    constructor
    · intro hle u' hu' _
      cases hu.symm.trans hu'
      exact hle
    · intro hall
      exact hall u hu hdup

theorem packets_untouched_iff {now : Instant}
    {items : List (Outcome Error Bytes)} (hc : Untouched c c₁)
    (hret : (recv_packets scratch_len now items c₁).isSome)
    (hauth : run.Along Step.apply Unauthentic c₁ (packets_steps scratch_len now items c₁)) :
    run.Throughout Step.apply (Untouched c) c₁ (packets_steps scratch_len now items c₁) ↔
      ∀ pkt_data ∈ packets items, ∀ kind, packet_kind pkt_data = some kind →
        Harmless c scratch_len pkt_data kind := by
  induction items generalizing c₁ with
  | nil => exact iff_of_true (run.throughout_nil.mpr hc) nofun
  | cons item rest ih =>
    cases item with
    | panic => exact iff_of_true (run.throughout_nil.mpr hc) nofun
    | err e => exact iff_of_true (run.throughout_nil.mpr hc) nofun
    | ok pkt_data =>
      simp only [recv_packets, Option.bind_eq_bind] at hret
      cases hrecv : c₁.recv_packet pkt_data scratch_len now with
      | none => simp [hrecv] at hret
      | some c₂ =>
        rw [hrecv, Option.bind_some] at hret
        simp only [packets_steps, hrecv, packets, List.forall_mem_cons] at hauth ⊢
        rw [run.throughout_append]
        rw [run.along_append] at hauth
        cases hk : packet_kind pkt_data with
        | none =>
          simp only [recv_packet, hk, Option.some.injEq] at hrecv
          subst hrecv
          simp only [hk, run.final_nil] at hauth ⊢
          rw [ih hc hret hauth.2, run.throughout_nil]
          simp [hc]
        | some kind =>
          have hfinal := recv_packet_steps hk hrecv
          simp only [hk, ← hfinal] at hauth ⊢
          have hopen : authentic kind pkt_data scratch_len c₁ = false :=
            hauth.1 (c₁, .open_packet kind pkt_data scratch_len) List.mem_cons_self _ rfl
          have hhere : run.Throughout Step.apply (Untouched c) c₁
              (c₁.packet_steps kind pkt_data scratch_len now) ↔
                Harmless c scratch_len pkt_data kind := by
            rw [harmless_congr hc, ← packet_untouched_iff now hopen]
            simp only [run.Throughout, untouched_congr hc]
          rw [hhere]
          constructor
          · rintro ⟨hharm, hrest⟩
            refine ⟨fun k hk' => ?_, (ih hrest.start hret hauth.2).mp hrest⟩
            cases hk'
            exact hharm
          · rintro ⟨hharm, hrest⟩
            have h₁ := hharm kind rfl
            have h₂ := (hhere.mpr h₁).finish
            rw [← hfinal] at h₂
            exact ⟨h₁, (ih h₂ hret hauth.2).mpr hrest⟩

/-! ## The check for keys -/

theorem keys_installed_slot (level : Level) (c : Connection B) :
    (keys_installed level c).handshake_slot = c.handshake_slot := by
  cases level with
  | Initial => rfl
  | Handshake =>
    simp only [keys_installed]
    split <;> rfl
  | Application =>
    simp only [keys_installed, discard_handshake, drop_space, push_event]
    split
    · split <;> rfl
    · rfl

theorem install_keys_slot (derived : DerivedKeys) :
    Method.Keeps (Method.Same Connection.handshake_slot) (install_keys (B := B) derived) := by
  refine Method.keeps_seq (Method.keeps_on fun _ => rfl) fun _ => ?_
  refine Method.keeps_seq (Method.keeps_modify fun c => keys_installed_slot _ c) fun _ => ?_
  refine Method.keeps_modify fun c => ?_
  split
  · exact rfl
  · exact rfl

theorem untouched_check_tls_keys_iff (c : Connection B) :
    Untouched c (check_tls_keys c).2 ↔ TlsIdle c := by
  unfold TlsIdle
  rw [check_tls_keys_run]
  rcases install_ready_keys_cases c with ⟨hp, hrun⟩ | ⟨ctx, derived, hctx, hderived, hrun⟩
  · rw [hrun]
    dsimp only
    constructor
    · intro h ctx hctx
      have hpending : ctx.tls.pending_keys = none := by
        rw [show c.handshake_slot = some ctx from hctx] at hp
        exact hp
      refine ⟨hpending, ?_⟩
      cases hrelease : c.can_release ctx with
      | false => rfl
      | true =>
        have hslot := congrArg Connection.handshake_slot h
        simp [maybe_release_handshake_slot, show c.handshake_slot = some ctx from hctx,
          hrelease] at hslot
    · intro h
      rcases maybe_release_cases c with heq | ⟨ctx, hctx, hrelease, -⟩
      · rw [heq]
        exact refl c
      · rw [(h ctx hctx).2] at hrelease
        cases hrelease
  · -- The engine's keys are handed out once, so the slot is no longer what it was.
    refine iff_of_false (fun h => ?_) (fun h => ?_)
    · have hslot := install_keys_slot derived { c with
        handshake_slot := some { ctx with tls := { ctx.tls with pending_keys := none } } }
      rw [← hrun] at hslot
      have hsame := congrArg Connection.handshake_slot h
      have hnot : ∀ c' : Connection B, c'.handshake_slot = c.handshake_slot →
          c'.handshake_slot ≠ some { ctx with tls := { ctx.tls with pending_keys := none } } := by
        intro c' heq hnew
        have hpending := congrArg (fun slot => slot.bind (·.tls.pending_keys))
          ((hnew.symm.trans heq).trans hctx)
        simp [hderived] at hpending
      rcases hready : install_ready_keys c with ⟨_ | _, c'⟩
      · rw [hready] at hslot hsame
        exact hnot c' hsame hslot
      · rw [hready] at hslot hsame
        rcases maybe_release_cases c' with heq | ⟨-, -, -, heq⟩
        · simp only [heq] at hsame
          exact hnot c' hsame hslot
        · simp only [heq, hctx] at hsame
          cases hsame
    · rw [(h ctx hctx).1] at hderived
      cases hderived

/-! ## Every datagram -/

theorem tlsIdle_congr (h : Untouched c c₁) : TlsIdle c ↔ TlsIdle c₁ := by
  rw [h]
  rfl

/-- A datagram of which no packet opens leaves everything but the count of received bytes as it
was, at every step, exactly when the clock stands still, its packets are harmless and no keys
are ready. -/
theorem unopened_packets_have_no_effect_iff (c : Connection B) (datagram : Bytes)
    (scratch_len : Nat) (now : Instant) (hret : (c.recv datagram scratch_len now).isSome)
    (hauth : run.Along Step.apply Unauthentic c (c.recv_steps datagram scratch_len now)) :
    run.Throughout Step.apply (Untouched c) c (c.recv_steps datagram scratch_len now) ↔
      c.state = .Closed ∨ now = c.last_activity ∧
        (∀ pkt_data ∈ packets (coalesced datagram), ∀ kind, packet_kind pkt_data = some kind →
          Harmless c scratch_len pkt_data kind) ∧ TlsIdle c := by
  unfold recv at hret
  unfold recv_steps at hauth ⊢
  by_cases hc : c.state = .Closed
  · simp only [hc, if_true, true_or, iff_true]
    exact run.throughout_nil.mpr (refl c)
  · simp only [hc, if_false, false_or] at hret hauth ⊢
    cases hpackets : recv_packets scratch_len now (coalesced datagram)
        (c.arrive datagram.length now) with
    | none => simp [hpackets] at hret
    | some c₂ =>
      simp only [hpackets, List.cons_append] at hauth ⊢
      rw [run.along_cons, run.along_append] at hauth
      have hfinal := recv_packets_steps hpackets
      rw [run.throughout_cons, run.throughout_append]
      simp only [Step.apply, ← hfinal, refl c, true_and]
      have hlast : run.Throughout Step.apply (Untouched c) c₂ [.check_tls_keys] ↔
          Untouched c c₂ ∧ Untouched c (check_tls_keys c₂).2 := by
        rw [run.throughout_cons, run.throughout_nil]
        rfl
      rw [hlast]
      constructor
      · rintro ⟨hall, hc₂, hcheck⟩
        have harrive := hall.start
        refine ⟨(untouched_arrive_iff c _ now).mp harrive, ?_, ?_⟩
        · exact (packets_untouched_iff harrive (by simp [hpackets]) hauth.2.1).mp hall
        · rw [tlsIdle_congr hc₂, ← untouched_check_tls_keys_iff, ← untouched_congr hc₂]
          exact hcheck
      · rintro ⟨hnow, hharm, hidle⟩
        have harrive := (untouched_arrive_iff c datagram.length now).mpr hnow
        have hall := (packets_untouched_iff harrive (by simp [hpackets]) hauth.2.1).mpr hharm
        have hc₂ := hall.finish
        rw [← hfinal] at hc₂
        refine ⟨hall, hc₂, ?_⟩
        rwa [untouched_congr hc₂, untouched_check_tls_keys_iff, ← tlsIdle_congr hc₂]

/-! ## A forged Initial -/

open standin

/-- An Initial packet whose payload is noise. -/
def forged_initial : Bytes :=
  [0xc0, 0, 0, 0, 1, 4, 1, 2, 3, 4, 4, 9, 9, 9, 9, 0, 30] ++ List.replicate 30 0

/-- The law at a datagram with nothing but noise. -/
theorem noise_has_no_effect :
    run.Throughout Step.apply (Untouched (client .default_params)) (client .default_params)
      ((client .default_params).recv_steps [0x40, 0, 0] 1500 0) ↔
    (client .default_params).state = .Closed ∨ 0 = (client .default_params).last_activity ∧
      (∀ pkt_data ∈ packets (coalesced [0x40, 0, 0]), ∀ kind, packet_kind pkt_data = some kind →
        Harmless (client .default_params) 1500 pkt_data kind) ∧ TlsIdle (client .default_params) :=
  unopened_packets_have_no_effect_iff _ _ _ _ (by decide +kernel) (by decide +kernel)

/-- A packet that does not open still moves the client to a new destination. -/
theorem forged_initial_is_believed :
    ¬ ∀ (B : Build) (c : Connection B) (datagram : Bytes) (scratch_len : Nat) (now : Instant)
      (r : Except Error Unit × Connection B), c.recv datagram scratch_len now = some r →
      run.Along Step.apply Unauthentic c (c.recv_steps datagram scratch_len now) →
      Untouched c r.2 := by
  intro h
  have hsome : ((client .default_params).recv forged_initial 1500 0).isSome := by decide +kernel
  obtain ⟨r, hr⟩ := Option.isSome_iff_exists.mp hsome
  have hsame := h build (client .default_params) forged_initial 1500 0 r hr (by decide +kernel)
  have hcid : ((client .default_params).recv forged_initial 1500 0).map
      (fun r => r.2.remote_cid) = some [9, 9, 9, 9] := by decide +kernel
  rw [hr, Option.map_some, Option.some.injEq, hsame] at hcid
  have hold : (client .default_params).remote_cid = [8, 7, 6, 5] := by decide +kernel
  exact absurd (hold.symm.trans hcid) (by decide)

end milli_http.connection.unauthenticated
