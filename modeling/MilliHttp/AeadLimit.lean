-- The confidentiality limit of the AEAD: how many 1-RTT packets are sealed under the send keys
-- of one generation. The count is looked at only while a key update may be started, and an
-- update of our own that the peer does not confirm forbids the next one.
import MilliHttp.Nonces
import MilliHttp.AckFrames
import MilliHttp.Standin

open bytes method
open method.Method (get_bind_run bind_run lift_run keeps_seq keeps_lift keeps_modify on_run
  get_run)

namespace milli_http.connection.aead_limit

open crypto tls transport packet frame Connection nonces ConnectionKeys

variable {B : Build}

/-! ## Packets of a generation -/

/-- How many 1-RTT packets a step seals. -/
def short_sealings (c : Connection B) (s : Step) : Nat := (numbers .Application (sealings c s)).length

/-- The key phase bit flips with every generation of the send keys. -/
def Rekeys (c : Connection B) (s : Step) : Prop := (s.apply c).keys.key_phase ≠ c.keys.key_phase

instance (c : Connection B) (s : Step) : Decidable (Rekeys c s) := inferInstanceAs (Decidable (_ ≠ _))

/-- One more step: what it seals counts for the keys it leaves behind. -/
def count_step (n : Nat) (x : Connection B × Step) : Nat :=
  (if Rekeys x.1 x.2 then 0 else n) + short_sealings x.1 x.2

/-- The 1-RTT packets sealed under the send keys in use after some steps. -/
def since_update (steps : List (Connection B × Step)) : Nat := steps.foldl count_step 0

/-- No generation of the send keys seals more 1-RTT packets than the limit. -/
def WithinLimit (c : Connection B) (steps : List Step) : Prop :=
  run.Always Step.apply (fun pre _ => since_update pre ≤ AEAD_CONFIDENTIALITY_LIMIT) c steps

/-- A connection that is asked for a datagram when its keys are used up may update them. -/
def CanUpdate (c : Connection B) (s : Step) : Prop :=
  match s with
  | .op (.poll_transmit _ _) => c.state = .Closed ∨
    c.keys.key_update.packets_encrypted < AEAD_CONFIDENTIALITY_LIMIT ∨
    c.keys.can_initiate_key_update = true
  | _ => True

instance (c : Connection B) : (s : Step) → Decidable (CanUpdate c s) := fun s => by
  unfold CanUpdate
  split <;> infer_instance

/-! ## What is counted -/

/-- The packets counted, the key phase, and the number of the next 1-RTT packet. -/
def uses (c : Connection B) : Nat × UInt8 × Nat :=
  (c.keys.key_update.packets_encrypted, c.keys.key_phase, c.next_pn.get .Application)

/-- At most one 1-RTT packet was sealed, and it was counted. -/
def Counts (c c' : Connection B) : Prop :=
  ∃ k ≤ 1, uses c' = ((uses c).1 + k, (uses c).2.1, (uses c).2.2 + k)

theorem Counts.of_eq {c c' : Connection B} (h : uses c' = uses c) : Counts c c' :=
  ⟨0, Nat.zero_le 1, h⟩

theorem Counts.after {c c' c'' : Connection B} (h : uses c' = uses c) (hc : Counts c' c'') :
    Counts c c'' := by
  obtain ⟨k, hk, huses⟩ := hc
  exact ⟨k, hk, by rw [huses, h]⟩

theorem Counts.before {c c' c'' : Connection B} (hc : Counts c c') (h : uses c'' = uses c') :
    Counts c c'' := by
  obtain ⟨k, hk, huses⟩ := hc
  exact ⟨k, hk, h.trans huses⟩

/-! ### Draining -/

theorem uses_put_ack (level : Level) (room : Nat) (d : Draft B) :
    uses (put_ack level room d).1 = uses d.1 := by
  simp only [put_ack]
  split
  · split <;> rfl
  · rfl

theorem uses_write_tls_crypto_data (level : Level) (room : Nat) (d : Draft B) :
    uses (write_tls_crypto_data level room d).1 = uses d.1 := by
  simp only [write_tls_crypto_data]
  split
  · rfl
  · split
    · rfl
    · split <;> rfl

theorem uses_put_max_stream_data (room fuel : Nat) (d : Draft B) :
    uses (put_max_stream_data room fuel d).1 = uses d.1 := by
  induction fuel generalizing d with
  | zero => rfl
  | succ fuel ih =>
    obtain ⟨c, p⟩ := d
    simp only [put_max_stream_data]
    split
    · rfl
    · split
      · rfl
      · rw [ih]
        rfl

theorem uses_drain_short (room : Nat) (c : Connection B) : uses (c.drain_short room).1 = uses c := by
  have hdone : (put_handshake_done room (c, .empty)).1 = c := by
    simp only [put_handshake_done]
    split <;> rfl
  have hpath : ∀ d : Draft B, uses (put_path_response room d).1 = uses d.1 := by
    intro d
    simp only [put_path_response]
    split
    · rfl
    · split <;> rfl
  have hmax : ∀ d : Draft B, uses (put_max_data room d).1 = uses d.1 := by
    intro d
    simp only [put_max_data]
    split
    · rfl
    · split <;> rfl
  have hstreams : ∀ d : Draft B, uses (put_streams room d).1 = uses d.1 := fun _ => rfl
  unfold drain_short
  dsimp only
  rw [hstreams, uses_put_max_stream_data, hmax, uses_put_ack, hpath, hdone]

theorem uses_release (c : Connection B) : uses c.maybe_release_handshake_slot = uses c := by
  rcases maybe_release_cases c with heq | ⟨ctx, -, -, heq⟩ <;> rw [heq]
  rfl

/-! ### Building packets -/

theorem uses_packet_sent {level : Level} (hlevel : level ≠ .Application) (size : Nat)
    (ack_eliciting in_flight : Bool) (now : Instant) (c : Connection B) :
    uses (c.packet_sent level size ack_eliciting in_flight now) = uses c := by
  simp [uses, packet_sent, Ne.symm hlevel]

theorem uses_short_sent (size : Nat) (ack_eliciting in_flight : Bool) (now : Instant)
    (frames : List Frame) (c : Connection B) :
    uses (short_sent frames (c.packet_sent .Application size ack_eliciting in_flight now)) =
      ((uses c).1 + 1, (uses c).2.1, (uses c).2.2 + 1) := by
  simp [uses, packet_sent, short_sent, key_phase]

theorem uses_build_initial (cap : Nat) (now : Instant) (c : Connection B) :
    uses (c.build_initial_packet cap now).2 = uses c := by
  unfold build_initial_packet
  dsimp only
  split
  · rfl
  · have hack := fun room => uses_put_ack .Initial room (c, .empty)
    generalize hd : (if cap ≥ MIN_INITIAL_PACKET_SIZE then
      write_tls_crypto_data .Initial _ (put_ack .Initial _ (c, .empty))
      else put_ack .Initial _ (c, .empty)) = d
    have hdrain : uses d.1 = uses c := by
      rw [← hd]
      split
      · rw [uses_write_tls_crypto_data, hack]
      · exact hack _
    split
    · exact hdrain
    · split
      · exact hdrain
      · have hinitial : Level.Initial ≠ .Application := nofun
        exact (uses_packet_sent hinitial _ _ _ _ _).trans hdrain

theorem uses_build_handshake (cap : Nat) (now : Instant) (c : Connection B) :
    uses (c.build_handshake_packet cap now).2 = uses c := by
  have hdrain : ∀ room, uses (write_tls_crypto_data .Handshake room
      (put_ack .Handshake room (c, .empty))).1 = uses c := by
    intro room
    rw [uses_write_tls_crypto_data, uses_put_ack]
  unfold build_handshake_packet
  dsimp only
  split
  · rfl
  · split
    · exact hdrain _
    · split
      · exact hdrain _
      · have hhandshake : Level.Handshake ≠ .Application := nofun
        exact (uses_packet_sent hhandshake _ _ _ _ _).trans (hdrain _)

theorem counts_build_short (cap : Nat) (now : Instant) (c : Connection B) :
    Counts c (c.build_short_packet cap now).2 := by
  unfold build_short_packet
  dsimp only
  split
  · exact .of_eq rfl
  · have hdrain := uses_drain_short (cap - (1 + c.remote_cid.length + c.pn_len .Application)) c
    split
    · exact .of_eq hdrain
    · split
      · exact .of_eq hdrain
      · exact .after hdrain ⟨1, Nat.le_refl 1, uses_short_sent _ _ _ _ _ _⟩

theorem counts_build_close (level : Level) (frame : Frame) (buf_len : Nat) (now : Instant)
    (c : Connection B) : Counts c (c.build_close_packet level frame buf_len now).2 := by
  unfold build_close_packet
  split
  · exact .of_eq rfl
  · dsimp only
    split
    · exact .of_eq rfl
    · split
      · rename_i hlevel
        subst hlevel
        exact ⟨1, Nat.le_refl 1, uses_short_sent _ _ _ _ _ _⟩
      · rename_i hlevel
        exact .of_eq (uses_packet_sent hlevel _ _ _ _ _)

theorem uses_with_keys {level : Level} {build : Connection B → Option Packet × Connection B}
    (hbuild : ∀ c, uses (build c).2 = uses c) (c : Connection B) :
    uses (c.build_with_keys level build).2 = uses c := by
  unfold build_with_keys
  split
  · exact hbuild c
  · rfl

theorem counts_build_packets (buf_len : Nat) (now : Instant) (c : Connection B) :
    Counts c (c.build_packets buf_len now).2 := by
  unfold build_packets build_long_packets
  dsimp only
  have h₁ := @uses_with_keys _ .Initial _ (uses_build_initial buf_len now) c
  generalize c.build_with_keys .Initial _ = r₁ at h₁ ⊢
  have h₂ := @uses_with_keys _ .Handshake _
    (uses_build_handshake (buf_len - packet_length r₁.1) now) r₁.2
  generalize r₁.2.build_with_keys .Handshake _ = r₂ at h₂ ⊢
  have hlong : uses r₂.2.maybe_release_handshake_slot = uses c := by rw [uses_release, h₂, h₁]
  refine .after hlong ?_
  unfold build_with_keys
  split
  · exact counts_build_short _ now _
  · exact .of_eq rfl

theorem counts_transmit (buf_len : Nat) (now : Instant) (c : Connection B) :
    Counts c (c.transmit buf_len now).2 := by
  unfold transmit
  split
  · unfold transmit_close
    split
    · exact .of_eq rfl
    · exact .before (counts_build_close _ _ buf_len now c) rfl
  · have hemit : ∀ packets (c : Connection B), uses (c.emit packets).2 = uses c := by
      intro packets c
      simp only [emit]
      split
      · rfl
      · split
        · rfl
        · split <;> rfl
    exact .before (counts_build_packets buf_len now c) (hemit _ _)

/-! ## Key updates -/

theorem phase_flips (phase : UInt8) : phase ^^^ 1 ≠ phase := by
  intro h
  have hand : (phase ^^^ 1) ^^^ phase = 0 := by rw [h, UInt8.xor_self]
  rw [UInt8.xor_comm phase 1, UInt8.xor_assoc, UInt8.xor_self] at hand
  exact absurd hand (by decide)

/-- An update of our own renews the keys, or fails without a trace. -/
theorem perform_key_update_cases (k : ConnectionKeys B.toPrimitives) :
    (∃ e, perform_key_update k = (.error e, k)) ∨
    ∃ send recv send_secret recv_secret, perform_key_update k =
      (.ok (), k.rotate send recv send_secret recv_secret false 0) := by
  unfold perform_key_update
  rw [get_bind_run]
  rw [Method.require_bind_run]
  split
  · rw [bind_run, lift_run]
    cases derive_next_application_secret B.C.hkdf k.key_update.send_secret with
    | error e => exact .inl ⟨e, rfl⟩
    | ok send_secret =>
      dsimp only
      rw [bind_run, lift_run]
      cases derive_next_application_secret B.C.hkdf k.key_update.recv_secret with
      | error e => exact .inl ⟨e, rfl⟩
      | ok recv_secret =>
        dsimp only
        rw [bind_run, lift_run]
        cases k.derive_key_update_keys send_secret k.key_update.send_hp_key with
        | error e => exact .inl ⟨e, rfl⟩
        | ok send =>
          dsimp only
          rw [bind_run, lift_run]
          cases k.derive_key_update_keys recv_secret k.key_update.recv_hp_key with
          | error e => exact .inl ⟨e, rfl⟩
          | ok recv => exact .inr ⟨send, recv, send_secret, recv_secret, rfl⟩
  · exact .inl ⟨_, rfl⟩

/-- Following the peer renews the keys, or fails without a trace. -/
theorem confirm_peer_key_update_cases (new_recv_keys : DirectionalKeys B.C)
    (k : ConnectionKeys B.toPrimitives) :
    (confirm_peer_key_update new_recv_keys k).2 = k ∨
    ∃ send send_secret recv_secret, (confirm_peer_key_update new_recv_keys k).2 =
      k.rotate send new_recv_keys send_secret recv_secret true 1 := by
  unfold confirm_peer_key_update
  rw [get_bind_run]
  rw [bind_run, lift_run]
  cases derive_next_application_secret B.C.hkdf k.key_update.send_secret with
  | error e => exact .inl rfl
  | ok send_secret =>
    dsimp only
    rw [bind_run, lift_run]
    cases derive_next_application_secret B.C.hkdf k.key_update.recv_secret with
    | error e => exact .inl rfl
    | ok recv_secret =>
      dsimp only
      rw [bind_run, lift_run]
      cases k.derive_key_update_keys send_secret k.key_update.send_hp_key with
      | error e => exact .inl rfl
      | ok send => exact .inr ⟨send, send_secret, recv_secret, rfl⟩

/-! ## Steps -/

/-- The packets counted. -/
def encrypted (c : Connection B) : Nat := c.keys.key_update.packets_encrypted

theorem encrypted_plain : KeptByPlain (B := B) (Method.Same encrypted) where
  state _ _ _ := rfl
  events _ _ := rfl
  remote_cid _ _ := rfl
  streams _ _ := rfl
  flow_control _ _ := rfl
  sio _ _ := rfl
  path_response _ _ := rfl

theorem encrypted_install (derived : DerivedKeys) : Method.Keeps
    (Method.Same fun k : ConnectionKeys B.toPrimitives => k.key_update.packets_encrypted)
    (install_derived derived) := by
  unfold install_derived
  refine keeps_seq (keeps_lift _) fun send => ?_
  refine keeps_seq (keeps_lift _) fun recv => ?_
  split
  · exact keeps_modify fun _ => rfl
  · refine keeps_seq (keeps_modify fun _ => rfl) fun _ => ?_
    dsimp only
    refine keeps_seq (keeps_lift _) fun send_hp => ?_
    refine keeps_seq (keeps_lift _) fun recv_hp => ?_
    exact keeps_modify fun _ => rfl
  · exact Method.keeps_pure _

theorem encrypted_release (c : Connection B) :
    encrypted c.maybe_release_handshake_slot = encrypted c := congrArg Prod.fst (uses_release c)

theorem encrypted_connected (c : Connection B) :
    encrypted (push_event { c with state := .Active, address_validated := true } .Connected) =
      encrypted c := encrypted_plain.push_event _ _

theorem encrypted_keys_installed (level : Level) (c : Connection B) :
    encrypted (keys_installed level c) = encrypted c := by
  unfold keys_installed
  split
  · rfl
  · split <;> rfl
  · split
    · exact encrypted_connected c
    · rfl

theorem encrypted_check_tls_keys :
    Method.Keeps (Method.Same encrypted) (check_tls_keys (B := B)) := by
  intro c
  have htaken : ∀ ctx derived, encrypted (c.keys_taken ctx derived) = encrypted c :=
    fun ctx derived => encrypted_install derived c.keys
  rcases check_tls_keys_cases c with heq | ⟨ctx, derived, -, -, heq | ⟨-, heq⟩⟩
  · rw [Method.Same, heq]
    exact encrypted_release c
  · rw [Method.Same, heq]
    exact htaken ctx derived
  · have hlearn : ∀ c : Connection B, encrypted c.learn_params = encrypted c := by
      intro c
      unfold learn_params
      split <;> rfl
    rw [Method.Same, heq, encrypted_release, hlearn, encrypted_keys_installed, htaken]

theorem encrypted_dispatch_frame (level : Level) (now : Instant) (frame : Frame) :
    Method.Keeps (Method.Same encrypted) (dispatch_frame (B := B) level now frame) := by
  cases frame with
  | Ack ack => exact keeps_seq (keeps_lift _) fun _ => keeps_modify fun _ => rfl
  | Crypto crypto =>
    refine handle_crypto_frame_keeps (fun _ _ _ => rfl) (fun _ _ c => ?_) encrypted_check_tls_keys
      level _ _
    rw [Method.Same, on_tls_run]
    rfl
  | HandshakeDone =>
    refine keeps_modify fun c => ?_
    unfold handshake_done Method.Same
    split
    · rfl
    · split
      · exact encrypted_connected c
      · rfl
  | _ => exact encrypted_plain.plain_frame rfl (fun _ => by simp) level now

/-- Nothing is counted, or the keys are renewed. -/
def Quiet (c c' : Connection B) : Prop := encrypted c' = encrypted c ∨
  encrypted c' = 0 ∧ c'.keys.key_phase = c.keys.key_phase ^^^ 1

theorem quiet_open_phase (u : Unprotected) (c : Connection B) : Quiet c (open_phase u c).2 := by
  unfold open_phase
  rw [get_bind_run]
  cases c.keys.app_recv with
  | none => exact .inl rfl
  | some recv =>
    rw [bind_run, Method.okOr_some_run]
    dsimp only
    split
    · left
      unfold open_current
      split
      · rfl
      · split <;> rfl
    · unfold open_next
      rw [get_bind_run]
      rw [bind_run, lift_run]
      cases c.keys.derive_next_recv_keys with
      | error e => exact .inl rfl
      | ok next =>
        dsimp only
        rw [bind_run, lift_run]
        cases open_payload next u with
        | error e => exact .inl rfl
        | ok payload =>
          have hcases := confirm_peer_key_update_cases next c.keys
          dsimp only
          rw [bind_run, on_run]
          rcases hrun : confirm_peer_key_update next c.keys with ⟨e | u, k⟩
          all_goals
            rw [hrun] at hcases
            rcases hcases with rfl | ⟨send, send_secret, recv_secret, rfl⟩
            · exact .inl rfl
            · exact .inr ⟨rfl, rfl⟩

theorem quiet_open_kind (kind : PacketKind) (pkt_data : Bytes) (scratch_len : Nat) (c : Connection B) :
    Quiet c (c.open_kind kind pkt_data scratch_len).2 := by
  cases kind with
  | Initial =>
    left
    simp only [open_kind, open_initial]
    split
    · rfl
    · rfl
    · rename_i hdr _
      have hlearn : encrypted (learn_initial hdr c).2 = encrypted c := by
        have hcid : ∀ c : Connection B, encrypted (learn_remote_cid hdr c) = encrypted c := by
          intro c
          unfold learn_remote_cid
          split <;> rfl
        have hrecord : ∀ c : Connection B, encrypted (record_cids hdr c) = encrypted c := by
          intro c
          unfold record_cids
          split <;> rfl
        rcases learn_initial_cases hdr c with ⟨-, heq⟩ | ⟨-, send, recv, heq⟩
        · rw [heq, hcid]
        · rw [heq, hcid, hrecord]
          rfl
      split
      · rename_i heq
        rwa [heq] at hlearn
      · rename_i heq
        rw [heq] at hlearn
        split <;> exact hlearn
  | Handshake =>
    left
    simp only [open_kind, open_handshake]
    split
    · rfl
    · rfl
    · split <;> rfl
  | Short =>
    simp only [open_kind, open_short]
    split
    · exact .inl rfl
    · exact .inl rfl
    · rename_i u _
      have hphase := quiet_open_phase u c
      split
      · exact .inl rfl
      · split
        · rename_i heq
          rwa [heq] at hphase
        · rename_i heq
          rwa [heq] at hphase

theorem quiet_initiate_key_update (c : Connection B) : Quiet c (initiate_key_update c).2 := by
  unfold initiate_key_update
  rw [get_bind_run]
  rw [Method.require_bind_run]
  split
  · rw [on_run]
    rcases perform_key_update_cases c.keys with ⟨e, he⟩ | ⟨send, recv, send_secret, recv_secret, he⟩
    · rw [he]
      exact .inl rfl
    · rw [he]
      exact .inr ⟨rfl, rfl⟩
  · exact .inl rfl

/-- A step that sends nothing counts nothing. -/
theorem quiet_step {s : Step} (hs : ∀ buf_len now, s ≠ .op (.poll_transmit buf_len now))
    (c : Connection B) : Quiet c (s.apply c) := by
  cases s with
  | arrive len now =>
    left
    simp only [Step.apply, arrive]
    split <;> rfl
  | open_packet kind pkt_data scratch_len => exact quiet_open_kind kind pkt_data scratch_len c
  | dispatch level now frame => exact .inl (encrypted_dispatch_frame level now frame c)
  | initial_done =>
    left
    simp only [Step.apply, initial_done]
    split <;> rfl
  | record pr =>
    left
    simp only [Step.apply, record_packet]
    split <;> rfl
  | check_tls_keys => exact .inl (encrypted_check_tls_keys c)
  | op o =>
    cases o with
    | poll_transmit buf_len now => exact absurd rfl (hs buf_len now)
    | handle_timeout now =>
      left
      simp only [Step.apply, Op.apply, handle_timeout]
      split
      · split <;> rfl
      · split
        · exact encrypted_plain.push_event _ _
        · split <;> rfl
    | poll_event => exact .inl rfl
    | open_stream =>
      exact .inl (open_stream_keeps (R := Method.Same encrypted) (fun _ => rfl) (fun _ _ _ _ => rfl) c)
    | open_uni_stream =>
      exact .inl
        (open_uni_stream_keeps (R := Method.Same encrypted) (fun _ => rfl) (fun _ _ _ _ => rfl) c)
    | stream_send stream_id data fin =>
      exact .inl (stream_send_keeps (R := Method.Same encrypted)
        (fun _ _ _ => encrypted_plain.on_streams _) (fun _ _ _ => rfl) stream_id data fin c)
    | stream_recv stream_id cap =>
      left
      refine keeps_seq (R := Method.Same encrypted) Method.keeps_get (fun c => ?_) c
      exact keeps_seq (Method.keeps_require _ _) fun _ => Method.keeps_on fun _ => rfl
    | stream_reset stream_id => exact .inl rfl
    | stream_stop_sending stream_id => exact .inl rfl
    | close error_code reason =>
      left
      simp only [Step.apply, Op.apply, Connection.close]
      split <;> rfl
    | initiate_key_update => exact quiet_initiate_key_update c

/-- What a step seals, beside what it counts. -/
structure Advances (c : Connection B) (s : Step) : Prop where
  limit : encrypted (s.apply c) ≤ AEAD_CONFIDENTIALITY_LIMIT
  fresh : short_sealings c s ≤ encrypted (s.apply c)
  counted : ¬Rekeys c s → encrypted (s.apply c) = encrypted c + short_sealings c s

theorem short_sealings_eq {c : Connection B} {s : Step} {k : Nat}
    (h : (s.apply c).next_pn.get .Application = c.next_pn.get .Application + k) :
    short_sealings c s = k := by
  have hnext := (uses_step s c).next .Application
  unfold short_sealings
  omega

theorem advances_quiet {s : Step} (hs : ∀ buf_len now, s ≠ .op (.poll_transmit buf_len now))
    {c : Connection B} (h : encrypted c ≤ AEAD_CONFIDENTIALITY_LIMIT) : Advances c s := by
  have hnone : short_sealings c s = 0 := by
    refine short_sealings_eq ?_
    rw [next_pn_step hs c]
    rfl
  rcases quiet_step hs c with heq | ⟨hzero, hphase⟩
  · refine ⟨heq ▸ h, hnone ▸ Nat.zero_le _, fun _ => ?_⟩
    rw [heq, hnone]
    rfl
  · refine ⟨hzero ▸ Nat.zero_le _, hnone ▸ Nat.zero_le _, fun hre => absurd ?_ hre⟩
    rw [Rekeys, hphase]
    exact phase_flips _

/-- Before a datagram is built the keys are updated, if they have to be and may be. -/
theorem auto_key_update_cases (c : Connection B) :
    (c.keys.needs_key_update = false ∧ auto_key_update c = (.ok (), c)) ∨
    (∃ e, auto_key_update c = (.error e, c)) ∨
    ∃ send recv send_secret recv_secret, auto_key_update c =
      (.ok (), { c with keys := c.keys.rotate send recv send_secret recv_secret false 0 }) := by
  unfold auto_key_update
  rw [get_bind_run]
  split
  · rw [on_run]
    rcases perform_key_update_cases c.keys with ⟨e, he⟩ | ⟨send, recv, send_secret, recv_secret, he⟩
    · rw [he]
      exact .inr (.inl ⟨e, rfl⟩)
    · rw [he]
      exact .inr (.inr ⟨send, recv, send_secret, recv_secret, rfl⟩)
  · rename_i hneeds
    exact .inl ⟨Bool.eq_false_iff.mpr hneeds, rfl⟩

theorem uses_rewind (c : Connection B) : uses c.rewind_crypto = uses c := by
  unfold rewind_crypto
  split <;> rfl

/-- A poll starts with an update if the keys are used up, and seals one packet at most. -/
theorem advances_poll {buf_len : Nat} {now : Instant} {c : Connection B}
    (h : encrypted c ≤ AEAD_CONFIDENTIALITY_LIMIT)
    (hcan : CanUpdate c (.op (.poll_transmit buf_len now))) :
    Advances c (.op (.poll_transmit buf_len now)) := by
  -- A poll that leaves the keys alone, and counts what it seals.
  have hsame : ∀ k, uses (c.poll_transmit buf_len now).2 =
      ((uses c).1 + k, (uses c).2.1, (uses c).2.2 + k) →
      encrypted c + k ≤ AEAD_CONFIDENTIALITY_LIMIT → Advances c (.op (.poll_transmit buf_len now)) := by
    intro k huses hle
    have hcount : encrypted (c.poll_transmit buf_len now).2 = encrypted c + k :=
      congrArg Prod.fst huses
    have hk : short_sealings c (.op (.poll_transmit buf_len now)) = k :=
      short_sealings_eq (congrArg (·.2.2) huses)
    refine ⟨?_, ?_, fun _ => ?_⟩
    · exact hcount ▸ hle
    · rw [hk]
      show k ≤ encrypted (c.poll_transmit buf_len now).2
      omega
    · rw [hk]
      exact hcount
  by_cases hclosed : c.state = .Closed
  · exact hsame 0 (by simp [poll_transmit, hclosed]) h
  by_cases hamp : c.amplification_allows 1 = false
  · exact hsame 0 (by simp [poll_transmit, hclosed, hamp]) h
  have hpoll : c.poll_transmit buf_len now = _ := (if_neg hclosed).trans (if_neg hamp)
  rcases auto_key_update_cases c with ⟨hneeds, hauto⟩ | ⟨e, hauto⟩ |
    ⟨send, recv, send_secret, recv_secret, hauto⟩
  · rw [hauto] at hpoll
    obtain ⟨k, hk, huses⟩ := Counts.after (uses_rewind c) (counts_transmit buf_len now c.rewind_crypto)
    have hroom : encrypted c < AEAD_CONFIDENTIALITY_LIMIT := by
      rcases hcan with hc | hlt | hcan
      · exact absurd hc hclosed
      · exact hlt
      · by_contra hfull
        have hneeds' : c.keys.needs_key_update = true := by
          unfold needs_key_update
          rw [hcan, Bool.true_and, Bool.or_eq_true]
          exact .inl (decide_eq_true (Nat.not_lt.mp hfull))
        rw [hneeds] at hneeds'
        cases hneeds'
    exact hsame k (by rw [hpoll]; exact huses) (by omega)
  · rw [hauto] at hpoll
    exact hsame 0 (by rw [hpoll]; rfl) h
  · rw [hauto] at hpoll
    obtain ⟨k, hk, huses⟩ := Counts.after (uses_rewind _)
      (counts_transmit buf_len now (rewind_crypto { c with
        keys := c.keys.rotate send recv send_secret recv_secret false 0 }))
    have huses' : uses (Step.apply (.op (.poll_transmit buf_len now)) c) =
        (0 + k, c.keys.key_phase ^^^ 1, (uses c).2.2 + k) := by
      rw [show Step.apply (.op (.poll_transmit buf_len now)) c = (c.poll_transmit buf_len now).2 from rfl,
        hpoll]
      exact huses
    have hcount : encrypted (Step.apply (.op (.poll_transmit buf_len now)) c) = 0 + k :=
      congrArg Prod.fst huses'
    have hsealed : short_sealings c (.op (.poll_transmit buf_len now)) = k :=
      short_sealings_eq (congrArg (·.2.2) huses')
    refine ⟨?_, ?_, fun hre => absurd ?_ hre⟩
    · rw [hcount]
      unfold AEAD_CONFIDENTIALITY_LIMIT
      omega
    · rw [hsealed, hcount]
      omega
    · rw [Rekeys, show (Step.apply (.op (.poll_transmit buf_len now)) c).keys.key_phase =
        c.keys.key_phase ^^^ 1 from congrArg (·.2.1) huses']
      exact phase_flips _

/-! ## Every run -/

theorem since_update_snoc (pre : List (Connection B × Step)) (x : Connection B × Step) :
    since_update (pre ++ [x]) = count_step (since_update pre) x := by
  rw [since_update, List.foldl_append]
  rfl

/-- The count covers the packets sealed under the keys in use, and stays within the limit. -/
def Covered (steps : List (Connection B × Step)) (c : Connection B) : Prop :=
  since_update steps ≤ encrypted c ∧ encrypted c ≤ AEAD_CONFIDENTIALITY_LIMIT

theorem covered_step (pre : List (Connection B × Step)) (c : Connection B) (s : Step)
    (hcan : CanUpdate c s) (h : Covered pre c) : Covered (pre ++ [(c, s)]) (s.apply c) := by
  have hadv : Advances c s := by
    by_cases hpoll : ∃ buf_len now, s = .op (.poll_transmit buf_len now)
    · obtain ⟨buf_len, now, rfl⟩ := hpoll
      exact advances_poll h.2 hcan
    · exact advances_quiet (fun buf_len now heq => hpoll ⟨buf_len, now, heq⟩) h.2
  refine ⟨?_, hadv.limit⟩
  rw [since_update_snoc, count_step]
  split
  · rw [Nat.zero_add]
    exact hadv.fresh
  · rename_i hsame
    rw [hadv.counted hsame]
    exact Nat.add_le_add_right h.1 _

/-- In every run in which keys that are used up may be updated when a datagram is asked for, no
generation of the send keys seals more 1-RTT packets than the limit. -/
theorem sealed_within_the_limit {c : Connection B} (hstart : Started c) (calls : List Call)
    (hcan : run.Along Step.apply CanUpdate c (c.steps calls)) : WithinLimit c (c.steps calls) := by
  have hzero : encrypted c = 0 := by
    cases hrole : c.role with
    | Client =>
      obtain ⟨⟨send, recv, hkeys⟩, -⟩ := hstart.of_client hrole
      rw [encrypted, hkeys]
      rfl
    | Server =>
      rw [encrypted, (hstart.of_server hrole).1]
      rfl
  have hinit : Covered [] c := ⟨Nat.zero_le _, hzero ▸ Nat.zero_le _⟩
  intro pre hpre
  have hrun := run.history Covered covered_step (hcan.upto hpre) hinit
  exact Nat.le_trans hrun.1 hrun.2

/-! ## A peer that never confirms -/

open standin

/-- What a server is called with in a handshake, and then it updates its keys. -/
def updating_calls : List Call :=
  let (c, hello, s) := deliver (client .default_params) (server .default_params)
  let (s, _, c) := deliver s c
  let (_, finished, _) := deliver c s
  [hello, .op (.poll_transmit 1500 0), finished, .op (.poll_transmit 1500 0), .op .initiate_key_update]

/-- The law at a server that updates its keys. -/
theorem update_is_within_the_limit :
    WithinLimit (server .default_params) ((server .default_params).steps updating_calls) :=
  sealed_within_the_limit (.server _ _ _ _ _) updating_calls (by decide +kernel)

/-- Steps that leave the key phase alone add what they seal to the count. -/
theorem since_update_of_kept {c : Connection B} {steps : List Step}
    (h : run.Along Step.apply (fun c s => ¬Rekeys c s) c steps) (pre : List (Connection B × Step)) :
    since_update (pre ++ run.trace Step.apply c steps) + c.next_pn.get .Application =
      since_update pre + (c.after steps).next_pn.get .Application := by
  induction steps generalizing c pre with
  | nil => simp [after]
  | cons s steps ih =>
    obtain ⟨hs, hsteps⟩ := run.along_cons.mp h
    have hnext := (uses_step s c).next .Application
    have hrest := ih hsteps (pre ++ [(c, s)])
    have hafter : c.after (s :: steps) = (s.apply c).after steps := rfl
    rw [since_update_snoc, count_step, if_neg hs, List.append_assoc, List.singleton_append] at hrest
    rw [run.trace_cons, hafter]
    unfold short_sealings at hrest
    dsimp only at hrest
    omega

theorem pn_length_le (full_pn largest_acked : Nat) : pn_length full_pn largest_acked ≤ 4 := by
  unfold pn_length
  dsimp only
  split <;> split <;> first | omega | (split <;> first | omega | (split <;> omega))

def challenge : Bytes := [1, 2, 3, 4, 5, 6, 7, 8]

/-- A PATH_CHALLENGE and a byte that starts no frame, so that the packet is not booked. -/
def unbooked : Bytes := 0x1a :: challenge ++ [0xff]

/-- The packet as a peer seals it that goes on using the keys the connection has given up. -/
def stale_packet (c : Connection build) : Bytes :=
  match c.keys.key_update.prev_recv_key with
  | none => []
  | some prev =>
    ((seal_packet prev 0x1f 1500 (encode_short_header c.local_scid 0x44 1500) unbooked 9 0).toOption).getD []

/-- Only the keys given up open the packet. -/
def OpensStale (datagram : Bytes) (c : Connection build) : Prop :=
  match c.unprotect_short datagram 1500, c.keys.app_recv, c.keys.key_update.prev_recv_key with
  | .ok u, some recv, some prev =>
    (c.recv_pn_tracker.get .Application).contains u.pn = false ∧
    (u.first_byte >>> 2) &&& 1 = c.keys.key_phase ∧
    (open_payload recv u).toOption = none ∧ (open_payload prev u).toOption = some unbooked
  | _, _, _ => False

instance (datagram : Bytes) (c : Connection build) : Decidable (OpensStale datagram c) := by
  unfold OpensStale
  split <;> infer_instance

/-- A connection that has updated its keys, has nothing to send, and meets the packet. -/
structure Stuck (datagram : Bytes) (c : Connection build) : Prop where
  alone : coalesced datagram = [.ok datagram]
  short : packet_kind datagram = some .Short
  active : c.state = .Active
  validated : c.address_validated = true
  going : c.close_frame = none
  released : c.handshake_slot = none
  rewound : c.crypto_rewind_pending = false
  initial : c.keys.initial_send = none
  handshake : c.keys.handshake_send = none
  keyed : c.keys.app_send.isSome = true
  unconfirmed : c.keys.key_update.update_confirmed = false
  remote : c.remote_cid.length = 4
  acked : c.ack_eliciting_received.get .Application = false
  done : c.need_handshake_done = false
  flow : c.flow_control.should_send_max_data = none
  streams : c.streams.streams = []
  queue : c.sio.send_queue = []
  stale : OpensStale datagram c

instance (datagram : Bytes) (c : Connection build) : Decidable (Stuck datagram c) :=
  decidable_of_iff (coalesced datagram = [.ok datagram] ∧ packet_kind datagram = some .Short ∧
    c.state = .Active ∧ c.address_validated = true ∧ c.close_frame = none ∧
    c.handshake_slot.isSome = false ∧ c.crypto_rewind_pending = false ∧
    c.keys.initial_send.isSome = false ∧ c.keys.handshake_send.isSome = false ∧
    c.keys.app_send.isSome = true ∧ c.keys.key_update.update_confirmed = false ∧
    c.remote_cid.length = 4 ∧ c.ack_eliciting_received.get .Application = false ∧
    c.need_handshake_done = false ∧ c.flow_control.should_send_max_data = none ∧
    c.streams.streams = [] ∧ c.sio.send_queue = [] ∧ OpensStale datagram c)
  ⟨fun ⟨h₁, h₂, h₃, h₄, h₅, h₆, h₇, h₈, h₉, h₁₀, h₁₁, h₁₂, h₁₃, h₁₄, h₁₅, h₁₆, h₁₇, h₁₈⟩ =>
    ⟨h₁, h₂, h₃, h₄, h₅, by simpa using h₆, h₇, by simpa using h₈, by simpa using h₉, h₁₀, h₁₁, h₁₂, h₁₃,
      h₁₄, h₁₅, h₁₆, h₁₇, h₁₈⟩,
   fun h => ⟨h.alone, h.short, h.active, h.validated, h.going, by simp [h.released], h.rewound,
    by simp [h.initial], by simp [h.handshake], h.keyed, h.unconfirmed, h.remote, h.acked, h.done,
    h.flow, h.streams, h.queue, h.stale⟩⟩

theorem update_leaves_stuck : ∃ c, (server .default_params).calls updating_calls = some c ∧
    Stuck (stale_packet c) c := by
  have hrun : ((server .default_params).calls updating_calls).any
      (fun c => decide (Stuck (stale_packet c) c)) = true := by decide +kernel
  obtain ⟨c, hc, hstuck⟩ := (Option.any_eq_true _ _).mp hrun
  exact ⟨c, hc, of_decide_eq_true hstuck⟩


namespace Stuck

variable {datagram : Bytes} {c : Connection build}

/-- The state after the packet was met. -/
def challenged (c : Connection build) : Connection build :=
  { c with last_activity := 0, pending_path_response := some challenge }

theorem arrive_eq (h : Stuck datagram c) :
    c.arrive datagram.length 0 = { c with last_activity := 0 } := by
  simp [arrive, h.validated]

theorem opens (h : Stuck datagram c) : ∃ pn, open_short datagram 1500 { c with last_activity := 0 } =
    (.ok { level := .Application, pn, payload := some unbooked }, { c with last_activity := 0 }) := by
  have hstale := h.stale
  unfold OpensStale at hstale
  split at hstale
  · rename_i u recv prev hu hrecv hprev
    obtain ⟨hnew, hphase, hcurrent, hpayload⟩ := hstale
    have hu' : unprotect_short datagram 1500 { c with last_activity := 0 } = .ok u := hu
    have hfail : ∃ e, open_payload recv u = .error e := by
      cases hopen : open_payload recv u with
      | error e => exact ⟨e, rfl⟩
      | ok _ =>
        rw [hopen] at hcurrent
        cases hcurrent
    obtain ⟨e, he⟩ := hfail
    have hok : open_payload prev u = .ok unbooked := by
      cases hopen : open_payload prev u with
      | error _ =>
        rw [hopen] at hpayload
        cases hpayload
      | ok _ =>
        rw [hopen] at hpayload
        cases hpayload
        rfl
    refine ⟨u.pn, ?_⟩
    unfold open_short
    rw [hu']
    dsimp only
    rw [hnew]
    unfold open_phase
    simp only [bind_run, get_run, hrecv, Method.okOr_some_run, if_pos hphase]
    unfold open_current
    simp [he, hprev, hok]
  · exact hstale.elim

theorem dispatches (c : Connection build) :
    frame_steps .Application 0 unbooked.length unbooked c =
      [.dispatch .Application 0 (.PathChallenge challenge)] ∧
    ∃ e, dispatch_frames .Application 0 unbooked.length unbooked false c =
      (.error e, { c with pending_path_response := some challenge }) := by
  have hfirst : decode unbooked = .ok (.PathChallenge challenge, 9) := by decide
  have hrest : unbooked.drop 9 = [0xff] := by decide
  have hlast : ∃ e, decode [0xff] = .error e := ⟨_, rfl⟩
  obtain ⟨e, he⟩ := hlast
  have hlen : unbooked.length = 8 + 1 + 1 := by decide
  have hfull : unbooked ≠ [] := by decide
  rw [hlen]
  constructor
  · simp only [frame_steps, if_neg hfull, hfirst, dispatch_frame, Method.modify_run, hrest, he]
    rfl
  · refine ⟨e, ?_⟩
    simp only [dispatch_frames, if_neg hfull, hfirst, bind_run, lift_run,
      dispatch_frame, Method.modify_run, hrest, he]
    rfl

theorem stays_challenged (h : Stuck datagram c) : Stuck datagram (challenged c) :=
  ⟨h.alone, h.short, h.active, h.validated, h.going, h.released, h.rewound, h.initial, h.handshake,
    h.keyed, h.unconfirmed, h.remote, h.acked, h.done, h.flow, h.streams, h.queue, h.stale⟩

theorem keys_checked (h : Stuck datagram c) : check_tls_keys c = (.ok (), c) := by
  simp [check_tls_keys, install_ready_keys, bind_run, get_run, h.released,
    maybe_release_handshake_slot]

theorem recv_eq (h : Stuck datagram c) :
    (Call.recv datagram 1500 0).run c = some (challenged c) ∧
    (Call.recv datagram 1500 0).steps c = [.arrive datagram.length 0, .open_packet .Short datagram 1500,
      .dispatch .Application 0 (.PathChallenge challenge), .check_tls_keys] := by
  have hopen : c.state ≠ .Closed := by
    rw [h.active]
    nofun
  obtain ⟨pn, hopens⟩ := h.opens
  obtain ⟨hframes, e, hdispatch⟩ := dispatches { c with last_activity := 0 }
  have hpacket : recv_packet datagram 1500 0 { c with last_activity := 0 } = some (challenged c) := by
    unfold recv_packet
    rw [h.short]
    simp only [recv_kind, recv_short, hopens, process, hdispatch]
    rfl
  have hkeys : check_tls_keys (challenged c) = (.ok (), challenged c) :=
    h.stays_challenged.keys_checked
  constructor
  · simp [Call.run, Connection.recv, hopen, h.alone, h.arrive_eq, recv_packets, hpacket, hkeys]
  · simp [Call.steps, recv_steps, hopen, h.alone, h.arrive_eq, recv_packets, hpacket, packets_steps,
      h.short, packet_steps, open_kind, hopens, opened_steps, hframes, hdispatch]

/-- The PATH_RESPONSE that is all there is to send. -/
def response : Payload := { frames := [.PathResponse challenge], bytes := 0x1b :: challenge }

theorem drain_eq {room : Nat} (h : Stuck datagram c) (hroom : 9 ≤ room)
    (hpending : c.pending_path_response = some challenge) :
    c.drain_short room = ({ c with pending_path_response := none }, response) := by
  have hpush : Payload.push room (.PathResponse challenge) .empty = some response := by
    have hencode : encode (.PathResponse challenge) room = .ok (0x1b :: challenge) := by
      have htype : write_varint room 0x1b [] = (.ok (), [0x1b]) := by
        rw [ack_frames.write_varint_of_le (by decide) (by simpa using by omega)]
        rfl
      have hdata : write_bytes room challenge [0x1b] = (.ok (), 0x1b :: challenge) := by
        rw [write_bytes, if_neg]
        · rfl
        · simp [challenge]
          omega
      simp [encode, write_frame, bind_run, htype, hdata]
    simp [Payload.push, Payload.empty, hencode, response]
  have hqueue : ({ c.sio with send_queue := [] } : QuicStreamIo) = c.sio := by
    rw [← h.queue]
  simp [drain_short, put_handshake_done, h.done, put_path_response, hpending, hpush, put_ack, h.acked,
    put_max_data, h.flow, h.streams, put_max_stream_data, put_streams, h.queue, build_stream_frames,
    hqueue]

theorem seals (h : Stuck datagram c) : ∃ pkt, pkt.frames = [.PathResponse challenge] ∧
    seal_level .Application 1500 (sample_padding (c.pn_len .Application) response.bytes.length)
      ({ c with pending_path_response := none }, response) = some pkt := by
  obtain ⟨send, hsend⟩ := Option.isSome_iff_exists.mp h.keyed
  have hpos : 1 ≤ pn_length (c.next_pn.get .Application) (c.largest_pn .Application) := pn_length_pos _ _
  have hle : pn_length (c.next_pn.get .Application) (c.largest_pn .Application) ≤ 4 := pn_length_le _ _
  have hpad : sample_padding (c.pn_len .Application) response.bytes.length = 0 := by
    simp only [sample_padding, pn_len, tag_len, response, challenge, List.length_cons, List.length_nil]
    omega
  have hreach : reaches_aead 1500 (c.header_of .Application 1500 response.bytes.length).1 response.bytes
      (c.next_pn.get .Application) (c.largest_pn .Application) = true := by
    have hremote := h.remote
    simp only [reaches_aead, header_of, encode_short_header]
    rw [if_neg (by omega)]
    simp only [encode_pn, List.length_cons, hremote]
    rw [if_neg (by omega)]
    simp only [toBe_length, response, challenge, List.length_cons, List.length_nil, tag_len,
      decide_eq_true_eq]
    omega
  obtain ⟨data, hdata⟩ := seal_packet_ok send (c.header_of .Application 1500 response.bytes.length).2
    hreach (by simp [response, challenge])
  refine ⟨{ level := .Application, frames := response.frames, data }, rfl, ?_⟩
  rw [hpad]
  simp only [seal_level, send_keys, hsend, List.replicate_zero, List.append_nil]
  have hheader : header_of .Application 1500 response.bytes.length
      { c with pending_path_response := none } = c.header_of .Application 1500 response.bytes.length := rfl
  rw [hheader]
  have hlargest : largest_pn { c with pending_path_response := none } .Application =
    c.largest_pn .Application := rfl
  rw [hlargest, hdata]

/-- What a poll leaves behind. -/
def answered (size : Nat) (c : Connection build) : Connection build :=
  short_sent [.PathResponse challenge]
    (packet_sent .Application size true true 0 { c with pending_path_response := none })

theorem poll_eq (h : Stuck datagram c) (hpending : c.pending_path_response = some challenge) :
    ∃ size, (c.poll_transmit 1500 0).2 = answered size c := by
  obtain ⟨pkt, hframes, hseal⟩ := h.seals
  have hopen : c.state ≠ .Closed := by
    rw [h.active]
    decide
  have hauto : auto_key_update c = (.ok (), c) := by
    have hneeds : c.keys.needs_key_update = false := by
      simp [needs_key_update, can_initiate_key_update, h.unconfirmed]
    simp [auto_key_update, bind_run, get_run, hneeds]
  have hrewind : c.rewind_crypto = c := by simp [rewind_crypto, h.rewound]
  have hshort : c.build_short_packet 1500 0 = (some pkt, answered pkt.data.length c) := by
    have hlen : c.pn_len .Application ≤ 4 := pn_length_le _ _
    have hremote := h.remote
    unfold build_short_packet
    dsimp only
    rw [if_neg (by omega), h.drain_eq (by omega) hpending]
    have hfull : response.bytes ≠ [] := List.cons_ne_nil _ _
    dsimp only
    rw [if_neg hfull, hseal]
    dsimp only
    rw [hframes]
    rfl
  have hrelease : c.maybe_release_handshake_slot = c := by simp [maybe_release_handshake_slot, h.released]
  have hpackets : c.build_packets 1500 0 = ([pkt], answered pkt.data.length c) := by
    simp [build_packets, build_long_packets, build_with_keys, has_send_keys,
      send_keys, h.initial, h.handshake, h.keyed, hrelease, packet_length, hshort]
  refine ⟨pkt.data.length, ?_⟩
  have hvalid : (answered pkt.data.length c).address_validated = true := h.validated
  simp only [poll_transmit, if_neg hopen, amplification_allows, h.validated, Bool.true_or, hauto,
    hrewind, transmit, h.going, hpackets, emit, hvalid]
  simp
  split <;> rfl

theorem stays_answered (h : Stuck datagram c) (size : Nat) : Stuck datagram (answered size c) :=
  ⟨h.alone, h.short, h.active, h.validated, h.going, h.released, h.rewound, h.initial, h.handshake,
    h.keyed, h.unconfirmed, h.remote, h.acked, by simp [answered, short_sent, packet_sent, h.done],
    h.flow, h.streams, h.queue, h.stale⟩

/-- The packet arrives, and the connection answers it under the same keys. -/
theorem answers (h : Stuck datagram c) :
    ∃ c', c.calls [.recv datagram 1500 0, .op (.poll_transmit 1500 0)] = some c' ∧ Stuck datagram c' ∧
      c'.next_pn.get .Application = c.next_pn.get .Application + 1 ∧
      run.Along Step.apply (fun c s => ¬Rekeys c s) c
        (c.steps [.recv datagram 1500 0, .op (.poll_transmit 1500 0)]) := by
  obtain ⟨hrun, hsteps⟩ := h.recv_eq
  obtain ⟨size, hpoll⟩ := h.stays_challenged.poll_eq rfl
  have hafter : run.final Step.apply c ((Call.recv datagram 1500 0).steps c) = challenged c :=
    (Call.run_eq_final hrun).symm
  refine ⟨answered size (challenged c), ?_, h.stays_challenged.stays_answered size, ?_, ?_⟩
  · simp only [calls, hrun, Option.bind_some]
    exact congrArg some hpoll
  · simp [answered, short_sent, packet_sent, challenged]
  · simp only [Connection.steps, hrun]
    refine run.along_append.mpr ⟨?_, ?_⟩
    · obtain ⟨pn, hopens⟩ := h.opens
      have hopened : Step.apply (.open_packet .Short datagram 1500) { c with last_activity := 0 } =
          { c with last_activity := 0 } := congrArg Prod.snd hopens
      have harrived : Step.apply (.arrive datagram.length 0) c = { c with last_activity := 0 } :=
        h.arrive_eq
      rw [hsteps, run.along_cons, run.along_cons, run.along_cons, run.along_cons, harrived, hopened]
      have hchecked : Step.apply .check_tls_keys (challenged c) = challenged c :=
        congrArg Prod.snd h.stays_challenged.keys_checked
      exact ⟨not_not_intro (congrArg (·.keys.key_phase) harrived),
        not_not_intro (congrArg (·.keys.key_phase) hopened), not_not_intro rfl,
        not_not_intro (congrArg (·.keys.key_phase) hchecked), run.along_nil⟩
    · rw [hafter]
      refine run.along_cons.mpr ⟨?_, run.along_nil⟩
      unfold Rekeys
      rw [show Step.apply (.op (.poll_transmit 1500 0)) (challenged c) = _ from hpoll]
      exact not_not_intro rfl

end Stuck

/-- The packet is met again and again. -/
def stale_calls (datagram : Bytes) : Nat → List Call
  | 0 => []
  | n + 1 => [.recv datagram 1500 0, .op (.poll_transmit 1500 0)] ++ stale_calls datagram n

theorem stale_calls_count {datagram : Bytes} {c : Connection build} (h : Stuck datagram c) (n : Nat)
    (pre : List (Connection build × Step)) :
    since_update pre + n =
      since_update (pre ++ run.trace Step.apply c (c.steps (stale_calls datagram n))) := by
  induction n generalizing c pre with
  | zero => simp [stale_calls, Connection.steps]
  | succ n ih =>
    obtain ⟨c', hcalls, hstuck, hnext, hkept⟩ := h.answers
    have hfirst := since_update_of_kept hkept pre
    rw [← calls_eq_after hcalls, hnext] at hfirst
    have hrest := ih hstuck
      (pre ++ run.trace Step.apply c (c.steps [.recv datagram 1500 0, .op (.poll_transmit 1500 0)]))
    have hafter : run.final Step.apply c (c.steps [.recv datagram 1500 0, .op (.poll_transmit 1500 0)]) =
        c' := (calls_eq_after hcalls).symm
    rw [stale_calls, steps_append hcalls, run.trace_append, hafter, ← List.append_assoc, ← hrest]
    omega

/-- A peer that never confirms an update makes a server seal without end under one key. -/
theorem limit_is_passed : ¬ ∀ (B : Build) (c : Connection B), Started c → ∀ calls,
    WithinLimit c (c.steps calls) := by
  intro hall
  obtain ⟨c, hcalls, hstuck⟩ := update_leaves_stuck
  have hwithin := hall build (server .default_params) (.server _ _ _ _ _)
    (updating_calls ++ stale_calls (stale_packet c) (AEAD_CONFIDENTIALITY_LIMIT + 1)) _
    (List.prefix_refl _)
  have hafter : run.final Step.apply (server .default_params)
      ((server .default_params).steps updating_calls) = c := (calls_eq_after hcalls).symm
  rw [steps_append hcalls, run.trace_append, hafter, ← stale_calls_count hstuck] at hwithin
  omega

end milli_http.connection.aead_limit
