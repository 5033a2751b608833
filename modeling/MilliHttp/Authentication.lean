-- When a client is connected. The server's Finished has been verified by then and there are
-- 1-RTT keys, as long as no HANDSHAKE_DONE is taken from an Initial or Handshake packet
-- during the handshake.
import MilliHttp.Connection.Handshaking
import MilliHttp.Standin

open bytes method

namespace milli_http.connection.authentication

open crypto tls transport packet frame Connection

variable {B : Build}

/-- The engine of the connection has verified the server's Finished. -/
def FinishedVerified (c : Connection B) : Prop := ∃ e ∈ c.engine, e.Authentic B.toPrimitives

/-- A connected client has 1-RTT keys, and has verified the Finished at some point before. -/
def ConnectedAfterFinished (c : Connection B) (steps : List Step) : Prop :=
  ∀ pre, pre <+: steps → (c.after pre).Up →
    (c.after pre).keys.app_send.isSome ∧ (c.after pre).keys.app_recv.isSome ∧
      ∃ earlier, earlier <+: pre ∧ FinishedVerified (c.after earlier)

/-- During the handshake a HANDSHAKE_DONE comes from a 1-RTT packet. -/
def DoneInOneRtt (c : Connection B) : Step → Prop
  | .dispatch level _ .HandshakeDone => level = .Application ∨ c.state ≠ .Handshaking
  | _ => True

instance (c : Connection B) (s : Step) : Decidable (DoneInOneRtt c s) := by
  unfold DoneInOneRtt
  split <;> infer_instance

/-! ## What holds of a client -/

/-- A client that connects no earlier than it should. `seen` says that a Finished was verified
before now. -/
structure Sound (seen : Prop) (c : Connection B) : Prop where
  role : c.role = .Client
  progress : ∀ e ∈ c.engine, e.ClientProgress B.toPrimitives
  complete : ∀ e ∈ c.engine, e.complete = true → seen
  app : c.keys.app_recv.isSome → c.keys.app_send.isSome ∧ (seen ∨ FinishedVerified c)
  up : c.Up → c.keys.app_recv.isSome

theorem Sound.mono {seen seen' : Prop} {c : Connection B} (h : Sound seen c) (hs : seen → seen') :
    Sound seen' c :=
  ⟨h.role, h.progress, fun e he hc => hs (h.complete e he hc),
    fun ha => ⟨(h.app ha).1, (h.app ha).2.imp_left hs⟩, h.up⟩

section

variable {seen : Prop} {c c' : Connection B}

theorem Sound.calm (h : Sound seen c) (hcalm : Calm c c') : Sound seen c' := by
  have hrecv : c'.keys.app_recv.isSome = c.keys.app_recv.isSome := hcalm.recv .Application
  have hengine := hcalm.engine
  refine ⟨hcalm.role.trans h.role, ?_, ?_, fun ha => ?_, fun hup => ?_⟩
  · rw [hengine]
    exact h.progress
  · rw [hengine]
    exact h.complete
  · obtain ⟨hsend, hseen⟩ := h.app (hrecv ▸ ha)
    refine ⟨hcalm.app_send hsend, ?_⟩
    rwa [FinishedVerified, hengine]
  · exact hrecv.trans (h.up (hcalm.up hup))

/-- A new engine for the old one. -/
theorem Sound.map_tls (h : Sound seen c) {f : TlsEngine → TlsEngine}
    (hprogress : ∀ e ∈ c.engine, (f e).ClientProgress B.toPrimitives)
    (hcomplete : ∀ e ∈ c.engine, (f e).complete = true → seen)
    (hauth : ∀ e ∈ c.engine, e.Authentic B.toPrimitives → (f e).Authentic B.toPrimitives) :
    Sound seen (c.map_tls f) := by
  have hmem : ∀ e ∈ (c.map_tls f).engine, ∃ e₀ ∈ c.engine, f e₀ = e := by
    intro e he
    rw [engine_map_tls] at he
    exact Option.map_eq_some_iff.mp he
  refine ⟨h.role, fun e he => ?_, fun e he => ?_, fun ha => ⟨(h.app ha).1, ?_⟩, h.up⟩
  · obtain ⟨e₀, he₀, rfl⟩ := hmem e he
    exact hprogress e₀ he₀
  · obtain ⟨e₀, he₀, rfl⟩ := hmem e he
    exact hcomplete e₀ he₀
  · refine (h.app ha).2.imp_right ?_
    rintro ⟨e, he, hv⟩
    refine ⟨f e, ?_, hauth e he hv⟩
    rw [engine_map_tls]
    exact Option.map_eq_some_iff.mpr ⟨e, he, rfl⟩

theorem Sound.read (h : Sound seen c) (level : Level) (msg : Bytes) :
    Sound seen (c.map_tls fun tls => (TlsEngine.read_handshake B.toPrimitives level msg tls).2) := by
  have hread := fun e he => TlsEngine.read_handshake_step level msg e (h.progress e he)
  refine h.map_tls (fun e he => (hread e he).progress) (fun e he hc => ?_) fun e he =>
    (hread e he).authentic
  exact h.complete e he ((hread e he).complete ▸ hc)

theorem Sound.write (h : Sound seen c) (hfinished : ∀ e ∈ c.engine, e.state = .SendFinished → seen)
    (cap : Nat) :
    Sound seen (c.map_tls fun tls => (TlsEngine.write_handshake B.toPrimitives cap tls).2) := by
  have hwrite := fun e he => TlsEngine.write_handshake_write cap e (h.progress e he)
  refine h.map_tls (fun e he => (hwrite e he).progress) (fun e he hc => ?_) fun e he =>
    (hwrite e he).authentic
  rcases (hwrite e he).complete hc with hc | hf
  · exact h.complete e he hc
  · exact hfinished e he hf

/-- The slot goes only when the handshake is complete. -/
theorem Sound.release (h : Sound seen c) : Sound seen c.maybe_release_handshake_slot := by
  rcases maybe_release_cases c with heq | ⟨ctx, hctx, hcan, heq⟩
  · rw [heq]
    exact h
  · rw [heq]
    have hcomplete : ctx.tls.complete = true := by
      simp only [can_release, h.role, Bool.and_eq_true] at hcan
      exact hcan.2
    have hseen : seen := h.complete ctx.tls (by simp [engine, hctx]) hcomplete
    have hnone : ({ c with handshake_slot := none } : Connection B).engine = none := rfl
    refine ⟨h.role, ?_, ?_, fun ha => ⟨(h.app ha).1, .inl hseen⟩, h.up⟩ <;> simp [hnone]

/-- Keys come from an engine that has earned them. -/
theorem Sound.keys_taken (h : Sound seen c) {ctx : HandshakeContext} {derived : DerivedKeys}
    (hctx : c.handshake_slot = some ctx) (hderived : ctx.tls.pending_keys = some derived) :
    Sound seen (c.keys_taken ctx derived) := by
  have hmem : ctx.tls ∈ c.engine := by simp [engine, hctx]
  have hp := h.progress ctx.tls hmem
  have hengine : ∀ e ∈ (c.keys_taken ctx derived).engine,
      e = { ctx.tls with pending_keys := none } := by
    intro e he
    simpa [engine, Connection.keys_taken, eq_comm] using he
  have hauth : ctx.tls.Authentic B.toPrimitives → FinishedVerified (c.keys_taken ctx derived) :=
    fun ha => ⟨{ ctx.tls with pending_keys := none }, rfl, ha.past, ha.verified⟩
  refine ⟨h.role, fun e he => ?_, fun e he => ?_, fun ha => ?_, fun hup => ?_⟩
  · rw [hengine e he]
    exact ⟨hp.role, by rintro _ ⟨⟩, by rintro _ ⟨⟩, fun hl => ⟨(hp.late hl).past, (hp.late hl).verified⟩⟩
  · rw [hengine e he]
    exact h.complete ctx.tls hmem
  · rcases ConnectionKeys.install_derived_cases derived c.keys with ⟨-, hk⟩ | ⟨-, _, _, hk⟩ |
      ⟨hlevel, _, _, _, hk⟩
    all_goals simp only [Connection.keys_taken, hk] at ha ⊢
    · refine ⟨(h.app ha).1, (h.app ha).2.imp_right ?_⟩
      rintro ⟨e, he, hv⟩
      rw [engine, hctx] at he
      cases he
      simpa only [Connection.keys_taken, hk] using hauth hv
    · refine ⟨(h.app ha).1, (h.app ha).2.imp_right ?_⟩
      rintro ⟨e, he, hv⟩
      rw [engine, hctx] at he
      cases he
      simpa only [Connection.keys_taken, hk] using hauth hv
    · refine ⟨rfl, .inr ?_⟩
      simpa only [Connection.keys_taken, hk] using hauth (hp.application derived hderived hlevel)
  · exact (grows_keys_taken c ctx derived).app (h.up hup)

theorem Sound.keys_installed (h : Sound seen c) (level : Level) :
    Sound seen (keys_installed level c) := by
  unfold Connection.keys_installed
  split
  · exact h
  · split
    · exact ⟨h.role, h.progress, h.complete, h.app, h.up⟩
    · exact h
  · split
    · rename_i hserver
      rw [h.role] at hserver
      cases hserver.1
    · exact h

theorem Sound.check_tls_keys (h : Sound seen c) : Sound seen (check_tls_keys c).2 := by
  rcases check_tls_keys_cases c with heq | ⟨ctx, derived, hctx, hderived, heq | ⟨-, heq⟩⟩
  · rw [heq]
    exact h.release
  · rw [heq]
    exact h.keys_taken hctx hderived
  · rw [heq]
    exact (((h.keys_taken hctx hderived).keys_installed _).calm (calm_learn_params _)).release

theorem Sound.handle_crypto_frame (h : Sound seen c) (level : Level) (offset : Nat) (data : Bytes) :
    Sound seen (handle_crypto_frame level offset data c).2 := by
  refine handle_crypto_frame_keeps (R := Method.Preserves (Sound seen))
    (fun _ _ c h => h.calm (calm_map_reasm _ _ c)) (fun level msg c h => ?_)
    (fun c h => h.check_tls_keys) level offset data c h
  rw [on_tls_run]
  exact h.read level msg

theorem Sound.connected (h : Sound seen c) (hrecv : c.keys.app_recv.isSome) :
    Sound seen (push_event { c with state := .Active, address_validated := true } .Connected) := by
  unfold push_event
  split
  · exact ⟨h.role, h.progress, h.complete, h.app, fun _ => hrecv⟩
  · exact ⟨h.role, h.progress, h.complete, h.app, fun _ => hrecv⟩

theorem Sound.discard_handshake (h : Sound seen c) : Sound seen c.discard_handshake :=
  ⟨h.role, h.progress, h.complete, h.app, h.up⟩

/-- HANDSHAKE_DONE connects a client, which is sound if it has its keys. -/
theorem Sound.handshake_done (h : Sound seen c)
    (hkeys : c.keys.app_recv.isSome ∨ c.state ≠ .Handshaking) : Sound seen (handshake_done c) := by
  unfold Connection.handshake_done
  split
  · exact h
  · refine Sound.discard_handshake ?_
    split
    · rename_i hstate
      exact h.connected (hkeys.resolve_right fun hne => hne hstate)
    · exact h

theorem Sound.learn_initial (h : Sound seen c) (hdr : InitialHeader) :
    Sound seen (learn_initial hdr c).2 := by
  have hcid : ∀ c : Connection B, Sound seen c → Sound seen (learn_remote_cid hdr c) := by
    intro c h
    unfold learn_remote_cid
    split
    · exact h.calm (calm_of_eq rfl rfl rfl id)
    · exact h
  rcases learn_initial_cases hdr c with ⟨-, heq⟩ | ⟨-, send, recv, heq⟩
  · rw [heq]
    exact hcid c h
  · rw [heq]
    refine hcid _ ?_
    unfold record_cids
    rw [if_neg (by simp [h.role])]
    exact ⟨h.role, h.progress, h.complete, h.app, h.up⟩

end

/-! ## Runs -/

/-- In a call of `poll_transmit` the client's Finished may go out, so the server's has been
verified before. -/
structure SoundSending (seen : Prop) (c : Connection B) : Prop where
  sound : Sound seen c
  finished : ∀ e ∈ c.engine, e.state = .SendFinished → seen

theorem SoundSending.poll_transmit {seen : Prop} {c : Connection B} (h : SoundSending seen c)
    (buf_len : Nat) (now : Instant) : SoundSending seen (c.poll_transmit buf_len now).2 := by
  refine KeptByTransmit.poll_transmit (R := Method.Preserves (SoundSending seen))
    (KeptByTransmit.of_calm (fun c c' hcalm h => ?_) (fun c h => ?_) (fun c h => ?_)) buf_len now c h
  · exact ⟨h.sound.calm hcalm, hcalm.engine ▸ h.finished⟩
  · refine ⟨h.sound.write h.finished 2048, fun e he hf => ?_⟩
    rw [engine_map_tls] at he
    obtain ⟨e₀, he₀, rfl⟩ := Option.map_eq_some_iff.mp he
    have hwrite := TlsEngine.write_handshake_write 2048 e₀ (h.sound.progress e₀ he₀)
    exact h.finished e₀ he₀ (hwrite.finished hf)
  · refine ⟨h.sound.release, ?_⟩
    rcases maybe_release_cases c with heq | ⟨ctx, -, -, heq⟩
    · rw [heq]
      exact h.finished
    · rw [heq]
      have hnone : ({ c with handshake_slot := none } : Connection B).engine = none := rfl
      simp [hnone]

theorem Sound.step {seen : Prop} {c : Connection B} {s : Step} (h : Sound seen c)
    (hadmitted : Admitted c s) (hdone : DoneInOneRtt c s) :
    Sound (seen ∨ FinishedVerified c) (s.apply c) := by
  have h' : Sound (seen ∨ FinishedVerified c) c := h.mono .inl
  cases hs : moves_handshake s with
  | false => exact h'.calm (calm_step hs c)
  | true =>
    cases s with
    | arrive => cases hs
    | record => cases hs
    | open_packet kind pkt_data scratch_len =>
      cases kind with
      | Initial =>
        simp only [Step.apply]
        rcases open_initial_cases pkt_data scratch_len c with heq | ⟨hdr, -, heq⟩
        · rw [heq]
          exact h'
        · rw [heq]
          exact h'.learn_initial hdr
      | _ => cases hs
    | dispatch level now frame =>
      cases frame with
      | Crypto crypto => exact h'.handle_crypto_frame level _ _
      | HandshakeDone =>
        refine h'.handshake_done (hdone.imp_left ?_)
        rintro rfl
        exact hadmitted
      | _ => cases hs
    | initial_done =>
      simp only [Step.apply, initial_done, h.role]
      exact h'
    | check_tls_keys => exact h'.check_tls_keys
    | op o =>
      cases o with
      | poll_transmit buf_len now =>
        refine (SoundSending.poll_transmit ⟨h', fun e he hf => ?_⟩ buf_len now).sound
        exact .inr ⟨e, he, (h.progress e he).late (.inl hf)⟩
      | _ => cases hs

theorem sound_client {c : Connection B} (hstart : Started c) (hrole : c.role = .Client) :
    Sound False c := by
  obtain ⟨⟨send, recv, hkeys⟩, config, secret_bytes, random, hengine⟩ := hstart.of_client hrole
  have hnone : c.keys.app_recv = none := by rw [hkeys]; rfl
  refine ⟨hrole, fun e he => ?_, fun e he hc => ?_, fun ha => ?_, fun hup => absurd hup hstart.not_up⟩
  · rw [hengine] at he
    cases he
    exact ⟨rfl, nofun, nofun, by rintro (h | h | h) <;> cases h⟩
  · rw [hengine] at he
    cases he
    cases hc
  · rw [hnone] at ha
    cases ha

/-- In every run of a client that takes HANDSHAKE_DONE from 1-RTT packets only, while it is
handshaking, the client is connected only after the server's Finished was verified and 1-RTT
keys were installed. -/
theorem client_connects_after_finished {c : Connection B} (hstart : Started c)
    (hrole : c.role = .Client) (cs : List Call)
    (hdone : run.Along Step.apply DoneInOneRtt c (c.steps cs)) :
    ConnectedAfterFinished c (c.steps cs) := by
  intro pre hpre hup
  have hadmitted := (steps_admitted c cs).upto hpre
  have hok : run.Along Step.apply (fun c s => Admitted c s ∧ DoneInOneRtt c s) c pre :=
    fun x hx => ⟨hadmitted x hx, hdone.upto hpre x hx⟩
  -- The ghost: a Finished was verified at the start of one of the steps so far.
  have hsound : Sound (∃ x ∈ run.trace Step.apply c pre, FinishedVerified x.1) (c.after pre) := by
    refine run.history (fun pre c => Sound (∃ x ∈ pre, FinishedVerified x.1) c)
      (fun pre c s h hsound => ?_) hok ((sound_client hstart hrole).mono nofun)
    refine (hsound.step h.1 h.2).mono ?_
    rintro (⟨x, hx, hv⟩ | hv)
    · exact ⟨x, List.mem_append_left _ hx, hv⟩
    · exact ⟨(c, s), List.mem_append_right _ (List.mem_singleton.mpr rfl), hv⟩
  have hrecv := hsound.up hup
  obtain ⟨hsend, hseen⟩ := hsound.app hrecv
  refine ⟨hsend, hrecv, ?_⟩
  rcases hseen with ⟨x, hx, hv⟩ | hv
  · obtain ⟨earlier, hearlier, heq⟩ := run.of_mem_trace hx
    rw [heq] at hv
    exact ⟨earlier, (List.prefix_append _ _).trans hearlier, hv⟩
  · exact ⟨pre, List.prefix_refl _, hv⟩

/-! ## A handshake, and none -/

open standin

/-- An Initial packet with a HANDSHAKE_DONE, as anyone can seal it. -/
def forged_done : Call :=
  .recv (initial_from_server [8, 7, 6, 5] 0 [.HandshakeDone, .Padding, .Padding, .Padding]) 1500 0

/-- The law at a handshake with a server, which leaves the client connected. -/
theorem handshake_connects_after_finished :
    ((client .default_params).after ((client .default_params).steps
      (handshake .default_params .default_params))).state = .Active ∧
    ConnectedAfterFinished (client .default_params)
      ((client .default_params).steps (handshake .default_params .default_params)) := by
  have hrun : (client .default_params).role = .Client ∧
      ((client .default_params).after ((client .default_params).steps
        (handshake .default_params .default_params))).state = .Active ∧
      run.Along Step.apply DoneInOneRtt (client .default_params)
        ((client .default_params).steps (handshake .default_params .default_params)) := by
    decide +kernel
  obtain ⟨hrole, hactive, hdone⟩ := hrun
  exact ⟨hactive, client_connects_after_finished (client_started _) hrole _ hdone⟩

/-- The forged packet connects a client that has no keys. -/
theorem initial_packet_connects : ¬ ConnectedAfterFinished (client .default_params)
    ((client .default_params).steps [forged_done]) := by
  intro h
  have hrun : ((client .default_params).after
        ((client .default_params).steps [forged_done])).state = .Active ∧
      ((client .default_params).after
        ((client .default_params).steps [forged_done])).keys.app_send.isSome = false := by
    decide +kernel
  have hsend := (h _ (List.prefix_refl _) (.inl hrun.1)).1
  rw [hrun.2] at hsend
  cases hsend

end milli_http.connection.authentication
