-- Which keys a connection holds, and which steps can change that. Most steps are calm: they
-- leave the keys and the TLS engine alone and do not connect anyone.
import MilliHttp.Connection.Effects
import MilliHttp.Tls.Progress

open bytes method
open method.Method (bind_run lift_run get_bind_run keeps_seq keeps_lift keeps_modify keeps_get
  keeps_on keeps_ite keeps_pure kept_bind keeps_ignore)

namespace milli_http.connection

open crypto tls transport packet frame

variable {B : Build} {c : Connection B} {kind : PacketKind}

/-! ## Installing keys -/

namespace ConnectionKeys

variable {X : Primitives}

/-- All that installing keys can do: both keys of the level, or none. -/
theorem install_derived_cases (derived : DerivedKeys) (k : ConnectionKeys X) :
    (((∃ e, (install_derived derived k).1 = .error e) ∨ derived.level = .Initial) ∧
      (install_derived derived k).2 = k) ∨
    (derived.level = .Handshake ∧ ∃ send recv, (install_derived derived k).2 =
      { k with handshake_send := some send, handshake_recv := some recv }) ∨
    (derived.level = .Application ∧ ∃ send recv key_update, (install_derived derived k).2 =
      { k with app_send := some send, app_recv := some recv, key_update }) := by
  unfold install_derived
  rw [bind_run, lift_run]
  cases derive_directional_keys_for X.C derived.send_secret derived.cipher_suite with
  | error e => exact .inl ⟨.inl ⟨e, rfl⟩, rfl⟩
  | ok send =>
    dsimp only
    rw [bind_run, lift_run]
    cases derive_directional_keys_for X.C derived.recv_secret derived.cipher_suite with
    | error e => exact .inl ⟨.inl ⟨e, rfl⟩, rfl⟩
    | ok recv =>
      dsimp only
      cases derived.level with
      | Initial => exact .inl ⟨.inr rfl, rfl⟩
      | Handshake => exact .inr (.inl ⟨rfl, send, recv, rfl⟩)
      | Application =>
        refine .inr (.inr ⟨rfl, send, recv, ?_⟩)
        dsimp only
        rw [Method.modify_bind_run]
        rw [bind_run, lift_run]
        split
        · rename_i heq
          obtain ⟨-, rfl⟩ := Prod.mk.inj heq
          rw [bind_run, lift_run]
          split
          · rename_i heq
            obtain ⟨-, rfl⟩ := Prod.mk.inj heq
            exact ⟨_, rfl⟩
          · rename_i heq
            obtain ⟨-, rfl⟩ := Prod.mk.inj heq
            exact ⟨_, rfl⟩
        · rename_i heq
          obtain ⟨-, rfl⟩ := Prod.mk.inj heq
          exact ⟨_, rfl⟩

theorem install_derived_app {derived : DerivedKeys} {k : ConnectionKeys X} {u : Unit}
    (h : (install_derived derived k).1 = .ok u) (hlevel : derived.level = .Application) :
    (install_derived derived k).2.app_recv.isSome := by
  rcases install_derived_cases derived k with ⟨⟨e, he⟩ | hl, -⟩ | ⟨hl, -⟩ | ⟨-, _, _, _, hk⟩
  · rw [he] at h
    cases h
  · rw [hl] at hlevel
    cases hlevel
  · rw [hl] at hlevel
    cases hlevel
  · rw [hk]
    rfl

/-- The same levels have keys. A key update may give send keys to one who has receive keys. -/
structure SameKeys (k k' : ConnectionKeys X) : Prop where
  send : ∀ level, level ≠ .Application → k'.has_send_keys level = k.has_send_keys level
  recv : ∀ level, k'.has_recv_keys level = k.has_recv_keys level
  app_send : k.app_send.isSome → k'.app_send.isSome

instance : IsPreorder (ConnectionKeys X) SameKeys where
  refl _ := ⟨fun _ _ => rfl, fun _ => rfl, id⟩
  trans _ _ _ h₁ h₂ := ⟨fun l hl => (h₂.1 l hl).trans (h₁.1 l hl),
    fun l => (h₂.2 l).trans (h₁.2 l), fun h => h₂.3 (h₁.3 h)⟩

/-- With receive keys of the 1-RTT level there, an update is no more than that. -/
def Rotates (k k' : ConnectionKeys X) : Prop := k.app_recv.isSome → SameKeys k k'

instance : IsPreorder (ConnectionKeys X) Rotates where
  refl k _ := refl k
  trans _ _ _ h₁ h₂ h := by
    have h₁ := h₁ h
    have hrecv := h₁.recv .Application
    exact IsTrans.trans _ _ _ h₁ (h₂ (hrecv.trans h))

theorem rotate_rotates (k : ConnectionKeys X) (send recv : DirectionalKeys X.C)
    (send_secret recv_secret : Bytes) (confirmed : Bool) (decrypted : Nat) :
    Rotates k (k.rotate send recv send_secret recv_secret confirmed decrypted) := by
  refine fun h => ⟨fun level hl => ?_, fun level => ?_, fun _ => rfl⟩
  · cases level with
    | Application => exact absurd rfl hl
    | _ => rfl
  · cases level with
    | Application => exact h.symm
    | _ => rfl

theorem perform_key_update_same (k : ConnectionKeys X) : SameKeys k (perform_key_update k).2 := by
  unfold perform_key_update
  rw [get_bind_run]
  refine Method.kept_require fun hcan => ?_
  simp only [can_initiate_key_update, Bool.and_eq_true] at hcan
  refine keeps_seq (R := Rotates) (keeps_lift _) (fun send_secret => ?_) k hcan.1.1.2
  refine keeps_seq (keeps_lift _) fun recv_secret => ?_
  refine keeps_seq (keeps_lift _) fun send => ?_
  refine keeps_seq (keeps_lift _) fun recv => ?_
  exact keeps_modify fun k => rotate_rotates k _ _ _ _ _ _

theorem perform_key_update_has_send_keys (k : ConnectionKeys X) (level : Level) :
    (perform_key_update k).2.has_send_keys level = k.has_send_keys level := by
  by_cases happ : level = .Application
  · subst happ
    show (perform_key_update k).2.app_send.isSome = k.app_send.isSome
    unfold perform_key_update
    rw [get_bind_run]
    rw [Method.require_bind_run]
    split
    · rename_i hcan
      simp only [can_initiate_key_update, Bool.and_eq_true] at hcan
      have hsome : k.app_send.isSome = true := hcan.1.1.1
      rw [hsome]
      refine keeps_seq (R := Method.Preserves fun k => k.app_send.isSome = true)
        (keeps_lift _) (fun _ => ?_) k hsome
      refine keeps_seq (keeps_lift _) fun _ => ?_
      refine keeps_seq (keeps_lift _) fun _ => ?_
      refine keeps_seq (keeps_lift _) fun _ => ?_
      exact keeps_modify fun _ _ => rfl
    · rfl
  · exact (perform_key_update_same k).send level happ

theorem confirm_peer_key_update_rotates (new_recv_keys : DirectionalKeys X.C) :
    Method.Keeps Rotates (confirm_peer_key_update new_recv_keys) := by
  refine keeps_seq keeps_get fun k => ?_
  refine keeps_seq (keeps_lift _) fun send_secret => ?_
  refine keeps_seq (keeps_lift _) fun recv_secret => ?_
  refine keeps_seq (keeps_lift _) fun send => ?_
  exact keeps_modify fun k => rotate_rotates k _ _ _ _ _ _

end ConnectionKeys

namespace Connection

/-- The connection once the engine's keys are taken and installed, before anything else. -/
def keys_taken (c : Connection B) (ctx : HandshakeContext) (derived : DerivedKeys) : Connection B :=
  { c with
    handshake_slot := some { ctx with tls := { ctx.tls with pending_keys := none } }
    keys := (ConnectionKeys.install_derived derived c.keys).2 }

/-- Takes over the transport parameters the engine has. -/
def learn_params (c : Connection B) : Connection B :=
  match c.handshake_slot.bind (·.tls.peer_transport_params) with
  | some params => c.learn_peer_params params
  | none => c

theorem check_tls_keys_cases (c : Connection B) :
    (check_tls_keys c).2 = c.maybe_release_handshake_slot ∨
    ∃ ctx derived, c.handshake_slot = some ctx ∧ ctx.tls.pending_keys = some derived ∧
      ((check_tls_keys c).2 = c.keys_taken ctx derived ∨
        (derived.level = .Application → (c.keys_taken ctx derived).keys.app_recv.isSome) ∧
        (check_tls_keys c).2 = maybe_release_handshake_slot
          (learn_params (keys_installed derived.level (c.keys_taken ctx derived)))) := by
  rw [check_tls_keys_run]
  rcases install_ready_keys_cases c with ⟨-, hrun⟩ | ⟨ctx, derived, hctx, hpending, hrun⟩
  · rw [hrun]
    exact .inl rfl
  · refine .inr ⟨ctx, derived, hctx, hpending, ?_⟩
    rw [hrun]
    unfold install_keys
    rw [bind_run, Method.on_run]
    cases hinstall : (ConnectionKeys.install_derived derived c.keys).1 with
    | error e => exact .inl rfl
    | ok u => exact .inr ⟨fun hl => ConnectionKeys.install_derived_app hinstall hl, rfl⟩

/-! ## Calm steps -/

/-- The TLS engine, while there is one. -/
def engine (c : Connection B) : Option TlsEngine := c.handshake_slot.map (·.tls)

/-- The application is told that the connection stands. -/
def Up (c : Connection B) : Prop := c.state = .Active ∨ .Connected ∈ c.events

/-- Keys, engine and connectedness are as they were. A key update may give send keys to one who
has receive keys. -/
structure Calm (c c' : Connection B) : Prop where
  role : c'.role = c.role
  engine : c'.engine = c.engine
  send : ∀ level, level ≠ .Application → c'.keys.has_send_keys level = c.keys.has_send_keys level
  recv : ∀ level, c'.keys.has_recv_keys level = c.keys.has_recv_keys level
  app_send : c.keys.app_send.isSome → c'.keys.app_send.isSome
  up : c'.Up → c.Up

instance : IsPreorder (Connection B) Calm where
  refl _ := ⟨rfl, rfl, fun _ _ => rfl, fun _ => rfl, id, id⟩
  trans _ _ _ h₁ h₂ := ⟨h₂.1.trans h₁.1, h₂.2.trans h₁.2, fun l hl => (h₂.3 l hl).trans (h₁.3 l hl),
    fun l => (h₂.4 l).trans (h₁.4 l), fun h => h₂.5 (h₁.5 h), fun h => h₁.6 (h₂.6 h)⟩

theorem Calm.send_keys {c c' : Connection B} (h : Calm c c') (level : Level)
    (hk : c.keys.has_send_keys level = true) : c'.keys.has_send_keys level = true := by
  by_cases happ : level = .Application
  · subst happ
    exact h.app_send hk
  · rw [h.send level happ]
    exact hk

/-- Nothing that counts is written. -/
theorem calm_of_eq {c c' : Connection B} (hrole : c'.role = c.role) (hkeys : c'.keys = c.keys)
    (hslot : c'.engine = c.engine) (hup : c'.Up → c.Up) : Calm c c' :=
  ⟨hrole, hslot, fun _ _ => by rw [hkeys], fun _ => by rw [hkeys], fun h => hkeys ▸ h, hup⟩

theorem push_event_up {event : Event} (h : (c.push_event event).Up) :
    c.Up ∨ event = .Connected := by
  unfold push_event at h
  split at h
  · rcases h with h | h
    · exact .inl (.inl h)
    · rcases List.mem_append.mp h with h | h
      · exact .inl (.inr h)
      · exact .inr (List.mem_singleton.mp h).symm
  · exact .inl h

theorem calm_push_event (c : Connection B) {event : Event} (hevent : event ≠ .Connected) :
    Calm c (c.push_event event) := by
  refine calm_of_eq ?_ ?_ ?_ fun h => (push_event_up h).resolve_right hevent
  all_goals
    unfold push_event
    split <;> rfl

theorem calm_learn_params (c : Connection B) : Calm c c.learn_params := by
  unfold learn_params
  split
  · exact calm_of_eq rfl rfl rfl id
  · exact refl c

theorem calm_map_reasm (level : Level) (f : CryptoReassemblyBuf → CryptoReassemblyBuf)
    (c : Connection B) : Calm c (map_reasm level f c) := by
  refine calm_of_eq rfl rfl ?_ id
  simp only [engine, map_reasm, Option.map_map]
  rfl

theorem calm_of_sameKeys {keys : ConnectionKeys B.toPrimitives}
    (h : ConnectionKeys.SameKeys c.keys keys) : Calm c { c with keys } :=
  ⟨rfl, rfl, h.send, h.recv, h.app_send, id⟩

theorem calm_perform_key_update : Method.Keeps Calm (Method.on (σ := Connection B) Connection.keys
    (fun keys c => { c with keys }) ConnectionKeys.perform_key_update) :=
  keeps_on fun c => calm_of_sameKeys (ConnectionKeys.perform_key_update_same c.keys)

/-! ## Calm calls -/

theorem calm_auto_key_update : Method.Keeps Calm (auto_key_update (B := B)) :=
  keeps_seq keeps_get fun _ =>
    keeps_ite calm_perform_key_update (keeps_pure _)

theorem calm_open_current (recv : DirectionalKeys B.C) (u : Unprotected) :
    Method.Keeps Calm (open_current (B := B) recv u) := by
  intro c
  unfold open_current
  split
  · refine ⟨rfl, rfl, fun level _ => ?_, fun level => ?_, id, id⟩ <;> cases level <;> rfl
  · split <;> exact refl c

/-- Opening a 1-RTT payload needs receive keys, and may update both directions. -/
theorem calm_open_phase (u : Unprotected) : Method.Keeps Calm (open_phase (B := B) u) := by
  intro c
  unfold open_phase
  rw [get_bind_run]
  cases hrecv : c.keys.app_recv with
  | none => exact refl c
  | some recv =>
    rw [bind_run, Method.okOr_some_run]
    dsimp only
    split
    · exact calm_open_current recv u c
    · unfold open_next
      refine kept_bind (R := Calm) (refl c) fun c₁ c₂ heq => ?_
      cases heq
      refine kept_bind (refl c) fun next c₂ heq => ?_
      obtain ⟨-, rfl⟩ := Prod.mk.inj heq
      refine kept_bind (refl c) fun payload c₂ heq => ?_
      obtain ⟨-, rfl⟩ := Prod.mk.inj heq
      refine kept_bind ?_ fun _ c₂ _ => refl c₂
      refine calm_of_sameKeys (ConnectionKeys.confirm_peer_key_update_rotates next c.keys ?_)
      rw [hrecv]
      rfl

/-- Only an Initial packet can bring keys. -/
theorem calm_open_kind (hkind : kind ≠ .Initial) (pkt_data : Bytes)
    (scratch_len : Nat) (c : Connection B) : Calm c (c.open_kind kind pkt_data scratch_len).2 := by
  cases kind with
  | Initial => exact absurd rfl hkind
  | Handshake =>
    simp only [open_kind, open_handshake]
    split
    · exact refl c
    · exact refl c
    · split <;> exact refl c
  | Short =>
    simp only [open_kind, open_short]
    split
    · exact refl c
    · exact refl c
    · rename_i u _
      have h := calm_open_phase u c
      split
      · exact refl c
      · split <;> rename_i heq <;> rwa [heq] at h

theorem calm_on_streams {α : Type} (m : Method StreamMap Error α) :
    Method.Keeps Calm (on_streams (B := B) m) :=
  keeps_on fun _ => calm_of_eq rfl rfl rfl id

theorem calm_handle_stream (stream : StreamFrame) :
    Method.Keeps Calm (handle_stream (B := B) stream) := by
  refine keeps_seq keeps_get fun c => ?_
  refine keeps_seq (keeps_ignore (calm_on_streams _)) fun _ => ?_
  refine keeps_seq keeps_get fun c => keeps_ite ?_ (keeps_pure _)
  refine keeps_seq (calm_on_streams _) fun new_bytes => ?_
  refine keeps_seq (keeps_on fun _ => calm_of_eq rfl rfl rfl id) fun _ => ?_
  refine keeps_seq (keeps_modify fun _ => calm_of_eq rfl rfl rfl id) fun _ => ?_
  exact keeps_modify fun c => calm_push_event c nofun

theorem calm_stream_event (stream_id : Nat) (m : Method StreamMap Error Unit) {event : Event}
    (hevent : event ≠ .Connected) : Method.Keeps Calm (stream_event (B := B) stream_id m event) := by
  refine keeps_seq keeps_get fun c => keeps_ite ?_ (keeps_pure _)
  refine keeps_seq (keeps_ignore (calm_on_streams _)) fun _ => ?_
  exact keeps_modify fun c => calm_push_event c hevent

/-- The frames that move the handshake. -/
def is_handshake_frame : Frame → Bool
  | .Crypto _ | .HandshakeDone => true
  | _ => false

theorem calm_dispatch_frame {frame : Frame} (hf : is_handshake_frame frame = false) (level : Level)
    (now : Instant) : Method.Keeps Calm (dispatch_frame (B := B) level now frame) := by
  cases frame with
  | Padding | Ping | NewToken | NewConnectionId | RetireConnectionId | PathResponse | DataBlocked
  | StreamDataBlocked | StreamsBlocked => exact keeps_pure _
  | Ack ack =>
    refine keeps_seq (keeps_lift _) fun _ => keeps_modify fun c => ?_
    exact calm_of_eq rfl rfl rfl id
  | Stream stream => exact calm_handle_stream stream
  | MaxData n => exact keeps_modify fun c => calm_of_eq rfl rfl rfl id
  | MaxStreamData msd => exact keeps_ignore (calm_on_streams _)
  | MaxStreams ms => exact keeps_modify fun c => calm_of_eq rfl rfl rfl id
  | ResetStream rst => exact calm_stream_event _ _ nofun
  | StopSending ss => exact calm_stream_event _ _ nofun
  | ConnectionClose cc =>
    refine keeps_modify fun c => IsTrans.trans _ _ _ ?_ (calm_push_event _ nofun)
    exact calm_of_eq rfl rfl rfl fun h => .inr (h.resolve_left nofun)
  | PathChallenge data => exact keeps_modify fun c => calm_of_eq rfl rfl rfl id
  | Crypto | HandshakeDone => cases hf

theorem calm_close_state {state : ConnectionState} (h : state ≠ .Active) :
    Calm c { c with state } :=
  calm_of_eq rfl rfl rfl fun hup => .inr (hup.resolve_left h)

/-- Of the calls, only `poll_transmit` drives the engine. -/
theorem calm_op {o : Op} (ho : ∀ buf_len now, o ≠ .poll_transmit buf_len now) (c : Connection B) :
    Calm c (o.apply c) := by
  cases o with
  | poll_transmit buf_len now => exact absurd rfl (ho buf_len now)
  | handle_timeout now =>
    simp only [Op.apply, handle_timeout]
    split
    · split
      · exact calm_close_state (by decide)
      · exact refl c
    · split
      · refine IsTrans.trans _ _ _ ?_ (calm_push_event _ (by simp))
        exact calm_close_state (by decide)
      · split
        · exact calm_of_eq rfl rfl rfl id
        · exact refl c
  | poll_event => exact calm_of_eq rfl rfl rfl fun h => h.imp_right List.mem_of_mem_tail
  | open_stream =>
    exact open_stream_keeps (R := Calm) (fun _ => calm_of_eq rfl rfl rfl id)
      (fun _ _ _ _ => calm_of_eq rfl rfl rfl id) c
  | open_uni_stream =>
    exact open_uni_stream_keeps (R := Calm) (fun _ => calm_of_eq rfl rfl rfl id)
      (fun _ _ _ _ => calm_of_eq rfl rfl rfl id) c
  | stream_send stream_id data fin =>
    exact stream_send_keeps (R := Calm) (fun _ _ _ => calm_on_streams _)
      (fun _ _ _ => calm_of_eq rfl rfl rfl id) stream_id data fin c
  | stream_recv stream_id cap =>
    refine keeps_seq (R := Calm) keeps_get (fun c => ?_) c
    exact keeps_seq (Method.keeps_require _ _) fun _ =>
      keeps_on fun _ => calm_of_eq rfl rfl rfl id
  | stream_reset stream_id => exact calm_on_streams _ c
  | stream_stop_sending stream_id => exact calm_on_streams _ c
  | close error_code reason =>
    simp only [Op.apply, close]
    split
    · exact refl c
    · exact calm_of_eq rfl rfl rfl fun h => .inr (h.resolve_left (by simp))
  | initiate_key_update =>
    refine keeps_seq (R := Calm) keeps_get (fun c => ?_) c
    exact keeps_seq (Method.keeps_require _ _) fun _ => calm_perform_key_update

/-! ## The steps that move the handshake -/

/-- The engine moves on, and nothing else. -/
theorem on_tls_run (m : Method TlsEngine Error Unit) (c : Connection B) :
    (on_tls m c).2 = c.map_tls fun tls => (m tls).2 := by
  unfold on_tls map_tls
  cases hs : c.handshake_slot with
  | none =>
    dsimp only [Option.map_none]
    rw [← hs]
  | some ctx => rfl

theorem engine_map_tls (f : TlsEngine → TlsEngine) (c : Connection B) :
    (c.map_tls f).engine = c.engine.map f := by
  simp only [engine, map_tls, Option.map_map]
  rfl

/-- Most parts of `poll_transmit` leave the role, the keys, the engine and the connectedness alone.
The rest is the key update, the writing of a flight, the booking of a key's use and the release of
the slot. -/
theorem KeptByTransmit.of_quiet {R : Connection B → Connection B → Prop} [IsPreorder (Connection B) R]
    (hquiet : ∀ c c' : Connection B, c'.role = c.role → c'.keys = c.keys → c'.engine = c.engine →
      (c'.Up → c.Up) → R c c')
    (hupdate : Method.Keeps R (auto_key_update (B := B)))
    (hwrite : ∀ c, R c (c.map_tls fun tls => (TlsEngine.write_handshake B.toPrimitives 2048 tls).2))
    (hshort : ∀ frames c, R c (short_sent frames c))
    (hrelease : ∀ c, R c c.maybe_release_handshake_slot) : KeptByTransmit R where
  key_update := hupdate
  rewind c := by
    unfold rewind_crypto
    split
    · refine hquiet _ _ rfl rfl ?_ id
      simp only [engine, Option.map_map]
      rfl
    · exact refl c
  ack level room d := by
    simp only [put_ack]
    split
    · split
      · exact hquiet _ _ rfl rfl rfl id
      · exact refl d.1
    · exact refl d.1
  crypto level room d := by
    obtain ⟨c, p⟩ := d
    simp only [write_tls_crypto_data]
    split
    · exact refl c
    · rename_i ctx hslot
      have hstaged : R c { c with handshake_slot := some (stage_flight B.toPrimitives level ctx) } := by
        unfold stage_flight
        have hw := hwrite c
        split
        · have hmap : (c.map_tls fun tls => (TlsEngine.write_handshake B.toPrimitives 2048 tls).2) =
              { c with handshake_slot := some { ctx with
                tls := (TlsEngine.write_handshake B.toPrimitives 2048 ctx.tls).2 } } := by
            simp only [map_tls, hslot, Option.map_some]
          rw [hmap] at hw
          split
          · rename_i heq
            rw [heq] at hw
            dsimp only
            split
            · exact IsTrans.trans _ _ _ hw (hquiet _ _ rfl rfl rfl id)
            · exact hw
          · rename_i heq
            rw [heq] at hw
            exact hw
        · exact hquiet _ _ rfl rfl (by simp [engine, hslot]) id
      split
      · exact hstaged
      · split
        · exact hstaged
        · exact IsTrans.trans _ _ _ hstaged (hquiet _ _ rfl rfl rfl id)
  path_response room d := by
    simp only [put_path_response]
    split
    · exact refl d.1
    · split
      · exact hquiet _ _ rfl rfl rfl id
      · exact refl d.1
  max_data room d := by
    simp only [put_max_data]
    split
    · exact refl d.1
    · split
      · exact hquiet _ _ rfl rfl rfl id
      · exact refl d.1
  max_stream_data _ _ := hquiet _ _ rfl rfl rfl id
  streams _ _ := hquiet _ _ rfl rfl rfl id
  sent _ _ _ _ _ _ := hquiet _ _ rfl rfl rfl id
  short_sent := hshort
  release := hrelease
  closed _ := hquiet _ _ rfl rfl rfl fun h => .inr (h.resolve_left nofun)
  emitted _ _ := hquiet _ _ rfl rfl rfl id

/-- Of the parts of `poll_transmit`, two are not calm: writing a flight and releasing the slot. -/
theorem KeptByTransmit.of_calm {R : Connection B → Connection B → Prop} [IsPreorder (Connection B) R]
    (hcalm : ∀ c c', Calm c c' → R c c')
    (hwrite : ∀ c, R c (c.map_tls fun tls => (TlsEngine.write_handshake B.toPrimitives 2048 tls).2))
    (hrelease : ∀ c, R c c.maybe_release_handshake_slot) : KeptByTransmit R := by
  refine .of_quiet (fun c c' hrole hkeys hengine hup => hcalm _ _ (calm_of_eq hrole hkeys hengine hup))
    (fun c => hcalm _ _ (calm_auto_key_update c)) hwrite (fun frames c => hcalm _ _ ?_) hrelease
  refine ⟨rfl, rfl, fun level _ => ?_, fun level => ?_, id, id⟩ <;> cases level <;> rfl

/-- The steps that can move the handshake. -/
def moves_handshake : Step → Bool
  | .open_packet .Initial _ _ | .initial_done | .check_tls_keys | .op (.poll_transmit ..) => true
  | .dispatch _ _ frame => is_handshake_frame frame
  | _ => false

theorem calm_step {s : Step} (hs : moves_handshake s = false) (c : Connection B) :
    Calm c (s.apply c) := by
  cases s with
  | arrive len now =>
    simp only [Step.apply, arrive]
    split <;> exact calm_of_eq rfl rfl rfl id
  | open_packet kind pkt_data scratch_len =>
    refine calm_open_kind ?_ pkt_data scratch_len c
    rintro rfl
    cases hs
  | dispatch level now frame => exact calm_dispatch_frame hs level now c
  | record pr =>
    simp only [Step.apply, record_packet]
    split <;> exact calm_of_eq rfl rfl rfl id
  | initial_done => cases hs
  | check_tls_keys => cases hs
  | op o =>
    refine calm_op ?_ c
    rintro buf_len now rfl
    cases hs

/-- An Initial packet teaches what its header says, if it parses. -/
theorem open_initial_cases (pkt_data : Bytes) (scratch_len : Nat) (c : Connection B) :
    (c.open_kind .Initial pkt_data scratch_len).2 = c ∨
    ∃ hdr, parse_initial_header pkt_data = .ok hdr ∧
      (c.open_kind .Initial pkt_data scratch_len).2 = (learn_initial hdr c).2 := by
  simp only [open_kind, open_initial]
  cases parse_initial_header pkt_data with
  | panic => exact .inl rfl
  | err e => exact .inl rfl
  | ok hdr =>
    refine .inr ⟨hdr, rfl, ?_⟩
    dsimp only
    split
    · rename_i heq
      rw [heq]
    · rename_i heq
      rw [heq]
      split <;> rfl

/-! ## Steps of a run -/

/-- There are receive keys beyond the Initial level. -/
def Beyond (c : Connection B) : Prop := c.keys.handshake_recv.isSome ∨ c.keys.app_recv.isSome

/-- Frames of the 1-RTT level come from a packet that was opened, and so does the end of the
Initial level. -/
def Admitted (c : Connection B) : Step → Prop
  | .dispatch .Application _ _ => c.keys.app_recv.isSome
  | .initial_done => c.role = .Server → c.Beyond
  | _ => True

/-- What dispatching frames keeps of the keys. -/
structure Grows (c c' : Connection B) : Prop where
  role : c'.role = c.role
  app : c.keys.app_recv.isSome → c'.keys.app_recv.isSome
  beyond : c.role = .Server → c.Beyond → c'.Beyond

instance : IsPreorder (Connection B) Grows where
  refl _ := ⟨rfl, id, fun _ => id⟩
  trans _ _ _ h₁ h₂ := ⟨h₂.1.trans h₁.1, fun h => h₂.2 (h₁.2 h),
    fun hr h => h₂.3 (h₁.1.trans hr) (h₁.3 hr h)⟩

theorem Calm.grows {c c' : Connection B} (h : Calm c c') : Grows c c' := by
  have happ : c'.keys.app_recv.isSome = c.keys.app_recv.isSome := h.recv .Application
  have hhs : c'.keys.handshake_recv.isSome = c.keys.handshake_recv.isSome := h.recv .Handshake
  refine ⟨h.role, fun ha => happ.trans ha, fun _ hb => ?_⟩
  unfold Beyond
  rw [happ, hhs]
  exact hb

theorem grows_of_recv {c c' : Connection B} (hrole : c'.role = c.role)
    (hhs : c'.keys.handshake_recv = c.keys.handshake_recv) (happ : c'.keys.app_recv = c.keys.app_recv) :
    Grows c c' :=
  ⟨hrole, fun h => happ ▸ h, fun _ h => h.imp (fun h => hhs ▸ h) fun h => happ ▸ h⟩

theorem grows_release (c : Connection B) : Grows c c.maybe_release_handshake_slot := by
  rcases maybe_release_cases c with h | ⟨ctx, -, -, h⟩
  · rw [h]
    exact refl c
  · rw [h]
    exact grows_of_recv rfl rfl rfl

theorem grows_keys_taken (c : Connection B) (ctx : HandshakeContext) (derived : DerivedKeys) :
    Grows c (c.keys_taken ctx derived) := by
  rcases ConnectionKeys.install_derived_cases derived c.keys with ⟨-, h⟩ | ⟨-, _, _, h⟩ | ⟨-, _, _, _, h⟩
  · exact grows_of_recv rfl (by rw [keys_taken, h]) (by rw [keys_taken, h])
  · refine ⟨rfl, fun ha => ?_, fun _ _ => .inl ?_⟩
    · simpa only [keys_taken, h] using ha
    · simp only [keys_taken, h, Option.isSome_some]
  · refine ⟨rfl, fun _ => ?_, fun _ _ => .inr ?_⟩ <;> simp only [keys_taken, h, Option.isSome_some]

/-- A server that drops its Handshake keys has just got Application keys. -/
theorem grows_keys_installed {level : Level}
    (happ : level = .Application → c.keys.app_recv.isSome) : Grows c (keys_installed level c) := by
  cases level with
  | Initial => exact refl c
  | Handshake =>
    simp only [keys_installed]
    split
    · exact grows_of_recv rfl rfl rfl
    · exact refl c
  | Application =>
    simp only [keys_installed]
    split
    · have hrecv : (discard_handshake (push_event
          { c with state := .Active, address_validated := true } .Connected)).keys.app_recv =
          c.keys.app_recv := by
        unfold push_event
        split <;> rfl
      refine ⟨?_, fun _ => hrecv ▸ happ rfl, fun _ _ => .inr (hrecv ▸ happ rfl)⟩
      unfold push_event
      split <;> rfl
    · exact refl c

theorem grows_check_tls_keys : Method.Keeps Grows (check_tls_keys (B := B)) := by
  intro c
  rcases check_tls_keys_cases c with h | ⟨ctx, derived, -, -, h | ⟨happ, h⟩⟩
  · rw [h]
    exact grows_release c
  · rw [h]
    exact grows_keys_taken c ctx derived
  · rw [h]
    refine IsTrans.trans _ _ _ (grows_keys_taken c ctx derived) ?_
    refine IsTrans.trans _ _ _ (grows_keys_installed happ) ?_
    exact IsTrans.trans _ _ _ (calm_learn_params _).grows (grows_release _)

theorem grows_dispatch_frame (level : Level) (now : Instant) (frame : Frame) :
    Method.Keeps Grows (dispatch_frame (B := B) level now frame) := by
  cases hf : is_handshake_frame frame with
  | false => exact fun c => (calm_dispatch_frame hf level now c).grows
  | true =>
    cases frame with
    | Crypto crypto =>
      refine handle_crypto_frame_keeps (fun _ _ c => (calm_map_reasm _ _ c).grows) (fun _ _ c => ?_)
        grows_check_tls_keys level _ _
      rw [on_tls_run]
      exact grows_of_recv rfl rfl rfl
    | HandshakeDone =>
      refine keeps_modify fun c => ?_
      unfold handshake_done
      split
      · exact refl c
      · rename_i hrole
        have happ : (discard_handshake (if c.state = .Handshaking then
            push_event { c with state := .Active, address_validated := true } .Connected
            else c)).keys.app_recv = c.keys.app_recv := by
          unfold push_event
          repeat' split
          all_goals rfl
        refine ⟨?_, fun h => happ ▸ h, fun hs => ?_⟩
        · unfold push_event
          repeat' split
          all_goals rfl
        · rw [hrole] at hs
          cases hs
    | _ => cases hf

/-- What opening a packet of a kind shows about the keys. -/
def Shows (c : Connection B) : PacketKind → Prop
  | .Initial => True
  | .Handshake => c.role = .Server → c.Beyond
  | .Short => c.keys.app_recv.isSome

theorem Grows.shows {c c' : Connection B} (h : Grows c c') (hc : c.Shows kind) : c'.Shows kind := by
  cases kind with
  | Initial => trivial
  | Handshake => exact fun hr => h.beyond (h.role.symm.trans hr) (hc (h.role.symm.trans hr))
  | Short => exact h.app hc

/-- The level of a kind of packet. -/
def PacketKind.level : PacketKind → Level
  | .Initial => .Initial
  | .Handshake => .Handshake
  | .Short => .Application

theorem opened_long_level {level : Level} {r : Outcome Error (Nat × Bytes)}
    {o : Opened} (h : c.opened_long level r = .ok o) : o.level = level := by
  unfold opened_long at h
  cases r with
  | ok x =>
    cases h
    rfl
  | err e => cases h
  | panic => cases h

/-- A packet that was opened is of its kind's level, and there were keys for it. -/
theorem open_kind_shows {pkt_data : Bytes} {scratch_len : Nat}
    {c c' : Connection B} {o : Opened} (h : c.open_kind kind pkt_data scratch_len = (.ok o, c')) :
    o.level = kind.level ∧ c'.Shows kind := by
  cases kind with
  | Initial =>
    refine ⟨?_, trivial⟩
    simp only [open_kind, open_initial] at h
    split at h
    · cases h
    · cases h
    · split at h
      · cases h
      · split at h
        · cases h
        · exact opened_long_level (Prod.mk.inj h).1
  | Handshake =>
    simp only [open_kind, open_handshake] at h
    split at h
    · cases h
    · cases h
    · split at h
      · cases h
      · rename_i recv hrecv
        obtain ⟨ho, rfl⟩ := Prod.mk.inj h
        exact ⟨opened_long_level ho, fun _ => .inl (by rw [hrecv]; rfl)⟩
  | Short =>
    have hshort : c'.keys.app_recv.isSome = c.keys.app_recv.isSome := by
      have hkind : PacketKind.Short ≠ .Initial := by decide
      have hcalm := calm_open_kind hkind pkt_data scratch_len c
      rw [h] at hcalm
      exact hcalm.recv .Application
    simp only [open_kind, open_short] at h
    split at h
    · cases h
    · cases h
    · rename_i u hu
      have hkeys : c.keys.app_recv.isSome := by
        unfold unprotect_short at hu
        cases hp : parse_short_header pkt_data c.local_scid.length with
        | ok r =>
          rw [hp] at hu
          cases hrecv : c.keys.app_recv with
          | none =>
            rw [hrecv] at hu
            cases hu
          | some recv => rfl
        | err e =>
          rw [hp] at hu
          cases hu
        | panic =>
          rw [hp] at hu
          cases hu
      refine ⟨?_, hshort.trans hkeys⟩
      split at h
      · cases h
        rfl
      · split at h
        · cases h
        · cases h
          rfl

theorem frame_steps_admitted (now : Instant) (fuel : Nat) (payload : Bytes) (hc : c.Shows kind) :
    run.Along Step.apply Admitted c (frame_steps kind.level now fuel payload c) ∧
      (run.final Step.apply c (frame_steps kind.level now fuel payload c)).Shows kind := by
  induction fuel generalizing payload c with
  | zero => exact ⟨run.along_nil, hc⟩
  | succ fuel ih =>
    unfold frame_steps
    split
    · exact ⟨run.along_nil, hc⟩
    · split
      · exact ⟨run.along_nil, hc⟩
      · rename_i frame consumed _
        have hframe : Admitted c (.dispatch kind.level now frame) := by
          cases kind with
          | Short => exact hc
          | _ => trivial
        have hnext := (grows_dispatch_frame kind.level now frame c).shows hc
        rw [run.along_cons, run.final_cons]
        simp only [Step.apply]
        rcases hd : dispatch_frame kind.level now frame c with ⟨_ | _, c'⟩
        · rw [hd] at hnext
          exact ⟨⟨hframe, run.along_nil⟩, hnext⟩
        · rw [hd] at hnext
          obtain ⟨halong, hshows⟩ := ih (payload.drop consumed) hnext
          exact ⟨⟨hframe, halong⟩, hshows⟩

theorem packet_steps_admitted (kind : PacketKind) (pkt_data : Bytes) (scratch_len : Nat)
    (now : Instant) (c : Connection B) :
    run.Along Step.apply Admitted c (packet_steps kind pkt_data scratch_len now c) := by
  unfold packet_steps
  refine run.along_cons.mpr ⟨trivial, ?_⟩
  simp only [Step.apply]
  rcases ho : c.open_kind kind pkt_data scratch_len with ⟨o | _ | _, c'⟩
  · obtain ⟨hlevel, hshows⟩ := open_kind_shows ho
    dsimp only
    unfold opened_steps
    split
    · exact run.along_cons.mpr ⟨trivial, run.along_nil⟩
    · rename_i payload _
      rw [hlevel]
      obtain ⟨hframes, hdone⟩ := frame_steps_admitted now payload.length payload hshows
      refine run.along_append.mpr ⟨hframes, ?_⟩
      split
      · exact run.along_nil
      · split
        · rename_i hkind
          subst hkind
          exact run.along_cons.mpr ⟨hdone, run.along_cons.mpr ⟨trivial, run.along_nil⟩⟩
        · exact run.along_cons.mpr ⟨trivial, run.along_nil⟩
  · exact run.along_nil
  · exact run.along_nil

theorem packets_steps_admitted (scratch_len : Nat) (now : Instant)
    (items : List (Outcome Error Bytes)) (c : Connection B) :
    run.Along Step.apply Admitted c (packets_steps scratch_len now items c) := by
  induction items generalizing c with
  | nil => exact run.along_nil
  | cons item rest ih =>
    cases item with
    | panic => exact run.along_nil
    | err e => exact run.along_nil
    | ok pkt_data =>
      unfold packets_steps
      cases hk : packet_kind pkt_data with
      | none =>
        have hr : c.recv_packet pkt_data scratch_len now = some c := by simp only [recv_packet, hk]
        rw [hr]
        exact ih c
      | some kind =>
        refine run.along_append.mpr ⟨packet_steps_admitted kind pkt_data scratch_len now c, ?_⟩
        cases hr : c.recv_packet pkt_data scratch_len now with
        | none => exact run.along_nil
        | some c' =>
          rw [← recv_packet_steps hk hr]
          exact ih c'

theorem steps_admitted (c : Connection B) (cs : List Call) :
    run.Along Step.apply Admitted c (c.steps cs) := by
  induction cs generalizing c with
  | nil => exact run.along_nil
  | cons call rest ih =>
    refine run.along_append.mpr ⟨?_, ?_⟩
    · cases call with
      | op o => exact run.along_cons.mpr ⟨trivial, run.along_nil⟩
      | recv datagram scratch_len now =>
        simp only [Call.steps, recv_steps]
        split
        · exact run.along_nil
        · rw [List.cons_append]
          refine run.along_cons.mpr ⟨trivial, run.along_append.mpr ⟨?_, ?_⟩⟩
          · exact packets_steps_admitted scratch_len now _ _
          · split
            · exact run.along_nil
            · exact run.along_cons.mpr ⟨trivial, run.along_nil⟩
    · cases hr : call.run c with
      | none => exact run.along_nil
      | some c' =>
        rw [← call.run_eq_final hr]
        exact ih c'

/-! ## The start -/

/-- A connection that has only just begun is not up. -/
theorem Started.not_up (h : Started c) : ¬ c.Up := by
  obtain ⟨role, keys, tls, local_cid, remote_cid, tp, rfl⟩ := h.fresh
  rintro (h | h) <;> cases h

/-- A client begins with Initial keys and an engine that has done nothing. -/
theorem Started.of_client (h : Started c) (hrole : c.role = .Client) :
    (∃ send recv, c.keys = { ConnectionKeys.new with
      initial_send := some send, initial_recv := some recv }) ∧
    ∃ config secret_bytes random,
      c.engine = some (TlsEngine.new_client B.toPrimitives config secret_bytes random) := by
  cases h with
  | server => cases hrole
  | @client _ server_name alpn tp secret_bytes random local_cid initial_dcid h =>
    obtain ⟨client_keys, server_keys, hkeys⟩ :=
      ConnectionKeys.initial_keys_ok B.toPrimitives initial_dcid
    unfold Connection.client at h
    split at h
    · cases h
    · simp only [ConnectionKeys.derive_initial, hkeys, bind_run, lift_run, if_true,
        Method.modify_run] at h
      cases h
      exact ⟨⟨_, _, rfl⟩, _, _, _, rfl⟩

/-- A server begins without keys, with an engine that has done nothing. -/
theorem Started.of_server (h : Started c) (hrole : c.role = .Server) :
    c.keys = .new ∧ ∃ config secret_bytes random,
      c.engine = some (TlsEngine.new_server B.toPrimitives config secret_bytes random) := by
  cases h with
  | server => exact ⟨rfl, _, _, _, rfl⟩
  | client h =>
    unfold Connection.client at h
    split at h
    · cases h
    · dsimp only at h
      split at h
      · cases h
        cases hrole
      · cases h

end Connection

end milli_http.connection
