-- Discarded keys. Handshake keys that were dropped never come back; Initial keys stay away as
-- long as no Initial packet arrives that would derive them again.
import MilliHttp.Connection.Handshaking
import MilliHttp.Standin

open bytes method

namespace milli_http.connection.key_lifetime

open crypto tls transport packet frame Connection

variable {B : Build} {level : Level} {c : Connection B}

/-- Keys of the level that were there and are gone stay gone, for the rest of the run. -/
def StayDiscarded (c : Connection B) (steps : List Step) (level : Level) : Prop :=
  ∀ p q r, p <+: q → q <+: r → r <+: steps →
    (c.after p).keys.has_send_keys level = true ∨ (c.after p).keys.has_recv_keys level = true →
    (c.after q).keys.has_send_keys level = false ∨ (c.after q).keys.has_recv_keys level = false →
    (c.after r).keys.has_send_keys level = false ∧ (c.after r).keys.has_recv_keys level = false

/-- An Initial packet whose header parses comes while there are Initial keys, or to a server
that has no keys at all. -/
def InitialInTime (c : Connection B) : Step → Prop
  | .open_packet .Initial pkt_data _ => ∀ hdr, parse_initial_header pkt_data = .ok hdr →
      c.keys.initial_recv.isSome ∨ c.role = .Server ∧ ¬ c.Beyond
  | _ => True

instance (c : Connection B) (s : Step) : Decidable (InitialInTime c s) := by
  unfold InitialInTime Beyond
  split
  · rename_i pkt_data _
    cases parse_initial_header pkt_data with
    | ok hdr =>
      exact decidable_of_iff
        (c.keys.initial_recv.isSome ∨ c.role = .Server ∧
          ¬ (c.keys.handshake_recv.isSome ∨ c.keys.app_recv.isSome)) (by simp)
    | err e => exact isTrue nofun
    | panic => exact isTrue nofun
  · exact isTrue trivial

/-! ## Keys of a level -/

/-- The level has keys for both directions. -/
def Held (c : Connection B) (level : Level) : Prop :=
  c.keys.has_send_keys level = true ∧ c.keys.has_recv_keys level = true

/-- Nothing will bring keys of the level any more: for Initial there is progress beyond it, for
Handshake the engine is past handing them out, or gone. -/
def Spent (c : Connection B) : Level → Prop
  | .Initial => c.role = .Client ∨ c.Beyond
  | .Handshake => ∀ e ∈ c.engine, c.role = .Client ∧ e.HandshakeSpent
  | .Application => False

/-- The level has no keys and gets none. -/
structure Gone (c : Connection B) (level : Level) : Prop where
  send : c.keys.has_send_keys level = false
  recv : c.keys.has_recv_keys level = false
  spent : Spent c level

/-- What a step may do to the keys of a level. -/
structure LevelLaw (c c' : Connection B) (level : Level) : Prop where
  gone : Gone c level → Gone c' level
  held : Held c level → Held c' level ∨ Gone c' level

/-- Keys come in pairs, and the engine of a client that has Handshake keys gives no more. -/
structure Orderly (c : Connection B) : Prop where
  pairs : ∀ level, level ≠ .Application → c.keys.has_send_keys level = c.keys.has_recv_keys level
  progress : c.role = .Client → ∀ e ∈ c.engine, e.ClientProgress B.toPrimitives
  spent : c.role = .Client → c.keys.handshake_recv.isSome → Spent c .Handshake

/-- What every step keeps. -/
structure Lawful (c c' : Connection B) : Prop where
  orderly : Orderly c'
  initial : LevelLaw c c' .Initial
  handshake : LevelLaw c c' .Handshake

def KeyLaw (c c' : Connection B) : Prop := Orderly c → Lawful c c'

theorem LevelLaw.trans {c c' c'' : Connection B} (h₁ : LevelLaw c c' level)
    (h₂ : LevelLaw c' c'' level) : LevelLaw c c'' level := by
  refine ⟨fun h => h₂.gone (h₁.gone h), fun h => ?_⟩
  rcases h₁.held h with h | h
  · exact h₂.held h
  · exact .inr (h₂.gone h)

instance : IsPreorder (Connection B) KeyLaw where
  refl _ h := ⟨h, ⟨id, .inl⟩, ⟨id, .inl⟩⟩
  trans _ _ _ h₁ h₂ h := by
    have h₁ := h₁ h
    have h₂ := h₂ h₁.orderly
    exact ⟨h₂.orderly, h₁.initial.trans h₂.initial, h₁.handshake.trans h₂.handshake⟩

/-- The level's keys are as they were. -/
theorem levelLaw_of_same {c c' : Connection B}
    (hsend : c'.keys.has_send_keys level = c.keys.has_send_keys level)
    (hrecv : c'.keys.has_recv_keys level = c.keys.has_recv_keys level)
    (hspent : Spent c level → Spent c' level) : LevelLaw c c' level :=
  ⟨fun h => ⟨hsend.trans h.send, hrecv.trans h.recv, hspent h.spent⟩,
    fun h => .inl ⟨hsend.trans h.1, hrecv.trans h.2⟩⟩

theorem levelLaw_of_dropped {c c' : Connection B}
    (hsend : c'.keys.has_send_keys level = false) (hrecv : c'.keys.has_recv_keys level = false)
    (hgone : Gone c level → Spent c' level) (hheld : Held c level → Spent c' level) :
    LevelLaw c c' level :=
  ⟨fun h => ⟨hsend, hrecv, hgone h⟩, fun h => .inr ⟨hsend, hrecv, hheld h⟩⟩

/-- The level gets keys that it may get. -/
theorem levelLaw_of_new {c c' : Connection B} (hnew : ¬ Gone c level)
    (hheld : Held c' level) : LevelLaw c c' level :=
  ⟨fun h => absurd h hnew, fun _ => .inl hheld⟩

theorem spent_initial {c c' : Connection B} (h : Grows c c') (hs : Spent c .Initial) :
    Spent c' .Initial := by
  by_cases hrole : c.role = .Client
  · exact .inl (h.role.trans hrole)
  · have hserver : c.role = .Server := by
      cases hr : c.role with
      | Client => exact absurd hr hrole
      | Server => rfl
    exact .inr (h.beyond hserver (hs.resolve_left hrole))

/-! ## Steps -/

theorem keyLaw_of_same {c c' : Connection B} (hrole : c'.role = c.role)
    (hengine : c'.engine = c.engine)
    (hsend : ∀ level, level ≠ .Application → c'.keys.has_send_keys level = c.keys.has_send_keys level)
    (hrecv : ∀ level, c'.keys.has_recv_keys level = c.keys.has_recv_keys level) : KeyLaw c c' := by
  intro ho
  have hspent : Spent c .Handshake → Spent c' .Handshake := by
    intro hs e he
    rw [hengine] at he
    rw [hrole]
    exact hs e he
  have hinitial : Spent c .Initial → Spent c' .Initial := by
    have happ : c'.keys.app_recv.isSome = c.keys.app_recv.isSome := hrecv .Application
    have hhs : c'.keys.handshake_recv.isSome = c.keys.handshake_recv.isSome := hrecv .Handshake
    simp only [Spent, Beyond, hrole, happ, hhs]
    exact id
  refine ⟨⟨fun level hl => ?_, fun hr e he => ?_, fun hr hk => ?_⟩, ?_, ?_⟩
  · rw [hsend level hl, hrecv level, ho.pairs level hl]
  · rw [hengine] at he
    exact ho.progress (hrole.symm.trans hr) e he
  · have hk' : c.keys.handshake_recv.isSome := (hrecv .Handshake).symm.trans hk
    exact hspent (ho.spent (hrole.symm.trans hr) hk')
  · exact levelLaw_of_same (hsend _ nofun) (hrecv _) hinitial
  · exact levelLaw_of_same (hsend _ nofun) (hrecv _) hspent

theorem keyLaw_calm {c c' : Connection B} (h : Calm c c') : KeyLaw c c' :=
  keyLaw_of_same h.role h.engine h.send h.recv

theorem keyLaw_map_tls {f : TlsEngine → TlsEngine}
    (hprogress : ∀ e, e.ClientProgress B.toPrimitives → (f e).ClientProgress B.toPrimitives)
    (hspent : ∀ e, e.ClientProgress B.toPrimitives → e.HandshakeSpent → (f e).HandshakeSpent) :
    KeyLaw c (c.map_tls f) := by
  intro ho
  have hmem : ∀ e ∈ (c.map_tls f).engine, ∃ e₀ ∈ c.engine, f e₀ = e := by
    intro e he
    rw [engine_map_tls] at he
    exact Option.map_eq_some_iff.mp he
  have hs : Spent c .Handshake → Spent (c.map_tls f) .Handshake := by
    intro h e he
    obtain ⟨e₀, he₀, rfl⟩ := hmem e he
    obtain ⟨hr, hsp⟩ := h e₀ he₀
    exact ⟨hr, hspent e₀ (ho.progress hr e₀ he₀) hsp⟩
  refine ⟨⟨ho.pairs, fun hr e he => ?_, fun hr hk => hs (ho.spent hr hk)⟩, ?_, ?_⟩
  · obtain ⟨e₀, he₀, rfl⟩ := hmem e he
    exact hprogress e₀ (ho.progress hr e₀ he₀)
  · exact levelLaw_of_same rfl rfl id
  · exact levelLaw_of_same rfl rfl hs

theorem keyLaw_read (level : Level) (msg : Bytes) :
    Method.Keeps KeyLaw (on_tls (B := B) (TlsEngine.read_handshake B.toPrimitives level msg)) := by
  intro c
  rw [on_tls_run]
  exact keyLaw_map_tls (fun e hp => (TlsEngine.read_handshake_step level msg e hp).progress)
    fun e hp => (TlsEngine.read_handshake_step level msg e hp).spent

theorem keyLaw_write (cap : Nat) (c : Connection B) :
    KeyLaw c (c.map_tls fun tls => (TlsEngine.write_handshake B.toPrimitives cap tls).2) :=
  keyLaw_map_tls (fun e hp => (TlsEngine.write_handshake_write cap e hp).progress)
    fun e hp => (TlsEngine.write_handshake_write cap e hp).spent

/-- The engine is given up. -/
theorem keyLaw_no_engine (c : Connection B) : KeyLaw c { c with handshake_slot := none } := by
  have hnone : ({ c with handshake_slot := none } : Connection B).engine = none := rfl
  have hspent : Spent { c with handshake_slot := none } .Handshake := by simp [Spent, hnone]
  exact fun ho => ⟨⟨ho.pairs, by simp [hnone], fun _ _ => hspent⟩, levelLaw_of_same rfl rfl id,
    levelLaw_of_same rfl rfl fun _ => hspent⟩

theorem keyLaw_release (c : Connection B) : KeyLaw c c.maybe_release_handshake_slot := by
  rcases maybe_release_cases c with h | ⟨ctx, -, -, h⟩
  · rw [h]
    exact refl c
  · rw [h]
    exact keyLaw_no_engine c

/-- Handshake keys are installed at most once: an engine that is past them has none to give. -/
theorem keyLaw_keys_taken {ctx : HandshakeContext} {derived : DerivedKeys}
    (hctx : c.handshake_slot = some ctx) (hderived : ctx.tls.pending_keys = some derived) :
    KeyLaw c (c.keys_taken ctx derived) := by
  intro ho
  have hmem : ctx.tls ∈ c.engine := by simp [engine, hctx]
  have hengine : ∀ e ∈ (c.keys_taken ctx derived).engine,
      e = { ctx.tls with pending_keys := none } := by
    intro e he
    simpa [engine, keys_taken, eq_comm] using he
  have hprogress : c.role = .Client → ∀ e ∈ (c.keys_taken ctx derived).engine,
      e.ClientProgress B.toPrimitives := by
    intro hr e he
    have hp := ho.progress hr ctx.tls hmem
    rw [hengine e he]
    exact ⟨hp.role, by rintro _ ⟨⟩, by rintro _ ⟨⟩, fun hl => ⟨(hp.late hl).past, (hp.late hl).verified⟩⟩
  have hspent : c.role = .Client → ctx.tls.Past → Spent (c.keys_taken ctx derived) .Handshake := by
    intro hr hpast e he
    rw [hengine e he]
    exact ⟨hr, hpast, by rintro _ ⟨⟩⟩
  have hkept : Spent c .Handshake → Spent (c.keys_taken ctx derived) .Handshake := fun hs =>
    hspent (hs ctx.tls hmem).1 (hs ctx.tls hmem).2.past
  have hinitial : LevelLaw c (c.keys_taken ctx derived) .Initial := by
    refine levelLaw_of_same ?_ ?_ (spent_initial (grows_keys_taken c ctx derived)) <;>
      rcases ConnectionKeys.install_derived_cases derived c.keys with ⟨-, h⟩ | ⟨-, _, _, h⟩ |
        ⟨-, _, _, _, h⟩ <;> simp only [keys_taken, h] <;> rfl
  rcases ConnectionKeys.install_derived_cases derived c.keys with ⟨-, h⟩ | ⟨hlevel, send, recv, h⟩ |
    ⟨-, send, recv, key_update, h⟩
  · have hkeys : (c.keys_taken ctx derived).keys = c.keys := h
    refine ⟨⟨hkeys ▸ ho.pairs, hprogress, fun hr hk => ?_⟩, hinitial, ?_⟩
    · exact hkept (ho.spent hr (hkeys ▸ hk))
    · exact levelLaw_of_same (by rw [hkeys]) (by rw [hkeys]) hkept
  · have hkeys : (c.keys_taken ctx derived).keys =
        { c.keys with handshake_send := some send, handshake_recv := some recv } := h
    refine ⟨⟨fun level hl => ?_, hprogress, fun hr _ => ?_⟩, hinitial, ?_⟩
    · rw [hkeys]
      cases level with
      | Initial => exact ho.pairs .Initial (by decide)
      | Handshake => rfl
      | Application => exact absurd rfl hl
    · exact hspent hr ((ho.progress hr ctx.tls hmem).handshake derived hderived hlevel)
    · refine levelLaw_of_new (fun hg => ?_) (by rw [Held, hkeys]; exact ⟨rfl, rfl⟩)
      exact (hg.spent ctx.tls hmem).2.taken derived hderived hlevel
  · have hkeys : (c.keys_taken ctx derived).keys =
        { c.keys with app_send := some send, app_recv := some recv, key_update } := h
    refine ⟨⟨fun level hl => ?_, hprogress, fun hr hk => ?_⟩, hinitial, ?_⟩
    · rw [hkeys]
      cases level with
      | Initial => exact ho.pairs .Initial (by decide)
      | Handshake => exact ho.pairs .Handshake (by decide)
      | Application => exact absurd rfl hl
    · rw [hkeys] at hk
      exact hkept (ho.spent hr hk)
    · exact levelLaw_of_same (by rw [hkeys]; rfl) (by rw [hkeys]; rfl) hkept

/-- Dropping the Initial keys is final for one who is past them. -/
theorem keyLaw_discard_initial (hspent : Spent c .Initial) : KeyLaw c c.discard_initial := by
  intro ho
  have hgrows : Grows c c.discard_initial := grows_of_recv rfl rfl rfl
  refine ⟨⟨fun level hl => ?_, ho.progress, ho.spent⟩, ?_, levelLaw_of_same rfl rfl id⟩
  · cases level with
    | Initial => rfl
    | Handshake => exact ho.pairs .Handshake nofun
    | Application => exact absurd rfl hl
  · exact levelLaw_of_dropped rfl rfl (fun _ => spent_initial hgrows hspent)
      fun _ => spent_initial hgrows hspent

/-- Dropping the Handshake keys is final for a client, whose engine gives no more. -/
theorem keyLaw_discard_handshake (hrole : c.role = .Client) : KeyLaw c c.discard_handshake := by
  intro ho
  refine ⟨⟨fun level hl => ?_, ho.progress, fun _ hk => ?_⟩, ?_, ?_⟩
  · cases level with
    | Initial => exact ho.pairs .Initial nofun
    | Handshake => rfl
    | Application => exact absurd rfl hl
  · cases hk
  · exact levelLaw_of_same rfl rfl fun _ => .inl hrole
  · exact levelLaw_of_dropped rfl rfl (fun h => h.spent) fun h => ho.spent hrole h.2

/-- A server that is connected gives the engine up. -/
theorem release_of_active (hrole : c.role = .Server) (hstate : c.state = .Active) :
    c.maybe_release_handshake_slot = { c with handshake_slot := none } := by
  unfold maybe_release_handshake_slot
  cases hs : c.handshake_slot with
  | none =>
    dsimp only
    rw [← hs]
  | some ctx => simp [can_release, hrole, hstate]

/-- A server drops its Handshake keys and its engine at once. -/
theorem keyLaw_server_done {c c' : Connection B} (hrole : c.role = .Server) (hrole' : c'.role = c.role)
    (hkeys : c'.keys = c.keys.drop_handshake) (hengine : c'.engine = none)
    (happ : c.keys.app_recv.isSome) : KeyLaw c c' := by
  intro ho
  have hnot : c'.role ≠ .Client := by rw [hrole', hrole]; exact nofun
  refine ⟨⟨fun level hl => ?_, fun hr => absurd hr hnot, fun hr => absurd hr hnot⟩, ?_, ?_⟩
  · rw [hkeys]
    cases level with
    | Initial => exact ho.pairs .Initial nofun
    | Handshake => rfl
    | Application => exact absurd rfl hl
  · refine levelLaw_of_same (by rw [hkeys]; rfl) (by rw [hkeys]; rfl) fun _ => .inr (.inr ?_)
    rw [hkeys]
    exact happ
  · have hspent : Spent c' .Handshake := by simp [Spent, hengine]
    exact levelLaw_of_dropped (by rw [hkeys]; rfl) (by rw [hkeys]; rfl) (fun _ => hspent)
      fun _ => hspent

theorem keyLaw_installed (happ : level = .Application → c.keys.app_recv.isSome) :
    KeyLaw c (maybe_release_handshake_slot (learn_params (keys_installed level c))) := by
  have hrest : ∀ c : Connection B, KeyLaw c (maybe_release_handshake_slot (learn_params c)) :=
    fun c => IsTrans.trans _ _ _ (keyLaw_calm (calm_learn_params c)) (keyLaw_release _)
  unfold keys_installed
  split
  · exact hrest c
  · split
    · rename_i hrole
      exact IsTrans.trans _ _ _ (keyLaw_discard_initial (.inl hrole)) (hrest _)
    · exact hrest c
  · split
    · rename_i hserver
      obtain ⟨hrole, -⟩ := hserver
      generalize hd : discard_handshake (push_event
        { c with state := .Active, address_validated := true } .Connected) = d
      have hdrole : d.role = .Server := by
        rw [← hd, ← hrole]
        unfold push_event
        split <;> rfl
      have hdstate : d.state = .Active := by
        rw [← hd]
        unfold push_event
        split <;> rfl
      have hdkeys : d.keys = c.keys.drop_handshake := by
        rw [← hd]
        unfold push_event
        split <;> rfl
      have hlearn : d.learn_params.role = d.role ∧ d.learn_params.state = d.state ∧
          d.learn_params.keys = d.keys := by
        unfold learn_params
        split <;> exact ⟨rfl, rfl, rfl⟩
      rw [release_of_active (hlearn.1.trans hdrole) (hlearn.2.1.trans hdstate)]
      exact keyLaw_server_done hrole (hlearn.1.trans (hdrole.trans hrole.symm))
        (hlearn.2.2.trans hdkeys) rfl (happ rfl)
    · exact hrest c

theorem keyLaw_check_tls_keys : Method.Keeps KeyLaw (check_tls_keys (B := B)) := by
  intro c
  rcases check_tls_keys_cases c with h | ⟨ctx, derived, hctx, hderived, h | ⟨happ, h⟩⟩
  · rw [h]
    exact keyLaw_release c
  · rw [h]
    exact keyLaw_keys_taken hctx hderived
  · rw [h]
    exact IsTrans.trans _ _ _ (keyLaw_keys_taken hctx hderived) (keyLaw_installed happ)

theorem keyLaw_handshake_done (c : Connection B) : KeyLaw c (handshake_done c) := by
  unfold handshake_done
  split
  · exact refl c
  · rename_i hrole
    split
    · have hpush : ∀ {c : Connection B}, (push_event c .Connected).role = c.role ∧
          (push_event c .Connected).engine = c.engine ∧ (push_event c .Connected).keys = c.keys := by
        intro c
        unfold push_event
        split <;> exact ⟨rfl, rfl, rfl⟩
      refine IsTrans.trans _ _ _ ?_ (keyLaw_discard_handshake (hpush.1.trans hrole))
      refine keyLaw_of_same hpush.1 hpush.2.1 (fun _ _ => ?_) fun _ => ?_ <;> rw [hpush.2.2]
    · exact keyLaw_discard_handshake hrole

theorem keyLaw_first_initial {c c' : Connection B} (hrole : c.role = .Server) (hnot : ¬ c.Beyond)
    (hrole' : c'.role = c.role) (hengine : c.engine = none → c'.engine = none)
    {send recv : DirectionalKeys B.Aes128GcmProvider}
    (hkeys : c'.keys = { c.keys with initial_send := some send, initial_recv := some recv }) :
    KeyLaw c c' := by
  intro ho
  have hclient : c'.role ≠ .Client := by rw [hrole', hrole]; exact nofun
  refine ⟨⟨fun level hl => ?_, fun hr => absurd hr hclient, fun hr => absurd hr hclient⟩, ?_, ?_⟩
  · rw [hkeys]
    cases level with
    | Initial => rfl
    | Handshake => exact ho.pairs .Handshake nofun
    | Application => exact absurd rfl hl
  · refine levelLaw_of_new (fun hg => ?_) (by rw [Held, hkeys]; exact ⟨rfl, rfl⟩)
    rcases hg.spent with h | h
    · rw [hrole] at h
      cases h
    · exact hnot h
  · refine levelLaw_of_same (by rw [hkeys]; rfl) (by rw [hkeys]; rfl) fun hs => ?_
    have hnone : c.engine = none := by
      refine Option.eq_none_iff_forall_ne_some.mpr fun e he => ?_
      have := (hs e he).1
      rw [hrole] at this
      cases this
    simp [Spent, hengine hnone]

/-- An Initial packet brings keys only to one who may have them. -/
theorem keyLaw_learn_initial
    (htime : c.keys.initial_recv.isSome ∨ c.role = .Server ∧ ¬ c.Beyond) (hdr : InitialHeader) :
    KeyLaw c (learn_initial hdr c).2 := by
  have hcid : ∀ c : Connection B, KeyLaw c (learn_remote_cid hdr c) := by
    intro c
    unfold learn_remote_cid
    split
    · exact keyLaw_calm (calm_of_eq rfl rfl rfl id)
    · exact refl c
  rcases learn_initial_cases hdr c with ⟨-, h⟩ | ⟨hnone, send, recv, h⟩
  · rw [h]
    exact hcid c
  · obtain ⟨hrole, hnot⟩ := htime.resolve_left (by simp [hnone])
    rw [h]
    refine IsTrans.trans _ _ _ ?_ (hcid _)
    unfold record_cids
    rw [if_pos hrole]
    refine keyLaw_first_initial hrole hnot rfl (fun he => ?_) rfl
    rw [engine_map_tls]
    exact Option.map_eq_none_iff.mpr he

theorem keyLaw_initial_done (hbeyond : c.role = .Server → c.Beyond) : KeyLaw c c.initial_done := by
  unfold initial_done
  split
  · rename_i h
    exact keyLaw_discard_initial (.inr (hbeyond h.1))
  · exact refl c

theorem keyLaw_step (c : Connection B) (s : Step) (hadmitted : Admitted c s)
    (htime : InitialInTime c s) : KeyLaw c (s.apply c) := by
  cases hs : moves_handshake s with
  | false => exact keyLaw_calm (calm_step hs c)
  | true =>
    cases s with
    | arrive => cases hs
    | record => cases hs
    | open_packet kind pkt_data scratch_len =>
      cases kind with
      | Initial =>
        simp only [Step.apply]
        rcases open_initial_cases pkt_data scratch_len c with h | ⟨hdr, hparse, h⟩
        · rw [h]
          exact refl c
        · rw [h]
          exact keyLaw_learn_initial (htime hdr hparse) hdr
      | _ => cases hs
    | dispatch level now frame =>
      cases frame with
      | Crypto crypto =>
        exact handle_crypto_frame_keeps (fun _ _ c => keyLaw_calm (calm_map_reasm _ _ c)) keyLaw_read
          keyLaw_check_tls_keys level _ _ c
      | HandshakeDone => exact keyLaw_handshake_done c
      | _ => cases hs
    | initial_done => exact keyLaw_initial_done hadmitted
    | check_tls_keys => exact keyLaw_check_tls_keys c
    | op o =>
      cases o with
      | poll_transmit buf_len now =>
        exact KeptByTransmit.poll_transmit (KeptByTransmit.of_calm (fun _ _ => keyLaw_calm)
          (keyLaw_write 2048) keyLaw_release) buf_len now c
      | _ => cases hs

/-! ## Runs -/

theorem orderly_started (h : Started c) : Orderly c := by
  cases hrole : c.role with
  | Client =>
    obtain ⟨⟨send, recv, hkeys⟩, config, secret_bytes, random, hengine⟩ := h.of_client hrole
    refine ⟨fun level hl => ?_, fun _ e he => ?_, fun _ hk => ?_⟩
    · rw [hkeys]
      cases level with
      | Application => exact absurd rfl hl
      | _ => rfl
    · rw [hengine] at he
      cases he
      exact ⟨rfl, nofun, nofun, by rintro (h | h | h) <;> cases h⟩
    · rw [hkeys] at hk
      cases hk
  | Server =>
    refine ⟨fun level hl => ?_, fun hr => ?_, fun hr => ?_⟩
    · rw [(h.of_server hrole).1]
      cases level with
      | Application => exact absurd rfl hl
      | _ => rfl
    · rw [hrole] at hr
      cases hr
    · rw [hrole] at hr
      cases hr

/-- From any point of a run to any later one. -/
theorem lawful_between {p q : List Step} (hpq : p <+: q)
    (hok : run.Along Step.apply (fun c s => Admitted c s ∧ InitialInTime c s) c q)
    (ho : Orderly (c.after p)) : Lawful (c.after p) (c.after q) := by
  obtain ⟨rest, rfl⟩ := hpq
  have hrest := (run.along_append.mp hok).2
  have hlaw : KeyLaw (c.after p) (run.final Step.apply (c.after p) rest) :=
    run.related (fun c s h => keyLaw_step c s h.1 h.2) hrest
  have hafter : c.after (p ++ rest) = run.final Step.apply (c.after p) rest := run.final_append
  rw [hafter]
  exact hlaw ho

/-- In every run in which no Initial packet comes too late, discarded Initial keys and discarded
Handshake keys stay discarded. -/
theorem discarded_keys_stay_discarded {c : Connection B} (hstart : Started c) (cs : List Call)
    (htime : run.Along Step.apply InitialInTime c (c.steps cs)) :
    StayDiscarded c (c.steps cs) .Initial ∧ StayDiscarded c (c.steps cs) .Handshake := by
  have hlaw : ∀ level, level ≠ .Application → (∀ c c' : Connection B, Lawful c c' →
      LevelLaw c c' level) → StayDiscarded c (c.steps cs) level := by
    intro level hl hlevel p q r hpq hqr hr hhad hlacks
    have hok : run.Along Step.apply (fun c s => Admitted c s ∧ InitialInTime c s) c r :=
      fun x hx => ⟨(steps_admitted c cs).upto hr x hx, htime.upto hr x hx⟩
    have hp := lawful_between List.nil_prefix (hok.upto (hpq.trans hqr)) (orderly_started hstart)
    have hq := lawful_between hpq (hok.upto hqr) hp.orderly
    have hr := lawful_between hqr hok hq.orderly
    have hheld : Held (c.after p) level := by
      have hpair := hp.orderly.pairs level hl
      rcases hhad with h | h
      · exact ⟨h, hpair ▸ h⟩
      · exact ⟨hpair.trans h, h⟩
    have hgone : Gone (c.after q) level := by
      refine ((hlevel _ _ hq).held hheld).resolve_left fun hh => ?_
      rcases hlacks with h | h
      · rw [hh.1] at h
        cases h
      · rw [hh.2] at h
        cases h
    have hgone' := (hlevel _ _ hr).gone hgone
    exact ⟨hgone'.send, hgone'.recv⟩
  exact ⟨hlaw .Initial nofun fun _ _ h => h.initial, hlaw .Handshake nofun fun _ _ h => h.handshake⟩

/-! ## A late Initial packet -/

open standin

/-- A round trip with a server, and then an Initial packet of noise. -/
def late_initial : List Call :=
  round_trips 1 (client .default_params) (server .default_params) ++
    [.recv ([0xc0, 0, 0, 0, 1, 4, 1, 2, 3, 4, 0, 0, 30] ++ List.replicate 30 0) 1500 0]

theorem handshake_keys :
    run.Along Step.apply InitialInTime (client .default_params) ((client .default_params).steps
      (handshake .default_params .default_params)) ∧
    (client .default_params).keys.has_recv_keys .Initial = true ∧
    ((client .default_params).after (((client .default_params).steps late_initial).take
      5)).keys.has_recv_keys .Initial = false ∧
    ((client .default_params).after
      ((client .default_params).steps late_initial)).keys.has_recv_keys .Initial = true := by
  decide +kernel

/-- The law at a handshake with a server. -/
theorem keys_stay_discarded_in_handshake :
    StayDiscarded (client .default_params) ((client .default_params).steps
      (handshake .default_params .default_params)) .Initial ∧
    StayDiscarded (client .default_params) ((client .default_params).steps
      (handshake .default_params .default_params)) .Handshake :=
  discarded_keys_stay_discarded (client_started _) _ handshake_keys.1

/-- The client has dropped its Initial keys with the ServerHello, and derives them again. -/
theorem initial_keys_come_back : ¬ StayDiscarded (client .default_params)
    ((client .default_params).steps late_initial) .Initial := by
  intro h
  obtain ⟨-, hfirst, hgone, hback⟩ := handshake_keys
  have hlast := h [] _ _ List.nil_prefix (List.take_prefix 5 _) (List.prefix_refl _) (.inr hfirst)
    (.inr hgone)
  rw [hback] at hlast
  cases hlast.2

end milli_http.connection.key_lifetime
