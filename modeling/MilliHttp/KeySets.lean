-- The key sets that a QUIC connection takes from its TLS engine and installs. Every message that
-- the reassembly has whole is handed to the engine on its own, and keys are looked for behind it.
import MilliHttp.Connection.Handshaking
import MilliHttp.TcpTls.KeySets
import MilliHttp.Standin

open bytes method
open method.Method (bind_run lift_run get_bind_run bind_eq_ok)

namespace milli_http.connection.key_sets

open crypto tls transport packet frame Connection
open tls.key_sets (Kept AllDerived Whole tidy_read answer_level derived)
open tcp_tls.key_sets (levels)
open run (Along Always)

variable {B : Build}

/-! ## The sets that are installed -/

/-- The set that is ready. -/
def ready (c : Connection B) : Option DerivedKeys := c.handshake_slot.bind (·.tls.pending_keys)

/-- What `check_tls_keys` takes and installs. -/
def installed (c : Connection B) : List DerivedKeys :=
  match ready c with
  | none => []
  | some keys => if (ConnectionKeys.install_derived keys c.keys).1 = .ok () then [keys] else []

/-- The message that `deliver_message` hands to the engine. -/
def message_in (level : Level) (c : Connection B) : Option Bytes :=
  c.handshake_slot.bind fun ctx => next_message (ctx.crypto_reasm.get level).contiguous_data

/-- The connection on which `deliver_message` looks for keys behind a message. -/
def checked (level : Level) (msg : Bytes) (c : Connection B) : Option (Connection B) :=
  match on_tls (TlsEngine.read_handshake B.toPrimitives level msg) c with
  | (.ok _, c') => some (map_reasm level (·.advance msg.length) c')
  | (.error _, _) => none

/-- The messages that `deliver_messages` delivers, each with the connection that gets it. -/
def deliveries (level : Level) : Nat → Connection B → List (Bytes × Connection B)
  | 0, _ => []
  | fuel + 1, c =>
    match message_in level c with
    | none => []
    | some msg => (msg, c) ::
      match deliver_message level c with
      | (.ok _, c') => deliveries level fuel c'
      | (.error _, _) => []

/-- The messages that a CRYPTO frame delivers. -/
def crypto_deliveries (level : Level) (offset : Nat) (data : Bytes) (c : Connection B) :
    List (Bytes × Connection B) :=
  match c.handshake_slot with
  | none => []
  | some ctx =>
    if offset ≤ MAX_CRYPTO_OFFSET ∧ saturating_add offset data.length ≤ MAX_CRYPTO_OFFSET then
      match (ctx.crypto_reasm.get level).insert offset data with
      | .error _ => []
      | .ok reasm => deliveries level (reasm.buf.length + 1) (map_reasm level (fun _ => reasm) c)
    else []

/-- The messages that a step hands to the engine, each with its level and the connection that gets
it. -/
def reads (c : Connection B) : Step → List (Level × Bytes × Connection B)
  | .dispatch level _ (.Crypto crypto) =>
    (crypto_deliveries level crypto.offset crypto.data c).map fun d => (level, d)
  | _ => []

/-- The connections on which a step looks for keys. -/
def checks (c : Connection B) : Step → List (Connection B)
  | .dispatch level _ (.Crypto crypto) =>
    (crypto_deliveries level crypto.offset crypto.data c).filterMap fun d => checked level d.1 d.2
  | .check_tls_keys => [c]
  | _ => []

/-- The sets that a step installs, in order. -/
def sets (c : Connection B) (s : Step) : List DerivedKeys := (checks c s).flatMap installed

/-! ## What is asked of a step -/

/-- The keys of the level of the message that the engine's side answers are installed. -/
def held (c : Connection B) (e : TlsEngine) : Bool := c.keys.has_recv_keys (answer_level e.role)

/-- Packet keys can be derived from both secrets of a set, and so can the header protection keys of
the Application level. -/
def Usable (X : Primitives) (keys : DerivedKeys) : Prop :=
  ∀ secret ∈ [keys.send_secret, keys.recv_secret],
    (derive_directional_keys_for X.C secret keys.cipher_suite).isOk = true ∧
    (keys.level = .Application → (hkdf_expand_label X.C.hkdf secret (ascii "quic hp") []
      keys.cipher_suite.hp_key_len).isOk = true)

instance (X : Primitives) (keys : DerivedKeys) : Decidable (Usable X keys) :=
  inferInstanceAs (Decidable (∀ secret ∈ [keys.send_secret, keys.recv_secret],
    (derive_directional_keys_for X.C secret keys.cipher_suite).isOk = true ∧
    (keys.level = .Application → (hkdf_expand_label X.C.hkdf secret (ascii "quic hp") []
      keys.cipher_suite.hp_key_len).isOk = true)))

/-- The messages of a step are tidy, and the sets that are ready where it looks for keys are
usable. -/
structure Tidy (c : Connection B) (s : Step) : Prop where
  read : ∀ r ∈ reads c s, ∀ ctx ∈ r.2.2.handshake_slot,
    tidy_read B.toPrimitives (held r.2.2 ctx.tls) r.1 r.2.1 ctx.tls = true
  usable : ∀ c' ∈ checks c s, ∀ keys ∈ ready c', Usable B.toPrimitives keys

instance (c : Connection B) (s : Step) : Decidable (Tidy c s) :=
  decidable_of_iff
    ((∀ r ∈ reads c s, ∀ ctx ∈ r.2.2.handshake_slot,
        tidy_read B.toPrimitives (held r.2.2 ctx.tls) r.1 r.2.1 ctx.tls = true) ∧
      ∀ c' ∈ checks c s, ∀ keys ∈ ready c', Usable B.toPrimitives keys)
    ⟨fun h => ⟨h.1, h.2⟩, fun h => ⟨h.read, h.usable⟩⟩

/-! ## What was installed -/

/-- What holds while keys may be ready: the sets that were installed are the ones that were derived,
and both of them once the engine is gone or a server is connected. Until both are derived the keys
of what was installed are there. -/
structure Standing (past : List Level) (c : Connection B) : Prop where
  kept : ∀ e ∈ c.engine, Kept past e
  role : ∀ e ∈ c.engine, e.role = c.role
  held : ∀ e ∈ c.engine, AllDerived e ∨
    (answer_level c.role ∈ past → c.keys.has_recv_keys (answer_level c.role) = true)
  gone : c.engine = none → past = [.Handshake, .Application]
  up : c.role = .Server → c.Up → past = [.Handshake, .Application]

/-- Between steps none is ready once both are derived. -/
structure Sound (past : List Level) (c : Connection B) : Prop extends Standing past c where
  taken : ∀ e ∈ c.engine, AllDerived e → e.pending_keys = none

variable {past : List Level} {c : Connection B} {c' : Connection B} {keys : DerivedKeys}
  {level : Level}

theorem Standing.calm (h : Standing past c) (hcalm : Calm c c') : Standing past c' := by
  refine ⟨?_, ?_, ?_, ?_, ?_⟩
  · rw [hcalm.engine]
    exact h.kept
  · rw [hcalm.engine, hcalm.role]
    exact h.role
  · rw [hcalm.engine, hcalm.role, hcalm.recv]
    exact h.held
  · rw [hcalm.engine]
    exact h.gone
  · rw [hcalm.role]
    exact fun hserver hup => h.up hserver (hcalm.up hup)

theorem Sound.calm (h : Sound past c) (hcalm : Calm c c') : Sound past c' := by
  refine ⟨h.toStanding.calm hcalm, ?_⟩
  rw [hcalm.engine]
  exact h.taken

/-- A new engine for the old one, with the same sets. -/
theorem Standing.map_tls {f : TlsEngine → TlsEngine} (h : Standing past c)
    (hkept : ∀ e ∈ c.engine, Kept past (f e)) (hrole : ∀ e ∈ c.engine, (f e).role = e.role)
    (hall : ∀ e ∈ c.engine, AllDerived e → AllDerived (f e)) : Standing past (c.map_tls f) := by
  have hmem : ∀ e ∈ (c.map_tls f).engine, ∃ e₀ ∈ c.engine, f e₀ = e := by
    intro e he
    rw [engine_map_tls] at he
    exact Option.map_eq_some_iff.mp he
  refine ⟨fun e he => ?_, fun e he => ?_, fun e he => ?_, fun hnone => ?_, h.up⟩
  · obtain ⟨e₀, he₀, rfl⟩ := hmem e he
    exact hkept e₀ he₀
  · obtain ⟨e₀, he₀, rfl⟩ := hmem e he
    exact (hrole e₀ he₀).trans (h.role e₀ he₀)
  · obtain ⟨e₀, he₀, rfl⟩ := hmem e he
    exact (h.held e₀ he₀).imp_left (hall e₀ he₀)
  · rw [engine_map_tls] at hnone
    exact h.gone (Option.map_eq_none_iff.mp hnone)

/-- The slot goes only when both sets were installed. -/
theorem Sound.release (h : Sound past c) : Sound past c.maybe_release_handshake_slot := by
  rcases maybe_release_cases c with heq | ⟨ctx, hctx, hcan, heq⟩
  · rw [heq]
    exact h
  · rw [heq]
    have hmem : ctx.tls ∈ c.engine := by simp [engine, hctx]
    have hboth : past = [.Handshake, .Application] := by
      cases hrole : c.role with
      | Client =>
        simp only [can_release, hrole, Bool.and_eq_true] at hcan
        have hall := (h.kept _ hmem).all_derived hcan.2
        exact (h.kept _ hmem).all_taken hall (h.taken _ hmem hall)
      | Server =>
        simp only [can_release, hrole, decide_eq_true_eq] at hcan
        exact h.up hrole (.inl hcan)
    have hnone : ({ c with handshake_slot := none } : Connection B).engine = none := rfl
    refine ⟨⟨?_, ?_, ?_, fun _ => hboth, fun _ _ => hboth⟩, ?_⟩ <;> simp [hnone]

/-! ## Looking for keys -/

theorem install_usable {X : Primitives} (h : Usable X keys)
    (k : ConnectionKeys X) : (ConnectionKeys.install_derived keys k).1 = .ok () := by
  obtain ⟨hsend, hp₁⟩ := h keys.send_secret (by simp)
  obtain ⟨hrecv, hp₂⟩ := h keys.recv_secret (by simp)
  unfold ConnectionKeys.install_derived
  cases hs : derive_directional_keys_for X.C keys.send_secret keys.cipher_suite with
  | error err =>
    rw [hs] at hsend
    cases hsend
  | ok send =>
    cases hr : derive_directional_keys_for X.C keys.recv_secret keys.cipher_suite with
    | error err =>
      rw [hr] at hrecv
      cases hrecv
    | ok recv =>
      rw [bind_run, lift_run]
      dsimp only
      rw [bind_run, lift_run]
      dsimp only
      cases hlevel : keys.level with
      | Initial => rfl
      | Handshake => rfl
      | Application =>
        have hp₁ := hp₁ hlevel
        have hp₂ := hp₂ hlevel
        dsimp only
        rw [Method.modify_bind_run]
        rw [bind_run, lift_run]
        generalize hkdf_expand_label X.C.hkdf keys.send_secret _ _ _ = send_hp at hp₁ ⊢
        cases send_hp with
        | error err => cases hp₁
        | ok send_hp =>
          dsimp only
          rw [bind_run, lift_run]
          generalize hkdf_expand_label X.C.hkdf keys.recv_secret _ _ _ = recv_hp at hp₂ ⊢
          cases recv_hp with
          | error err => cases hp₂
          | ok recv_hp => rfl

/-- The keys of the level of a set that was installed are there, and so are those that were. -/
theorem install_holds {X : Primitives} {k : ConnectionKeys X}
    (hok : (ConnectionKeys.install_derived keys k).1 = .ok ())
    (hne : level ≠ .Initial) (h : level = keys.level ∨ k.has_recv_keys level = true) :
    (ConnectionKeys.install_derived keys k).2.has_recv_keys level = true := by
  rcases ConnectionKeys.install_derived_cases keys k with ⟨hnone, hk⟩ | ⟨hlevel, send, recv, hk⟩ |
    ⟨hlevel, send, recv, key_update, hk⟩
  · rw [hk]
    refine h.resolve_left fun heq => ?_
    rcases hnone with ⟨err, herr⟩ | hinitial
    · exact nomatch hok.symm.trans herr
    · exact hne (heq.trans hinitial)
  · rw [hk]
    cases level with
    | Initial => exact absurd rfl hne
    | Handshake => rfl
    | Application => exact h.resolve_left fun heq => nomatch heq.trans hlevel
  · rw [hk]
    cases level with
    | Initial => exact absurd rfl hne
    | Handshake => exact h.resolve_left fun heq => nomatch heq.trans hlevel
    | Application => rfl

theorem check_tls_keys_usable {ctx : HandshakeContext}
    (hctx : c.handshake_slot = some ctx) (hpending : ctx.tls.pending_keys = some keys)
    (hok : (ConnectionKeys.install_derived keys c.keys).1 = .ok ()) :
    (check_tls_keys c).2 = maybe_release_handshake_slot
      (learn_params (keys_installed keys.level (c.keys_taken ctx keys))) := by
  rw [check_tls_keys_run]
  rcases install_ready_keys_cases c with ⟨hnone, -⟩ | ⟨ctx', keys', hctx', hpending', hrun⟩
  · rw [hctx, Option.bind_some, hpending] at hnone
    cases hnone
  · cases hctx.symm.trans hctx'
    cases hpending.symm.trans hpending'
    rw [hrun]
    unfold install_keys
    rw [bind_run, Method.on_run]
    dsimp only
    rw [hok]
    rfl

theorem Standing.keys_taken (h : Standing past c) {ctx : HandshakeContext}
    (hctx : c.handshake_slot = some ctx) (hpending : ctx.tls.pending_keys = some keys)
    (hok : (ConnectionKeys.install_derived keys c.keys).1 = .ok ()) :
    Sound (past ++ [keys.level]) (c.keys_taken ctx keys) := by
  have hmem : ctx.tls ∈ c.engine := by simp [engine, hctx]
  have hderived : derived past ctx.tls = past ++ [keys.level] := by
    rw [derived, hpending]
    rfl
  have hkept := (h.kept _ hmem).derived_keys
  rw [hderived] at hkept
  have hengine : ∀ e ∈ (c.keys_taken ctx keys).engine, e = ctx.tls.derived_keys.2 := by
    intro e he
    simpa [engine, Connection.keys_taken, TlsEngine.derived_keys, eq_comm] using he
  refine ⟨⟨fun e he => ?_, fun e he => ?_, fun e he => ?_, by rintro ⟨⟩, fun hserver hup => ?_⟩,
    fun e he _ => ?_⟩
  · rw [hengine e he]
    exact hkept
  · have hrole : ctx.tls.role = c.role := h.role _ hmem
    rw [hengine e he]
    exact hrole
  · rw [hengine e he]
    refine (h.held _ hmem).imp_right fun hheld hin => ?_
    refine install_holds hok (tcp_tls.key_sets.answer_level_ne _) ?_
    rcases List.mem_append.mp hin with hin | hin
    · exact .inr (hheld hin)
    · exact .inl (List.mem_singleton.mp hin)
  · -- Both sets were there before, and a third is never derived.
    have hle := (h.kept _ hmem).derived_le
    rw [hderived, h.up hserver hup] at hle
    exact absurd hle (by simp)
  · rw [hengine e he]
    rfl

/-- Keys are dropped that the engine's side does not need to hold any more. -/
theorem Sound.dropped (h : Sound past c) (hengine : c'.engine = c.engine)
    (hrole : c'.role = c.role) (hkeys : (∃ e ∈ c.engine, ¬ AllDerived e) →
      c'.keys.has_recv_keys (answer_level c.role) = c.keys.has_recv_keys (answer_level c.role))
    (hup : c.role = .Server → c'.Up → past = [.Handshake, .Application]) : Sound past c' := by
  refine ⟨⟨?_, ?_, fun e he => ?_, ?_, hrole ▸ hup⟩, ?_⟩
  · rw [hengine]
    exact h.kept
  · rw [hengine, hrole]
    exact h.role
  · rw [hengine] at he
    rw [hrole]
    refine or_iff_not_imp_left.mpr fun hall hin => ?_
    rw [hkeys ⟨e, he, hall⟩]
    exact (h.held e he).resolve_left hall hin
  · rw [hengine]
    exact h.gone
  · rw [hengine]
    exact h.taken

/-- What comes with the keys: a client drops the Initial keys, and a server is connected by those of
the Application level. -/
theorem Sound.keys_installed (h : Sound past c) (hlast : level ∈ past) :
    Sound past (keys_installed level c) := by
  unfold Connection.keys_installed
  cases level with
  | Initial => exact h
  | Handshake =>
    dsimp only
    split
    · refine h.dropped rfl rfl (fun _ => ?_) h.up
      cases c.role <;> rfl
    · exact h
  | Application =>
    dsimp only
    split
    · rename_i hserver
      have hall : ∀ e ∈ c.engine, AllDerived e := fun e he =>
        ((h.kept e he).derived_application (List.mem_append_left _ hlast)).2
          ((h.role e he).trans hserver.1)
      have hboth : past = [.Handshake, .Application] := by
        cases hengine : c.engine with
        | none => exact h.gone hengine
        | some e =>
          have hlast := hall e hengine
          exact (h.kept e hengine).all_taken hlast (h.taken e hengine hlast)
      refine h.dropped ?_ ?_ (fun ⟨e, he, hne⟩ => absurd (hall e he) hne) fun _ _ => hboth
      · unfold push_event
        split <;> rfl
      · unfold push_event
        split <;> rfl
    · exact h

theorem Standing.check_tls_keys (h : Standing past c)
    (husable : ∀ keys ∈ ready c, Usable B.toPrimitives keys) :
    Sound (past ++ levels (installed c)) (check_tls_keys c).2 := by
  unfold installed
  cases hready : ready c with
  | none =>
    have hrun : (Connection.check_tls_keys c).2 = c.maybe_release_handshake_slot := by
      rw [check_tls_keys_run]
      rcases install_ready_keys_cases c with ⟨-, hrun⟩ | ⟨ctx, keys, hctx, hpending, -⟩
      · rw [hrun]
      · rw [ready, hctx, Option.bind_some, hpending] at hready
        cases hready
    have hnone : ∀ e ∈ c.engine, e.pending_keys = none := by
      intro e he
      obtain ⟨ctx, hctx, rfl⟩ := Option.map_eq_some_iff.mp he
      rwa [ready, hctx, Option.bind_some] at hready
    have hsound : Sound past c := ⟨h, fun e he _ => hnone e he⟩
    rw [hrun]
    exact (List.append_nil past).symm ▸ hsound.release
  | some keys =>
    obtain ⟨ctx, hctx, hpending⟩ := Option.bind_eq_some_iff.mp hready
    have hok := install_usable (husable keys hready) c.keys
    dsimp only
    rw [if_pos hok, check_tls_keys_usable hctx hpending hok]
    have htaken := h.keys_taken hctx hpending hok
    exact ((htaken.keys_installed (List.mem_append_right _ List.mem_cons_self)).calm
      (calm_learn_params _)).release

/-! ## Delivering messages -/

/-- What is asked of one delivery. -/
structure TidyDelivery (level : Level) (msg : Bytes) (c : Connection B) : Prop where
  read : ∀ ctx ∈ c.handshake_slot,
    tidy_read B.toPrimitives (held c ctx.tls) level msg ctx.tls = true
  usable : ∀ c' ∈ checked level msg c, ∀ keys ∈ ready c', Usable B.toPrimitives keys

theorem next_message_whole {data msg : Bytes} (h : next_message data = some msg) : Whole msg := by
  unfold next_message at h
  split at h
  · cases h
  · dsimp only at h
    split at h
    · cases h
    · cases h
      rename_i hfour hlen
      cases data with
      | nil => exact absurd (Nat.zero_lt_succ 3) hfour
      | cons ty rest =>
        simp only [List.drop_succ_cons, List.drop_zero] at hlen ⊢
        rw [Nat.add_comm, List.take_succ_cons]
        refine ⟨ty, _, rfl, ?_⟩
        rw [List.take_take]
        simp only [List.length_cons, List.length_take] at hlen ⊢
        rw [show min 3 (beNat (List.take 3 rest) + 3) = 3 by omega]
        omega

/-- A message that was read: the sets are those that were derived, and the keys are there. -/
theorem Sound.read (h : Sound past c) {msg : Bytes}
    (htidy : ∀ ctx ∈ c.handshake_slot,
      tidy_read B.toPrimitives (held c ctx.tls) level msg ctx.tls = true) :
    Standing past
      (c.map_tls fun tls => (TlsEngine.read_handshake B.toPrimitives level msg tls).2) := by
  refine h.toStanding.map_tls (fun e he => ?_) (fun e he => ?_) fun e he hall => ?_
  · obtain ⟨ctx, hctx, rfl⟩ := Option.map_eq_some_iff.mp he
    refine (h.kept _ he).read_handshake ?_ (htidy ctx hctx)
    rw [held, h.role _ he]
    exact h.held _ he
  · exact (TlsEngine.tame_read_handshake level msg e).role
  · rw [hall.unread]
    exact hall

theorem Sound.deliver_message (h : Sound past c) {msg : Bytes}
    (hmsg : message_in level c = some msg) (htidy : TidyDelivery level msg c) :
    Sound (past ++ levels ((checked level msg c).elim [] installed))
      (deliver_message level c).2 := by
  obtain ⟨ctx, hctx, hnext⟩ := Option.bind_eq_some_iff.mp hmsg
  have hread := h.read htidy.read
  have hsnd : (on_tls (TlsEngine.read_handshake B.toPrimitives level msg) c).2 =
      c.map_tls fun tls => (TlsEngine.read_handshake B.toPrimitives level msg tls).2 := by
    rw [on_tls_run]
  have hfst : (on_tls (TlsEngine.read_handshake B.toPrimitives level msg) c).1 =
      (TlsEngine.read_handshake B.toPrimitives level msg ctx.tls).1 := by
    unfold on_tls
    rw [hctx]
  have husable := htidy.usable
  unfold Connection.deliver_message
  rw [get_bind_run]
  have hmsg' : (c.handshake_slot.bind fun ctx =>
      next_message (ctx.crypto_reasm.get level).contiguous_data) = some msg := hmsg
  rw [hmsg']
  dsimp only
  rw [bind_run]
  unfold checked at husable ⊢
  rcases hrun : on_tls (TlsEngine.read_handshake B.toPrimitives level msg) c with ⟨err | _, c'⟩
  · rw [hrun] at hsnd hfst
    subst hsnd
    refine (List.append_nil past).symm ▸ ⟨hread, fun e he hall => ?_⟩
    -- The engine is where it was, and had nothing ready if it had derived both.
    rw [engine_map_tls] at he
    obtain ⟨e₀, he₀, rfl⟩ := Option.map_eq_some_iff.mp he
    have hsame : e₀ = ctx.tls := by
      rw [engine, hctx] at he₀
      cases he₀
      rfl
    subst hsame
    have hstate :
        (TlsEngine.read_handshake B.toPrimitives level msg ctx.tls).2.state = ctx.tls.state :=
      tls.key_sets.read_message_error (next_message_whole hnext) fun hok => absurd (hfst.trans hok) (by simp)
    have hbefore : AllDerived ctx.tls := by
      unfold AllDerived at hall ⊢
      rwa [hstate] at hall
    rw [hbefore.unread]
    exact h.taken _ he₀ hbefore
  · rw [hrun] at hsnd husable
    subst hsnd
    dsimp only at husable ⊢
    rw [Method.modify_bind_run]
    have hchecked := (hread.calm (calm_map_reasm level (·.advance msg.length) _)).check_tls_keys
      (husable _ rfl)
    rw [bind_run]
    rcases hcheck : Connection.check_tls_keys _ with ⟨err | _, c''⟩
    · rw [hcheck] at hchecked
      exact hchecked
    · rw [hcheck] at hchecked
      exact hchecked

theorem deliver_none (h : message_in level c = none) :
    deliver_message level c = (.ok false, c) := by
  unfold deliver_message
  rw [get_bind_run]
  have hnone : (c.handshake_slot.bind fun ctx =>
      next_message (ctx.crypto_reasm.get level).contiguous_data) = none := h
  rw [hnone]
  rfl

theorem deliver_some {msg : Bytes} {more : Bool}
    (h : message_in level c = some msg) (hrun : deliver_message level c = (.ok more, c')) :
    more = true := by
  unfold deliver_message at hrun
  rw [get_bind_run] at hrun
  have hmsg : (c.handshake_slot.bind fun ctx =>
      next_message (ctx.crypto_reasm.get level).contiguous_data) = some msg := h
  rw [hmsg] at hrun
  obtain ⟨_, _, -, hrun⟩ := bind_eq_ok hrun
  obtain ⟨_, _, -, hrun⟩ := bind_eq_ok hrun
  obtain ⟨_, _, -, hrun⟩ := bind_eq_ok hrun
  cases hrun
  rfl

/-- The sets that deliveries install, in order. -/
def delivered (level : Level) (ds : List (Bytes × Connection B)) : List Level :=
  levels ((ds.filterMap fun d => checked level d.1 d.2).flatMap installed)

theorem delivered_cons (level : Level) (d : Bytes × Connection B)
    (ds : List (Bytes × Connection B)) :
    delivered level (d :: ds) =
      levels ((checked level d.1 d.2).elim [] installed) ++ delivered level ds := by
  unfold delivered
  rw [List.filterMap_cons]
  cases checked level d.1 d.2 with
  | none => rfl
  | some c' =>
    dsimp only [Option.elim_some]
    rw [List.flatMap_cons, levels, List.map_append]
    rfl

theorem Sound.deliver_messages (h : Sound past c) (fuel : Nat)
    (htidy : ∀ d ∈ deliveries level fuel c, TidyDelivery level d.1 d.2) :
    Sound (past ++ delivered level (deliveries level fuel c))
      (deliver_messages level fuel c).2 := by
  induction fuel generalizing past c with
  | zero => exact (List.append_nil past).symm ▸ h
  | succ fuel ih =>
    rw [Connection.deliver_messages, bind_run]
    rw [deliveries] at htidy ⊢
    cases hmsg : message_in level c with
    | none =>
      rw [deliver_none hmsg]
      exact (List.append_nil past).symm ▸ h
    | some msg =>
      rw [hmsg] at htidy
      obtain ⟨hfirst, hrest⟩ := List.forall_mem_cons.mp htidy
      have hone := h.deliver_message hmsg hfirst
      dsimp only
      rw [delivered_cons, ← List.append_assoc]
      rcases hrun : Connection.deliver_message level c with ⟨err | more, c'⟩
      · rw [hrun] at hone
        exact (List.append_nil _).symm ▸ hone
      · rw [hrun] at hone hrest
        obtain rfl := deliver_some hmsg hrun
        exact ih hone hrest

/-- A CRYPTO frame installs the sets that its messages derived, in order. -/
theorem Sound.handle_crypto_frame (h : Sound past c) {offset : Nat} {data : Bytes}
    (htidy : ∀ d ∈ crypto_deliveries level offset data c, TidyDelivery level d.1 d.2) :
    Sound (past ++ delivered level (crypto_deliveries level offset data c))
      (handle_crypto_frame level offset data c).2 := by
  have hnothing : Sound (past ++ delivered (B := B) level []) c := (List.append_nil past).symm ▸ h
  unfold Connection.handle_crypto_frame
  unfold crypto_deliveries at htidy ⊢
  rw [get_bind_run]
  cases hctx : c.handshake_slot with
  | none => exact hnothing
  | some ctx =>
    rw [hctx] at htidy
    dsimp only at htidy ⊢
    rw [Method.require_bind_run]
    by_cases hfits : offset ≤ MAX_CRYPTO_OFFSET ∧
      saturating_add offset data.length ≤ MAX_CRYPTO_OFFSET
    · rw [if_pos hfits] at htidy ⊢
      rw [if_pos hfits, bind_run, lift_run]
      cases hinsert : (ctx.crypto_reasm.get level).insert offset data with
      | error err => exact hnothing
      | ok reasm =>
        rw [hinsert] at htidy
        dsimp only at htidy ⊢
        rw [bind_run, Method.modify_run]
        exact (h.calm (calm_map_reasm level (fun _ => reasm) c)).deliver_messages _ htidy
    · rw [if_neg hfits, if_neg hfits]
      exact hnothing

/-! ## Steps -/

theorem Sound.learn_initial (h : Sound past c) (hdr : InitialHeader) :
    Sound past (learn_initial hdr c).2 := by
  have hcid : ∀ c : Connection B, Sound past c → Sound past (learn_remote_cid hdr c) := by
    intro c h
    unfold learn_remote_cid
    split
    · exact h.calm (calm_of_eq rfl rfl rfl id)
    · exact h
  rcases learn_initial_cases hdr c with ⟨-, heq⟩ | ⟨-, send, recv, heq⟩
  · rw [heq]
    exact hcid c h
  · rw [heq]
    refine hcid _ ?_
    have hkeys : Sound past { c with
        keys := { c.keys with initial_send := some send, initial_recv := some recv } } := by
      refine h.dropped rfl rfl (fun _ => ?_) h.up
      cases c.role <;> rfl
    unfold record_cids
    split
    · refine ⟨hkeys.toStanding.map_tls (fun e he => ?_) (fun _ _ => rfl) fun _ _ => id,
        fun e he => ?_⟩
      · exact (hkeys.kept e he).of_place rfl rfl
      · rw [engine_map_tls] at he
        obtain ⟨e₀, he₀, rfl⟩ := Option.map_eq_some_iff.mp he
        exact hkeys.taken e₀ he₀
    · exact hkeys

/-- HANDSHAKE_DONE drops the Handshake keys of a client, which waits for none. -/
theorem Sound.handshake_done (h : Sound past c) : Sound past (handshake_done c) := by
  have hactive (c : Connection B) : (push_event c .Connected).engine = c.engine ∧
      (push_event c .Connected).role = c.role ∧ (push_event c .Connected).keys = c.keys := by
    unfold push_event
    split <;> exact ⟨rfl, rfl, rfl⟩
  unfold Connection.handshake_done
  split
  · exact h
  · rename_i hrole
    generalize hmoved : (if c.state = .Handshaking then
      push_event { c with state := .Active, address_validated := true } .Connected else c) = d
    have hsame : d.engine = c.engine ∧ d.role = c.role ∧ d.keys = c.keys := by
      rw [← hmoved]
      split
      · exact hactive _
      · exact ⟨rfl, rfl, rfl⟩
    refine h.dropped hsame.1 hsame.2.1 (fun _ => ?_) fun hserver => nomatch hrole.symm.trans hserver
    rw [hrole]
    exact congrArg (fun keys => keys.app_recv.isSome) hsame.2.2

theorem Sound.initial_done (h : Sound past c) : Sound past c.initial_done := by
  unfold Connection.initial_done
  split
  · refine h.dropped rfl rfl (fun _ => ?_) h.up
    cases c.role <;> rfl
  · exact h

theorem Sound.poll_transmit (h : Sound past c) (buf_len : Nat) (now : Instant) :
    Sound past (c.poll_transmit buf_len now).2 := by
  refine KeptByTransmit.poll_transmit (R := Method.Preserves (Sound past))
    (KeptByTransmit.of_calm (fun c c' hcalm h => h.calm hcalm) (fun c h => ?_) fun c h => h.release)
    buf_len now c h
  refine ⟨h.toStanding.map_tls (fun e he => (h.kept e he).write_handshake 2048)
    (fun e _ => (tls.key_sets.write_handshake_keeps 2048 e).1)
    fun e _ hall => hall.write_handshake 2048,
    fun e he => ?_⟩
  rw [engine_map_tls] at he
  obtain ⟨e₀, he₀, rfl⟩ := Option.map_eq_some_iff.mp he
  exact tls.key_sets.taken_write_handshake (h.taken e₀ he₀) 2048

theorem Sound.step (h : Sound past c) {s : Step} (htidy : Tidy c s) :
    Sound (past ++ levels (sets c s)) (s.apply c) := by
  have hquiet : sets c s = [] → Sound past (s.apply c) →
      Sound (past ++ levels (sets c s)) (s.apply c) := by
    intro hnone h
    rw [hnone]
    exact (List.append_nil past).symm ▸ h
  have hcalm (hs : moves_handshake s = false) (hnone : sets c s = []) :
      Sound (past ++ levels (sets c s)) (s.apply c) := hquiet hnone (h.calm (calm_step hs c))
  cases s with
  | arrive => exact hcalm rfl rfl
  | record => exact hcalm rfl rfl
  | open_packet kind pkt_data scratch_len =>
    cases kind with
    | Initial =>
      refine hquiet rfl ?_
      simp only [Step.apply]
      rcases open_initial_cases pkt_data scratch_len c with heq | ⟨hdr, -, heq⟩
      · rw [heq]
        exact h
      · rw [heq]
        exact h.learn_initial hdr
    | Handshake => exact hcalm rfl rfl
    | Short => exact hcalm rfl rfl
  | dispatch level now frame =>
    cases frame with
    | Crypto crypto =>
      refine h.handle_crypto_frame fun d hd => ⟨fun ctx hctx => ?_, fun c' hc' => ?_⟩
      · exact htidy.read _ (List.mem_map.mpr ⟨d, hd, rfl⟩) ctx hctx
      · exact htidy.usable c' (List.mem_filterMap.mpr ⟨d, hd, hc'⟩)
    | HandshakeDone => exact hquiet rfl h.handshake_done
    | _ => exact hcalm rfl rfl
  | initial_done => exact hquiet rfl h.initial_done
  | check_tls_keys =>
    have hone : sets c .check_tls_keys = installed c := List.append_nil _
    rw [hone]
    exact h.toStanding.check_tls_keys (htidy.usable c List.mem_cons_self)
  | op o =>
    cases o with
    | poll_transmit buf_len now => exact hquiet rfl (h.poll_transmit buf_len now)
    | _ => exact hcalm rfl rfl

theorem sound_started (h : Started c) : Sound [] c := by
  have hfresh : ∀ e ∈ c.engine, Kept [] e ∧ e.role = c.role ∧ e.pending_keys = none := by
    intro e he
    cases hrole : c.role with
    | Client =>
      obtain ⟨-, config, secret_bytes, random, hengine⟩ := h.of_client hrole
      cases hengine.symm.trans he
      exact ⟨⟨.inl rfl, nofun⟩, rfl, rfl⟩
    | Server =>
      obtain ⟨-, config, secret_bytes, random, hengine⟩ := h.of_server hrole
      cases hengine.symm.trans he
      exact ⟨⟨.inl rfl, nofun⟩, rfl, rfl⟩
  have hthere : c.engine ≠ none := by
    obtain ⟨role, keys, tls, local_cid, remote_cid, tp, rfl⟩ := h.fresh
    nofun
  exact ⟨⟨fun e he => (hfresh e he).1, fun e he => (hfresh e he).2.1, fun _ _ => .inr nofun,
    fun hnone => absurd hnone hthere, fun _ hup => absurd hup h.not_up⟩,
    fun e he _ => (hfresh e he).2.2⟩

/-! ## Runs -/

/-- The sets that the steps of a run installed. -/
def installs (past : List (Connection B × Step)) : List DerivedKeys :=
  past.flatMap fun x => sets x.1 x.2

/-- A handshake that is complete, its engine with it or gone, has installed a set of the Handshake
level, and behind it one of the Application level. -/
def InOrder (past : List (Connection B × Step)) (c : Connection B) : Prop :=
  (∀ e ∈ c.engine, e.complete = true) → levels (installs past) = [.Handshake, .Application]

/-- In a run of tidy steps the sets are installed in order, each once. -/
theorem tidy_steps_install_in_order (h : Started c) {steps : List Step}
    (hok : Along Step.apply Tidy c steps) : Always Step.apply InOrder c steps := by
  intro pre hpre hdone
  have hsound := run.history
    (fun past c => Sound (levels (installs past)) c)
    (fun past c s htidy h => by
      have hstep := h.step htidy
      rw [installs, List.flatMap_append, List.flatMap_singleton, levels, List.map_append]
      exact hstep)
    (hok.upto hpre) (sound_started h)
  cases hengine : (run.final Step.apply c pre).engine with
  | none => exact hsound.gone hengine
  | some e =>
    have hall := (hsound.kept e hengine).all_derived (hdone e hengine)
    exact (hsound.kept e hengine).all_taken hall (hsound.taken e hengine hall)

/-- Over TCP and over QUIC, in every run in which a message that derives keys finds the slot for
them empty, and none of the level installed if the side answers it, in which nothing is read behind
the client's Finished and every set is usable, a handshake that is complete has installed a set of
the Handshake level, behind it one of the Application level, and no other. -/
theorem derived_keys_are_installed_in_order {X : Primitives} {BUF : Nat}
    {t : tcp_tls.TlsConnection X BUF} (ht : tcp_tls.TlsConnection.Started t) (ops : List tcp_tls.Op)
    {c : Connection B} (hc : Started c) (cs : List Call) :
    (Along tcp_tls.Op.apply tcp_tls.key_sets.Tidy t ops →
      Always tcp_tls.Op.apply tcp_tls.key_sets.InOrder t ops) ∧
    (Along Step.apply Tidy c (c.steps cs) → Always Step.apply InOrder c (c.steps cs)) :=
  ⟨tcp_tls.key_sets.tidy_calls_install_in_order ht, tidy_steps_install_in_order hc⟩

open standin

/-- The calls of a handshake at a client over TCP. -/
def tcp_ops : List tcp_tls.Op :=
  tcp_tls.endpoints.client_ops tcp_tls.key_sets.client
    (tcp_tls.endpoints.server primitives 4096 cert_der)

/-- The law at a handshake over TCP and one over QUIC. -/
theorem handshakes_install_both_sets :
    levels (tcp_tls.key_sets.installs
      (run.trace tcp_tls.Op.apply tcp_tls.key_sets.client tcp_ops)) = [.Handshake, .Application] ∧
    levels (installs (run.trace Step.apply (client .default_params) ((client .default_params).steps
      (handshake .default_params .default_params)))) = [.Handshake, .Application] := by
  have htcp : Along tcp_tls.Op.apply tcp_tls.key_sets.Tidy tcp_tls.key_sets.client tcp_ops ∧
      (run.final tcp_tls.Op.apply tcp_tls.key_sets.client tcp_ops).engine.complete = true := by
    decide +kernel
  have hquic : Along Step.apply Tidy (client .default_params)
        ((client .default_params).steps (handshake .default_params .default_params)) ∧
      (run.final Step.apply (client .default_params) ((client .default_params).steps
        (handshake .default_params .default_params))).engine = none := by
    decide +kernel
  have hstarted : tcp_tls.TlsConnection.Started tcp_tls.key_sets.client := .client _ _ _
  obtain ⟨htcp_all, hquic_all⟩ := derived_keys_are_installed_in_order hstarted tcp_ops
    (client_started .default_params) (handshake .default_params .default_params)
  have htcp_order := htcp_all htcp.1 tcp_ops (List.prefix_refl tcp_ops)
  have hquic_order := hquic_all hquic.1 _ (List.prefix_refl _)
  unfold tcp_tls.key_sets.InOrder at htcp_order
  unfold InOrder at hquic_order
  rw [hquic.2] at hquic_order
  exact ⟨htcp_order htcp.2, hquic_order fun e he => absurd he (Option.not_mem_none e)⟩

end milli_http.connection.key_sets
