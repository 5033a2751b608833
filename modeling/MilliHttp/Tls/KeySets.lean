-- The key sets that a TLS engine derives. There is one slot for a set that is ready, and a message
-- that derives another one writes it over the set that is there.
import MilliHttp.Tls.Offers

open bytes method
open method.Method (bind_run get_bind_run keeps_lift keeps_require keeps_modify keeps_get
  bind_eq_ok)

namespace milli_http.tls.key_sets

open crypto TlsEngine
open offers (config config_role_message read_messages_step read_handshake_eq)

variable {X : Primitives} {msg_type : HandshakeType} {held : Bool}

/-- The levels of the key sets that have been derived by the time a handshake is in a state. -/
def derived_levels : HandshakeState → List Level
  | .Start | .WaitServerHello | .WaitClientHello => []
  | .SendFinished | .Complete => [.Handshake, .Application]
  | _ => [.Handshake]

/-- The state a role goes to by a message that it waits for, and the level of the set it derives. -/
def onward : Role → HandshakeState → HandshakeType → Option (HandshakeState × Option Level)
  | .Client, .WaitServerHello, .ServerHello => some (.WaitEncryptedExtensions, some .Handshake)
  | .Client, .WaitEncryptedExtensions, .EncryptedExtensions => some (.WaitCertificate, none)
  | .Client, .WaitCertificate, .Certificate => some (.WaitCertificateVerify, none)
  | .Client, .WaitCertificateVerify, .CertificateVerify => some (.WaitFinished, none)
  | .Client, .WaitFinished, .Finished => some (.SendFinished, some .Application)
  | .Server, .WaitClientHello, .ClientHello => some (.SendServerFlightInitial, some .Handshake)
  | .Server, .WaitClientFinished, .Finished => some (.Complete, some .Application)
  | _, _, _ => none

/-- The level of the set that a message derives. -/
def derives (role : Role) (state : HandshakeState) (msg_type : HandshakeType) : Option Level :=
  (onward role state msg_type).bind Prod.snd

/-- The level of the set that a side derives before it answers the message. -/
def answer_level : Role → Level
  | .Client => .Application
  | .Server => .Handshake

/-- The side waits for the message that it answers. -/
def Answers (role : Role) (state : HandshakeState) : Prop :=
  (role = .Client ∧ state = .WaitFinished) ∨ (role = .Server ∧ state = .WaitClientHello)

instance (role : Role) (state : HandshakeState) : Decidable (Answers role state) :=
  inferInstanceAs (Decidable
    ((role = .Client ∧ state = .WaitFinished) ∨ (role = .Server ∧ state = .WaitClientHello)))

/-! ## What is asked of a call -/

/-- The hash of the client's Finished is right. -/
def verifies (X : Primitives) (msg_body : Bytes) (e : TlsEngine) : Bool :=
  match parse_finished msg_body with
  | .error _ => false
  | .ok verify_data => decide
      (expected_verify_data X.C.hkdf e.client_handshake_secret (e.current_hash X) = .ok verify_data)

/-- A message that derives keys finds the slot for them empty. If the side answers it, no keys of
the level are held, and if it ends the handshake, nothing comes behind it. -/
def tidy_message (X : Primitives) (held : Bool) (msg_type : HandshakeType) (msg_body rest : Bytes)
    (e : TlsEngine) : Bool :=
  (derives e.role e.state msg_type).isNone ||
    (e.pending_keys.isNone && !(held && decide (Answers e.role e.state)) &&
      (decide (e.state ≠ .WaitClientFinished) || !verifies X msg_body e || decide (rest = [])))

/-- So does every message that `read_messages` comes to. -/
def tidy_messages (X : Primitives) (held : Bool) : Nat → Bytes → TlsEngine → Bool
  | 0, _, _ => true
  | fuel + 1, data, e =>
    match data with
    | [] => true
    | ty :: rest =>
      let msg_len := 4 + beNat (rest.take 3)
      if 4 ≤ data.length ∧ msg_len ≤ data.length then
        match HandshakeType.from_u8 ty with
        | none => true
        | some msg_type =>
          let full_msg := data.take msg_len
          tidy_message X held msg_type (full_msg.drop 4) (data.drop msg_len) e &&
            match role_message X e.role msg_type full_msg (full_msg.drop 4) e with
            | (.error _, _) => true
            | (.ok _, e') => tidy_messages X held fuel (data.drop msg_len) e'
      else true

/-- Every message of a call of `read_handshake` is tidy. -/
def tidy_read (X : Primitives) (held : Bool) (level : Level) (data : Bytes) (e : TlsEngine) :
    Bool :=
  decide (expected_level e.role e.state ≠ some level) || tidy_messages X held data.length data e

/-! ## One message -/

/-- The slot holds a set of the level, or what it held before. -/
def Gives : Option Level → TlsEngine → TlsEngine → Prop
  | none, e, e' => e'.pending_keys = e.pending_keys
  | some level, _, e' => ∃ keys, e'.pending_keys = some keys ∧ keys.level = level

/-- What a message does to the state and the slot. If it is accepted it goes on, and if not it stays
where it is, perhaps with the set that is derived before the answer. -/
def Led (next : HandshakeState) (level late : Option Level) (e : TlsEngine)
    (r : Except Error Unit × TlsEngine) : Prop :=
  match r.1 with
  | .ok _ => r.2.state = next ∧ Gives level e r.2 ∧
      (r.2.complete = true → e.complete = true ∨ next = .Complete)
  | .error _ => r.2.state = e.state ∧ r.2.complete = e.complete ∧
      (Gives none e r.2 ∨ Gives late e r.2)

def Leads (next : HandshakeState) (level late : Option Level)
    (m : Method TlsEngine Error Unit) : Prop :=
  ∀ e, Led next level late e (m e)

/-- What a message looks at to say where the handshake is. -/
def place (e : TlsEngine) : HandshakeState × Bool × Option DerivedKeys :=
  (e.state, e.complete, e.pending_keys)

theorem place_pieces : KeptByPieces (Method.Same place) :=
  ⟨fun _ _ => rfl, fun _ _ => rfl, fun _ _ => rfl, fun _ _ _ => rfl, fun _ _ _ => rfl,
    fun _ _ _ _ => rfl, fun _ _ => rfl⟩

section Leads

variable {next : HandshakeState} {level late : Option Level} {α : Type}

theorem Gives.of_same {e e' e'' : TlsEngine} (h : Gives level e' e'')
    (hsame : e'.pending_keys = e.pending_keys) : Gives level e e'' := by
  cases level with
  | none => exact Eq.trans h hsame
  | some level => exact h

theorem Leads.after {m : Method TlsEngine Error α} {f : α → Method TlsEngine Error Unit}
    (hm : Method.Keeps (Method.Same place) m) (hf : ∀ a, Leads next level late (f a)) :
    Leads next level late (m >>= f) := by
  intro e
  have hplace := hm e
  rw [bind_run]
  rcases hrun : m e with ⟨err | a, e'⟩
  · rw [hrun] at hplace
    obtain ⟨hstate, hcomplete, hpending⟩ := by simpa [Method.Same, place] using hplace
    exact ⟨hstate, hcomplete, .inl hpending⟩
  · rw [hrun] at hplace
    obtain ⟨hstate, hcomplete, hpending⟩ := by simpa [Method.Same, place] using hplace
    have hrest := hf a e'
    dsimp only
    rcases hrest' : f a e' with ⟨err | _, e''⟩
    · rw [hrest'] at hrest
      exact ⟨hrest.1.trans hstate, hrest.2.1.trans hcomplete,
        hrest.2.2.imp (fun h => h.of_same hpending) fun h => h.of_same hpending⟩
    · rw [hrest'] at hrest
      exact ⟨hrest.1, hrest.2.1.of_same hpending, fun hdone => hcomplete ▸ hrest.2.2 hdone⟩

theorem emit_keys_cases (level : Level) (secrets : TlsEngine → Bytes × Bytes) (e : TlsEngine) :
    emit_keys level secrets e = (.error .Tls, e) ∨ ∃ keys : DerivedKeys, keys.level = level ∧
      emit_keys level secrets e = (.ok (), { e with pending_keys := some keys }) := by
  have hsuite : (Method.okOr e.cipher_suite .Tls : Method TlsEngine Error CipherSuite) e =
      (.error .Tls, e) ∨ ∃ suite, Method.okOr e.cipher_suite Error.Tls e = (.ok suite, e) := by
    cases e.cipher_suite with
    | none => exact .inl rfl
    | some suite => exact .inr ⟨suite, rfl⟩
  unfold emit_keys
  rw [get_bind_run]
  rw [bind_run]
  rcases hsuite with h | ⟨suite, h⟩
  · rw [h]
    exact .inl rfl
  · rw [h]
    exact .inr ⟨_, rfl, rfl⟩

/-- What follows the deriving of a set does not derive another. If it can fail, the set is late. -/
theorem Leads.emit {level : Level} {secrets : TlsEngine → Bytes × Bytes}
    {f : Unit → Method TlsEngine Error Unit} (hf : ∀ a, Leads next none none (f a))
    (hlate : late = some level ∨ ∀ e, (f () e).1 = .ok ()) :
    Leads next (some level) late (emit_keys level secrets >>= f) := by
  intro e
  rw [bind_run]
  rcases emit_keys_cases level secrets e with hrun | ⟨keys, hlevel, hrun⟩
  · rw [hrun]
    exact ⟨rfl, rfl, .inl rfl⟩
  · rw [hrun]
    have hrest := hf () { e with pending_keys := some keys }
    have hok := hlate.imp_right fun h => h { e with pending_keys := some keys }
    dsimp only
    generalize f () { e with pending_keys := some keys } = r at hrest hok ⊢
    obtain ⟨err | _, e'⟩ := r
    · obtain rfl : late = some level := hok.resolve_right nofun
      have hgives : e'.pending_keys = some keys := hrest.2.2.elim id id
      exact ⟨hrest.1, hrest.2.1, .inr ⟨keys, hgives, hlevel⟩⟩
    · exact ⟨hrest.1, ⟨keys, hrest.2.1, hlevel⟩, hrest.2.2⟩

theorem leads_modify {move : TlsEngine → TlsEngine} (hstate : ∀ e, (move e).state = next)
    (hpending : ∀ e, (move e).pending_keys = e.pending_keys)
    (hcomplete : ∀ e, (move e).complete = true → e.complete = true ∨ next = .Complete) :
    Leads next none late (Method.modify move) :=
  fun e => ⟨hstate e, hpending e, hcomplete e⟩

end Leads

theorem leads_flight {next : HandshakeState} {late : Option Level} (msg : Bytes)
    {move : TlsEngine → TlsEngine} (hstate : ∀ e, (move e).state = next)
    (hpending : ∀ e, (move e).pending_keys = e.pending_keys)
    (hcomplete : ∀ e, (move e).complete = e.complete) :
    Leads next none late (do
      set_pending_write msg
      Method.modify move) :=
  .after (keeps_set_pending_write (fun _ _ => rfl) msg) fun _ =>
    leads_modify hstate hpending fun e h => .inl ((hcomplete e).symm.trans h)

/-! ## The messages of a handshake -/

theorem leads_server_hello (msg_body : Bytes) :
    Leads .WaitEncryptedExtensions (some .Handshake) none (process_server_hello X msg_body) := by
  refine .after (keeps_lift _) fun sh => .after (keeps_require _ _) fun _ => ?_
  refine .after (keeps_modify fun _ => rfl) fun _ => ?_
  refine .after (keeps_lift _) fun ext => .after (keeps_require _ _) fun _ => ?_
  refine .after (Method.keeps_okOr _ _) fun server_public => ?_
  refine .after (place_pieces.secrets.derive_handshake _) fun _ => ?_
  refine .emit (fun _ => ?_) (.inr fun _ => rfl)
  exact leads_modify (fun _ => rfl) (fun _ => rfl) fun _ => .inl

theorem leads_encrypted_extensions (msg_body : Bytes) :
    Leads .WaitCertificate none none (process_encrypted_extensions msg_body) := by
  refine .after (keeps_lift _) fun ext_data => .after (keeps_lift _) fun parsed => ?_
  refine .after (keeps_modify fun _ => rfl) fun _ => .after keeps_get fun e => ?_
  refine .after (keeps_require _ _) fun _ => ?_
  exact leads_modify (fun _ => rfl) (fun _ => rfl) fun _ => .inl

theorem leads_certificate (msg_body : Bytes) :
    Leads .WaitCertificateVerify none none (process_certificate msg_body) := by
  refine .after (keeps_lift _) fun entries => ?_
  refine .after (keeps_modify fun _ => rfl) fun _ => ?_
  have hmove (cert : Bytes) : Leads .WaitCertificateVerify none none (Method.modify fun e =>
      { e with
        server_cert_data := if cert.length ≤ 2048 then cert else []
        state := .WaitCertificateVerify }) :=
    leads_modify (fun _ => rfl) (fun _ => rfl) fun _ => .inl
  split
  · exact .after (Method.keeps_pure _) hmove
  · exact .after (keeps_lift _) hmove

theorem leads_certificate_verify (msg_body transcript_before_cv : Bytes) :
    Leads .WaitFinished none none (process_certificate_verify X msg_body transcript_before_cv) := by
  refine .after (keeps_lift _) fun cv => .after keeps_get fun e => ?_
  refine .after (keeps_require _ _) fun _ => .after (keeps_lift _) fun _ => ?_
  exact leads_modify (fun _ => rfl) (fun _ => rfl) fun _ => .inl

theorem leads_server_finished (msg_body transcript_before_finished : Bytes) :
    Leads .SendFinished (some .Application) (some .Application)
      (process_server_finished X msg_body transcript_before_finished) := by
  refine .after (keeps_lift _) fun verify_data => .after keeps_get fun e => ?_
  refine .after (keeps_lift _) fun expected => .after (keeps_require _ _) fun _ => ?_
  refine .after (place_pieces.secrets.derive_application _) fun _ => ?_
  refine .emit (fun _ => ?_) (.inl rfl)
  refine .after (keeps_lift _) fun client_verify => ?_
  refine .after (keeps_lift _) fun fin => ?_
  refine .after (place_pieces.secrets.update_transcript fin) fun _ => ?_
  exact leads_flight fin (fun _ => rfl) (fun _ => rfl) fun _ => rfl

theorem leads_client_hello (msg_body : Bytes) :
    Leads .SendServerFlightInitial (some .Handshake) (some .Handshake)
      (process_client_hello X msg_body) := by
  refine .after (keeps_lift _) fun ch => .after (keeps_lift _) fun ext => ?_
  refine .after (keeps_require _ _) fun _ => ?_
  refine .after (Method.keeps_okOr _ _) fun client_public => ?_
  refine .after (Method.keeps_okOr _ _) fun selected_suite => ?_
  refine .after (keeps_modify fun _ => rfl) fun _ => ?_
  refine .after keeps_get fun e => .after (keeps_require _ _) fun _ => ?_
  refine .after (keeps_modify fun _ => rfl) fun _ => ?_
  refine .after (keeps_lift _) fun sh_ext => .after (keeps_lift _) fun sh => ?_
  refine .after (place_pieces.secrets.update_transcript sh) fun _ => ?_
  refine .after (place_pieces.secrets.derive_handshake _) fun _ => ?_
  refine .emit (fun _ => ?_) (.inl rfl)
  refine .after (place_pieces.secrets.build_handshake_flight _) fun flight => ?_
  exact leads_flight sh (fun _ => rfl) (fun _ => rfl) fun _ => rfl

theorem leads_client_finished (msg_body transcript_before_finished : Bytes) :
    Leads .Complete (some .Application) none
      (process_client_finished X msg_body transcript_before_finished) := by
  refine .after (keeps_lift _) fun verify_data => .after keeps_get fun e => ?_
  refine .after (keeps_lift _) fun expected => .after (keeps_require _ _) fun _ => ?_
  refine .after (place_pieces.secrets.derive_application _) fun _ => ?_
  refine .emit (fun _ => ?_) (.inr fun _ => rfl)
  exact leads_modify (fun _ => rfl) (fun _ => rfl) fun _ _ => .inr rfl

/-- The level of the set that may stay behind when the message a side waits for is refused. -/
def late_level (role : Role) (state : HandshakeState) : Option Level :=
  if Answers role state then some (answer_level role) else none

theorem role_message_leads (msg_type : HandshakeType) (full_msg msg_body : Bytes) (e : TlsEngine) :
    (∃ next level, onward e.role e.state msg_type = some (next, level) ∧
      Led next level (late_level e.role e.state) e
        (role_message X e.role msg_type full_msg msg_body e)) ∨
    role_message X e.role msg_type full_msg msg_body e = (.error .Tls, e) := by
  have hhashed {next : HandshakeState} {level late : Option Level} {m : Method TlsEngine Error Unit}
      (hm : Leads next level late m) :
      Led next level late e ((update_transcript full_msg >>= fun _ => m) e) :=
    Leads.after (place_pieces.secrets.update_transcript full_msg) (fun _ => hm) e
  cases e.role with
  | Client =>
    simp only [role_message, client_message]
    rw [get_bind_run]
    generalize e.state = state
    split
    · exact .inl ⟨_, _, rfl, hhashed (leads_server_hello _)⟩
    · exact .inl ⟨_, _, rfl, hhashed (leads_encrypted_extensions _)⟩
    · exact .inl ⟨_, _, rfl, hhashed (leads_certificate _)⟩
    · exact .inl ⟨_, _, rfl, hhashed (leads_certificate_verify _ _)⟩
    · exact .inl ⟨_, _, rfl, hhashed (leads_server_finished _ _)⟩
    · exact .inr rfl
  | Server =>
    simp only [role_message, server_message]
    rw [get_bind_run]
    generalize e.state = state
    split
    · exact .inl ⟨_, _, rfl, hhashed (leads_client_hello _)⟩
    · exact .inl ⟨_, _, rfl, hhashed (leads_client_finished _ _)⟩
    · exact .inr rfl

/-- A set that a message derives is the next one, and a message that is answered derives one. -/
theorem onward_levels {role : Role} {state next : HandshakeState}
    {level : Option Level} (h : onward role state msg_type = some (next, level)) :
    derived_levels next = derived_levels state ++ level.toList ∧ state ≠ .Complete ∧
      (Answers role state → level = some (answer_level role)) := by
  cases role <;> cases state <;> cases msg_type <;> cases h <;>
    simp [derived_levels, Answers, answer_level]

theorem onward_complete {role : Role} {state : HandshakeState}
    {level : Option Level} (h : onward role state msg_type = some (.Complete, level)) :
    role = .Server ∧ state = .WaitClientFinished ∧ msg_type = .Finished ∧
      level = some .Application := by
  cases role <;> cases state <;> cases msg_type <;> cases h
  exact ⟨rfl, rfl, rfl, rfl⟩

theorem finished_verifies {full_msg msg_body : Bytes} {e : TlsEngine}
    (hstate : e.state = .WaitClientFinished)
    (hok : (role_message X .Server .Finished full_msg msg_body e).1 = .ok ()) :
    verifies X msg_body e = true := by
  simp only [role_message, server_message] at hok
  rw [get_bind_run] at hok
  rw [hstate] at hok
  dsimp only at hok
  rw [bind_run, update_transcript, Method.modify_run] at hok
  dsimp only at hok
  obtain ⟨verify_data, e₁, hparse, hok⟩ := bind_eq_ok (Prod.ext hok rfl)
  rw [Method.lift_run] at hparse
  obtain ⟨hparsed, rfl⟩ := Prod.mk.inj hparse
  obtain ⟨_, _, hget, hok⟩ := bind_eq_ok hok
  cases hget
  obtain ⟨expected, e₂, hexpected, hok⟩ := bind_eq_ok hok
  rw [Method.lift_run] at hexpected
  obtain ⟨_, _, hrequire, -⟩ := bind_eq_ok hok
  obtain ⟨hverify, -⟩ := Method.require_eq_ok hrequire
  simp only [verifies, hparsed]
  rw [decide_eq_true_eq, ← hverify]
  exact (Prod.mk.inj hexpected).1

/-! ## What has been derived -/

/-- The levels of the sets that were taken, and of the one that is ready. -/
def derived (taken : List Level) (e : TlsEngine) : List Level :=
  taken ++ (e.pending_keys.map DerivedKeys.level).toList

/-- The state is behind the deriving of both sets. -/
def AllDerived (e : TlsEngine) : Prop := derived_levels e.state = [.Handshake, .Application]

/-- The sets are those that the state says, or one more, that stayed behind when a message was
refused. -/
structure Kept (taken : List Level) (e : TlsEngine) : Prop where
  levels : derived taken e = derived_levels e.state ∨
    (Answers e.role e.state ∧ derived taken e = derived_levels e.state ++ [answer_level e.role])
  complete : e.complete = true → e.state = .Complete

section Kept

variable {taken : List Level} {e : TlsEngine}

theorem Kept.of_place {e' : TlsEngine} (h : Kept taken e) (hplace : place e' = place e)
    (hrole : e'.role = e.role) : Kept taken e' := by
  obtain ⟨hstate, hcomplete, hpending⟩ := by simpa [place] using hplace
  refine ⟨?_, fun hdone => ?_⟩
  · rw [hstate, hrole, derived, hpending]
    exact h.levels
  · rw [hstate]
    exact h.complete (hcomplete ▸ hdone)

theorem Kept.led {next : HandshakeState} {level : Option Level}
    {r : Except Error Unit × TlsEngine} (h : Kept taken e)
    (honward : onward e.role e.state msg_type = some (next, level))
    (hled : Led next level (late_level e.role e.state) e r) (hrole : r.2.role = e.role)
    (hempty : level.isSome → e.pending_keys = none)
    (hanswer : Answers e.role e.state → answer_level e.role ∉ taken) : Kept taken r.2 := by
  obtain ⟨hnext, hstate, hanswered⟩ := onward_levels honward
  have hopen : e.complete ≠ true := fun hdone => hstate (h.complete hdone)
  have hnow : level.isSome → derived taken e = taken := fun hsome => by
    rw [derived, hempty hsome]
    exact List.append_nil taken
  -- A set that stayed behind was taken since, and is held.
  have hlevels : derived taken e = derived_levels e.state := by
    refine h.levels.resolve_right fun ⟨hans, hmore⟩ => hanswer hans ?_
    rw [hnow (by rw [hanswered hans]; rfl)] at hmore
    rw [hmore]
    exact List.mem_append_right _ List.mem_cons_self
  unfold Led at hled
  split at hled
  · obtain ⟨hmoved, hgives, hdone⟩ := hled
    refine ⟨.inl ?_, fun hcomplete => hmoved.trans ((hdone hcomplete).resolve_left hopen)⟩
    rw [hmoved, hnext, ← hlevels]
    cases level with
    | none =>
      rw [derived, show r.2.pending_keys = e.pending_keys from hgives]
      exact (List.append_nil _).symm
    | some level =>
      obtain ⟨keys, hkeys, rfl⟩ := hgives
      rw [hnow rfl, derived, hkeys]
      rfl
  · obtain ⟨hsame, hcomplete, hgives⟩ := hled
    refine ⟨?_, fun hdone => absurd (hcomplete ▸ hdone) hopen⟩
    rw [hsame, hrole, ← hlevels]
    by_cases hans : Answers e.role e.state
    · rw [late_level, if_pos hans] at hgives
      rcases hgives with hpending | ⟨keys, hkeys, hlevel⟩
      · exact .inl (by rw [derived, show r.2.pending_keys = e.pending_keys from hpending]; rfl)
      · refine .inr ⟨hans, ?_⟩
        rw [hnow (by rw [hanswered hans]; rfl), derived, hkeys, ← hlevel]
        rfl
    · rw [late_level, if_neg hans] at hgives
      have hpending : r.2.pending_keys = e.pending_keys := hgives.elim id id
      exact .inl (by rw [derived, hpending]; rfl)

/-- What a call is asked of its messages. -/
theorem tidy_derives {msg_body rest : Bytes}
    (h : tidy_message X held msg_type msg_body rest e = true)
    (hderives : derives e.role e.state msg_type ≠ none) :
    e.pending_keys = none ∧ ¬ (held = true ∧ Answers e.role e.state) ∧
      (e.state = .WaitClientFinished → verifies X msg_body e = true → rest = []) := by
  simp only [tidy_message, Bool.or_eq_true, Bool.and_eq_true, Option.isNone_iff_eq_none, hderives,
    false_or, Bool.not_eq_true', Bool.and_eq_false_iff, decide_eq_true_eq,
    decide_eq_false_iff_not] at h
  obtain ⟨⟨hempty, hheld⟩, hlast⟩ := h
  refine ⟨hempty, fun ⟨ht, hans⟩ => ?_, fun hstate hverifies => ?_⟩
  · rcases hheld with hf | hno
    · rw [ht] at hf
      cases hf
    · exact hno hans
  · rcases hlast with (hne | hno) | hnil
    · exact absurd hstate hne
    · rw [hverifies] at hno
      cases hno
    · exact hnil

theorem Kept.message (h : Kept taken e) (full_msg : Bytes)
    {msg_body rest : Bytes} (hheld : answer_level e.role ∈ taken → held = true)
    (htidy : tidy_message X held msg_type msg_body rest e = true) :
    Kept taken (role_message X e.role msg_type full_msg msg_body e).2 := by
  rcases role_message_leads (X := X) msg_type full_msg msg_body e with
    ⟨next, level, honward, hled⟩ | hrun
  · have hderives : level ≠ none → derives e.role e.state msg_type ≠ none := fun hne => by
      rw [derives, honward]
      exact hne
    refine h.led honward hled ?_ (fun hsome => ?_) fun hans hin => ?_
    · exact congrArg Prod.fst (config_role_message (X := X) e.role msg_type full_msg msg_body e)
    · exact (tidy_derives htidy (hderives (Option.isSome_iff_ne_none.mp hsome))).1
    · have hlevel := (onward_levels honward).2.2 hans
      exact (tidy_derives htidy (hderives (by rw [hlevel]; nofun))).2.1 ⟨hheld hin, hans⟩
  · rw [hrun]
    exact h

theorem Kept.read_messages (h : Kept taken e)
    (hheld : answer_level e.role ∈ taken → held = true) (fuel : Nat) (data : Bytes)
    (htidy : tidy_messages X held fuel data e = true) :
    Kept taken (read_messages (role_message X e.role) fuel data e).2 := by
  induction fuel generalizing data e with
  | zero => exact h
  | succ fuel ih =>
    cases data with
    | nil => exact h
    | cons ty rest =>
      rw [read_messages_step]
      rw [tidy_messages] at htidy
      dsimp only at htidy
      split
      · rename_i hlen
        rw [if_pos hlen] at htidy
        rcases hty : HandshakeType.from_u8 ty with _ | msg_type
        · exact h
        · rw [hty] at htidy
          obtain ⟨hmessage, hrest⟩ := Bool.and_eq_true_iff.mp htidy
          have hkept := h.message ((ty :: rest).take (4 + beNat (rest.take 3))) hheld hmessage
          have hconfig := config_role_message (X := X) e.role msg_type
            ((ty :: rest).take (4 + beNat (rest.take 3)))
            (((ty :: rest).take (4 + beNat (rest.take 3))).drop 4) e
          dsimp only at hrest hkept ⊢
          rcases hrun : role_message X e.role msg_type _ _ e with ⟨err | _, e'⟩
          · rw [hrun] at hkept
            exact hkept
          · rw [hrun] at hrest hkept hconfig
            have hrole : e'.role = e.role := congrArg Prod.fst hconfig
            rw [← hrole] at hheld ⊢
            exact ih hkept hheld _ hrest
      · exact h

/-- Nothing is read once both sets have been derived. -/
theorem AllDerived.expects_nothing (h : AllDerived e) : expected_level e.role e.state = none := by
  unfold AllDerived at h
  cases e.role <;> cases hstate : e.state <;> rw [hstate] at h <;> first | rfl | cases h

theorem AllDerived.unread (h : AllDerived e) (level : Level) (data : Bytes) :
    (e.read_handshake X level data).2 = e := by
  rw [read_handshake_eq, h.expects_nothing]

theorem Kept.all_derived (h : Kept taken e) (hdone : e.complete = true) : AllDerived e := by
  unfold AllDerived
  rw [h.complete hdone]
  rfl

/-- Whatever a tidy call reads, the sets that were taken are the ones that were derived. -/
theorem Kept.read_handshake (h : Kept taken e) {level : Level} {data : Bytes}
    (hheld : AllDerived e ∨ (answer_level e.role ∈ taken → held = true))
    (htidy : tidy_read X held level data e = true) :
    Kept taken (e.read_handshake X level data).2 := by
  rw [read_handshake_eq]
  rcases hexpected : expected_level e.role e.state with _ | expected
  · exact h
  · have hopen : ¬ AllDerived e := fun hall => nomatch hexpected.symm.trans hall.expects_nothing
    dsimp only
    split
    · rename_i hlevel
      have hread : tidy_messages X held data.length data e = true := by
        rcases Bool.or_eq_true_iff.mp htidy with hne | htidy
        · rw [hexpected, hlevel] at hne
          exact absurd rfl (of_decide_eq_true hne)
        · exact htidy
      exact h.read_messages (hheld.resolve_left hopen) _ _ hread
    · exact h

/-- Messages that complete the handshake are read to the end. -/
theorem read_messages_completes (fuel : Nat) {data : Bytes}
    (htidy : tidy_messages X held fuel data e = true)
    (hdone : (read_messages (role_message X e.role) fuel data e).2.complete = true) :
    e.complete = true ∨ (read_messages (role_message X e.role) fuel data e).1 = .ok () := by
  induction fuel generalizing data e with
  | zero => exact .inl hdone
  | succ fuel ih =>
    cases data with
    | nil => exact .inl hdone
    | cons ty rest =>
      rw [read_messages_step] at hdone ⊢
      rw [tidy_messages] at htidy
      dsimp only at htidy hdone ⊢
      split
      · rename_i hlen
        rw [if_pos hlen] at htidy hdone
        rcases hty : HandshakeType.from_u8 ty with _ | msg_type
        · rw [hty] at hdone
          exact .inl hdone
        · rw [hty] at htidy hdone
          obtain ⟨hmessage, hrest⟩ := Bool.and_eq_true_iff.mp htidy
          have hconfig := config_role_message (X := X) e.role msg_type
            ((ty :: rest).take (4 + beNat (rest.take 3)))
            (((ty :: rest).take (4 + beNat (rest.take 3))).drop 4) e
          have hleads := role_message_leads (X := X) msg_type
            ((ty :: rest).take (4 + beNat (rest.take 3)))
            (((ty :: rest).take (4 + beNat (rest.take 3))).drop 4) e
          dsimp only at hrest hdone ⊢
          rcases hrun : role_message X e.role msg_type _ _ e with ⟨err | _, e'⟩
          · rw [hrun] at hdone hleads
            rcases hleads with ⟨next, level, -, hled⟩ | hsame
            · exact .inl (hled.2.1 ▸ hdone)
            · cases hsame
              exact .inl hdone
          · rw [hrun] at hrest hdone hconfig hleads
            have hrole : e'.role = e.role := congrArg Prod.fst hconfig
            dsimp only at hrest hdone ⊢
            rw [← hrole] at hdone ⊢
            rcases ih hrest hdone with hcomplete | hok
            · rcases hleads with ⟨next, level, honward, hled⟩ | hsame
              · rcases hled.2.2 hcomplete with hbefore | rfl
                · exact .inl hbefore
                · -- The client's Finished was read: nothing is behind it.
                  obtain ⟨hserver, hstate, rfl, rfl⟩ := onward_complete honward
                  have hverifies : verifies X _ e = true :=
                    finished_verifies hstate (by rw [← hserver, hrun])
                  have htidy := tidy_derives hmessage (by rw [derives, honward]; nofun)
                  have hlast := htidy.2.2 hstate hverifies
                  rw [hlast]
                  cases fuel <;> exact .inr rfl
              · cases hsame
            · exact .inr hok
      · rename_i hlen
        rw [if_neg hlen] at hdone
        exact .inl hdone

/-- A tidy call that fails has not completed the handshake: if it is complete, nothing was read. -/
theorem Kept.failed_read (h : Kept taken e) {level : Level} {data : Bytes}
    (htidy : tidy_read X held level data e = true)
    (hfailed : (e.read_handshake X level data).1 ≠ .ok ())
    (hdone : (e.read_handshake X level data).2.complete = true) :
    (e.read_handshake X level data).2 = e := by
  have hcomplete (hdone : e.complete = true) := (h.all_derived hdone).expects_nothing
  rw [read_handshake_eq] at hfailed hdone ⊢
  rcases hexpected : expected_level e.role e.state with _ | expected
  · rfl
  · rw [hexpected] at hfailed hdone hcomplete
    dsimp only at hfailed hdone ⊢
    split
    · rename_i hlevel
      rw [if_pos hlevel] at hfailed hdone
      have hread : tidy_messages X held data.length data e = true := by
        rcases Bool.or_eq_true_iff.mp htidy with hne | htidy
        · rw [hexpected, hlevel] at hne
          exact absurd rfl (of_decide_eq_true hne)
        · exact htidy
      rcases read_messages_completes _ hread hdone with hbefore | hok
      · exact nomatch hcomplete hbefore
      · exact absurd hok hfailed
    · rfl

/-- A message is whole. -/
def Whole (msg : Bytes) : Prop := ∃ ty rest, msg = ty :: rest ∧ 4 + beNat (rest.take 3) = msg.length

/-- A call with one message that fails leaves the handshake where it is. -/
theorem read_message_error {level : Level} {msg : Bytes} (hwhole : Whole msg)
    (hfailed : (e.read_handshake X level msg).1 ≠ .ok ()) :
    (e.read_handshake X level msg).2.state = e.state := by
  obtain ⟨ty, rest, rfl, hlen⟩ := hwhole
  rw [read_handshake_eq] at hfailed ⊢
  rcases hexpected : expected_level e.role e.state with _ | expected
  · rfl
  · rw [hexpected] at hfailed
    dsimp only at hfailed ⊢
    split
    · rename_i hlevel
      rw [if_pos hlevel, List.length_cons, read_messages_step] at hfailed
      rw [List.length_cons, read_messages_step]
      split
      · rename_i hfits
        rw [if_pos hfits] at hfailed
        rcases hty : HandshakeType.from_u8 ty with _ | msg_type
        · rfl
        · rw [hty] at hfailed
          have hleads := role_message_leads (X := X) msg_type
            ((ty :: rest).take (4 + beNat (rest.take 3)))
            (((ty :: rest).take (4 + beNat (rest.take 3))).drop 4) e
          dsimp only at hfailed ⊢
          rcases hrun : role_message X e.role msg_type _ _ e with ⟨err | _, e'⟩
          · rw [hrun] at hleads
            rcases hleads with ⟨next, level, -, hled⟩ | hsame
            · exact hled.1
            · cases hsame
              rfl
          · -- Nothing is left that could fail.
            rw [hrun, hlen, List.drop_length] at hfailed
            refine absurd ?_ hfailed
            cases rest <;> rfl
      · rfl
    · rfl

/-! ## Writing -/

theorem Kept.build_client_hello (h : Kept taken e) (hstart : e.state = .Start) :
    Kept taken (build_client_hello X e).2 := by
  have hgreeted := build_client_hello_greeted (X := X) e
  have hopen : e.complete ≠ true := fun hdone => nomatch hstart.symm.trans (h.complete hdone)
  have hlevels : derived taken e = [] := by
    rcases h.levels with hlevels | ⟨hans, -⟩
    · rw [hlevels, hstart]
      rfl
    · rw [hstart] at hans
      exact absurd hans (by simp [Answers])
  by_cases hok : (TlsEngine.build_client_hello X e).1 = .ok ()
  · refine ⟨.inl ?_, fun hdone => absurd (hgreeted.complete.symm.trans hdone) hopen⟩
    rw [(hgreeted.built hok).1, derived, hgreeted.pending_keys]
    exact hlevels
  · refine h.of_place ?_ hgreeted.role
    simp only [place, (hgreeted.failed hok).1, hgreeted.complete, hgreeted.pending_keys]

/-- A write goes on to a state that as many sets belong to. -/
theorem Kept.moved {e' : TlsEngine} (h : Kept taken e) (hpending : e'.pending_keys = e.pending_keys)
    (hlevels : derived_levels e'.state = derived_levels e.state) (hans : ¬ Answers e.role e.state)
    (hcomplete : e'.complete = true → e'.state = .Complete) : Kept taken e' := by
  refine ⟨.inl ?_, hcomplete⟩
  rw [hlevels, derived, hpending]
  exact h.levels.resolve_right fun hlate => hans hlate.1

theorem Kept.write_handshake (h : Kept taken e) (cap : Nat) :
    Kept taken (write_handshake X cap e).2 := by
  refine preserves_write_handshake (fun _ hstart h => h.build_client_hello hstart)
    (fun e _ h => h.of_place rfl rfl) (fun e hstate h => h.moved rfl ?_ ?_ fun _ => rfl)
    (fun e hstate h => h.moved rfl ?_ ?_ fun hdone => ?_)
    (fun e hstate h => h.moved rfl ?_ ?_ fun hdone => ?_) cap e h
  · rw [hstate]
    rfl
  · simp [Answers, hstate]
  · rw [hstate]
    rfl
  · simp [Answers, hstate]
  · exact nomatch hstate.symm.trans (h.complete hdone)
  · rw [hstate]
    rfl
  · simp [Answers, hstate]
  · exact nomatch hstate.symm.trans (h.complete hdone)

theorem write_handshake_keeps (cap : Nat) (e : TlsEngine) :
    (write_handshake X cap e).2.role = e.role ∧
      (e.complete = true → (write_handshake X cap e).2.complete = true) := by
  have hkept := preserves_write_handshake (X := X)
    (P := fun e' => e'.role = e.role ∧ (e.complete = true → e'.complete = true))
    (fun e' _ h => ?_) (fun _ _ h => h) (fun _ _ h => ⟨h.1, fun _ => rfl⟩) (fun _ _ h => h)
    (fun _ _ h => h) cap e
  · exact hkept ⟨rfl, id⟩
  · have hgreeted := build_client_hello_greeted (X := X) e'
    exact ⟨hgreeted.role.trans h.1, fun hdone => hgreeted.complete.trans (h.2 hdone)⟩

/-- Building the ClientHello is long before both sets. -/
theorem not_all_derived_built (hstart : e.state = .Start) :
    ¬ AllDerived (build_client_hello X e).2 := by
  have hgreeted := build_client_hello_greeted (X := X) e
  unfold AllDerived
  by_cases hok : (TlsEngine.build_client_hello X e).1 = .ok ()
  · rw [(hgreeted.built hok).1]
    nofun
  · rw [(hgreeted.failed hok).1, hstart]
    nofun

theorem AllDerived.write_handshake (h : AllDerived e) (cap : Nat) :
    AllDerived (write_handshake X cap e).2 := by
  refine preserves_write_handshake (fun e hstart h => ?_) (fun _ _ h => h) (fun _ _ _ => rfl)
    (fun e hstart h => ?_) (fun e hstart h => ?_) cap e h
  all_goals
    unfold AllDerived at h
    rw [hstart] at h
    cases h

/-- The set of the Application level is taken before it comes to the Finished of the client. -/
theorem taken_write_handshake (htaken : AllDerived e → e.pending_keys = none) (cap : Nat) :
    AllDerived (write_handshake X cap e).2 → (write_handshake X cap e).2.pending_keys = none := by
  refine preserves_write_handshake (P := fun e => AllDerived e → e.pending_keys = none)
    (fun e hstart _ hall => absurd hall (not_all_derived_built hstart)) (fun _ _ h => h)
    (fun e hstate h _ => h ?_) (fun e hstate _ hall => ?_) (fun e hstate _ hall => ?_) cap e htaken
  · unfold AllDerived
    rw [hstate]
    rfl
  · cases hall
  · cases hall

/-! ## Taking -/

/-- A set that is taken moves to the ones that were. -/
theorem Kept.derived_keys (h : Kept taken e) : Kept (derived taken e) e.derived_keys.2 := by
  have hsame : derived (derived taken e) e.derived_keys.2 = derived taken e := List.append_nil _
  exact ⟨hsame.symm ▸ h.levels, h.complete⟩

/-- Once both sets have been derived and none is ready, both were taken. -/
theorem Kept.all_taken (h : Kept taken e) (hall : AllDerived e) (hnone : e.pending_keys = none) :
    taken = [.Handshake, .Application] := by
  have hlevels : derived taken e = derived_levels e.state := by
    refine h.levels.resolve_right fun ⟨hans, _⟩ => ?_
    unfold AllDerived at hall
    rcases hans with ⟨-, hstate⟩ | ⟨-, hstate⟩
    all_goals
      rw [hstate] at hall
      cases hall
  rw [derived, hnone, hall] at hlevels
  exact (List.append_nil taken).symm.trans hlevels

/-- Two sets are derived at most. -/
theorem Kept.derived_le (h : Kept taken e) : (derived taken e).length ≤ 2 := by
  rcases h.levels with hlevels | ⟨⟨-, hstate⟩ | ⟨-, hstate⟩, hlevels⟩
  · rw [hlevels]
    cases e.state <;> simp [derived_levels]
  · rw [hlevels, hstate]
    exact Nat.le_refl 2
  · rw [hlevels, hstate]
    exact Nat.le_succ 1

/-- The set of the Application level is the second, and a server derives it last. -/
theorem Kept.derived_application (h : Kept taken e) (happ : .Application ∈ derived taken e) :
    derived taken e = [.Handshake, .Application] ∧ (e.role = .Server → AllDerived e) := by
  rcases h.levels with hlevels | ⟨⟨hrole, hstate⟩ | ⟨hrole, hstate⟩, hlevels⟩
  · rw [hlevels] at happ ⊢
    have hall : AllDerived e := by
      unfold AllDerived
      cases hstate : e.state <;> rw [hstate] at happ <;> first | rfl | simp [derived_levels] at happ
    exact ⟨hall, fun _ => hall⟩
  · rw [hlevels, hstate, hrole]
    exact ⟨rfl, nofun⟩
  · rw [hlevels, hstate, hrole] at happ
    simp [derived_levels, answer_level] at happ

end Kept

end milli_http.tls.key_sets
