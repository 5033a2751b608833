-- How far the handshake of a client has come. The engine hands out Handshake keys once, with
-- the ServerHello, and Application keys only after it has verified the server's Finished
-- against the transcript before it.
import MilliHttp.Tls.Handshake

open bytes method
open method.Method (keeps_modify keeps_seq keeps_require keeps_get keeps_lift bind_run keeps_pure
  get_bind_run)

namespace milli_http.tls.TlsEngine

open crypto

variable {X : Primitives} {e e' : TlsEngine}

/-! ## Progress -/

/-- The ServerHello has been processed. -/
def Past (e : TlsEngine) : Prop := e.state ≠ .Start ∧ e.state ≠ .WaitServerHello

/-- The transcript holds a Finished message of the server: its verify data is what the server's
handshake secret gives for the transcript before it. -/
def Verified (X : Primitives) (e : TlsEngine) : Prop :=
  ∃ before msg rest verify_data, e.transcript = before ++ msg ++ rest ∧
    parse_finished (msg.drop 4) = .ok verify_data ∧
    expected_verify_data X.C.hkdf e.server_handshake_secret (X.sha256 before) = .ok verify_data

/-- The server is who it should be: the ServerHello is in, and a Finished verified. -/
structure Authentic (X : Primitives) (e : TlsEngine) : Prop where
  past : e.Past
  verified : e.Verified X

/-- The client has its own Finished to send, or has sent it. -/
def Late (e : TlsEngine) : Prop :=
  e.state = .SendFinished ∨ e.state = .Complete ∨ e.complete = true

/-- What the engine of a client has seen at each point. -/
structure ClientProgress (X : Primitives) (e : TlsEngine) : Prop where
  role : e.role = .Client
  handshake : ∀ k ∈ e.pending_keys, k.level = .Handshake → e.Past
  application : ∀ k ∈ e.pending_keys, k.level = .Application → e.Authentic X
  late : e.Late → e.Authentic X

/-- No more Handshake keys will be handed out. -/
structure HandshakeSpent (e : TlsEngine) : Prop where
  past : e.Past
  taken : ∀ k ∈ e.pending_keys, k.level ≠ .Handshake

/-- What reading keeps. -/
structure Advanced (X : Primitives) (e e' : TlsEngine) : Prop where
  progress : ClientProgress X e'
  complete : e'.complete = e.complete
  spent : HandshakeSpent e → HandshakeSpent e'
  authentic : e.Authentic X → e'.Authentic X

def ClientStep (X : Primitives) (e e' : TlsEngine) : Prop := ClientProgress X e → Advanced X e e'

instance : IsPreorder TlsEngine (ClientStep X) where
  refl _ h := ⟨h, rfl, id, id⟩
  trans _ _ _ h₁ h₂ h := by
    have h₁ := h₁ h
    have h₂ := h₂ h₁.progress
    exact ⟨h₂.progress, h₂.complete.trans h₁.complete, fun hs => h₂.spent (h₁.spent hs),
      fun ha => h₂.authentic (h₁.authentic ha)⟩

/-! ## Kinds of steps -/

/-- Before the ServerHello is accepted: nothing that counts has moved. -/
structure Waiting (e e' : TlsEngine) : Prop where
  role : e'.role = e.role
  state : e'.state = e.state
  complete : e'.complete = e.complete
  pending : e'.pending_keys = e.pending_keys

instance : IsPreorder TlsEngine Waiting where
  refl _ := ⟨rfl, rfl, rfl, rfl⟩
  trans _ _ _ h₁ h₂ := ⟨h₂.1.trans h₁.1, h₂.2.trans h₁.2, h₂.3.trans h₁.3, h₂.4.trans h₁.4⟩

/-- After it: the transcript grows, and the state moves on. -/
structure Onward (e e' : TlsEngine) : Prop where
  role : e'.role = e.role
  complete : e'.complete = e.complete
  pending : e'.pending_keys = e.pending_keys
  secret : e'.server_handshake_secret = e.server_handshake_secret
  transcript : e.transcript <+: e'.transcript
  past : e.Past → e'.Past
  late : e'.Late → e.Late

instance : IsPreorder TlsEngine Onward where
  refl _ := ⟨rfl, rfl, rfl, rfl, List.prefix_refl _, id, id⟩
  trans _ _ _ h₁ h₂ := ⟨h₂.1.trans h₁.1, h₂.2.trans h₁.2, h₂.3.trans h₁.3, h₂.4.trans h₁.4,
    h₁.5.trans h₂.5, fun h => h₂.6 (h₁.6 h), fun h => h₁.7 (h₂.7 h)⟩

/-- Once the Finished is verified: Application keys may be handed out. -/
def Confirmed (X : Primitives) (e e' : TlsEngine) : Prop :=
  e.Authentic X → e'.Authentic X ∧ e'.role = e.role ∧
    e'.complete = e.complete ∧ ∀ k ∈ e'.pending_keys, k ∈ e.pending_keys ∨ k.level = .Application

instance : IsPreorder TlsEngine (Confirmed X) where
  refl _ h := ⟨h, rfl, rfl, fun _ => .inl⟩
  trans _ _ _ h₁ h₂ h := by
    obtain ⟨hp₁, hr₁, hc₁, hk₁⟩ := h₁ h
    obtain ⟨hp₂, hr₂, hc₂, hk₂⟩ := h₂ hp₁
    refine ⟨hp₂, hr₂.trans hr₁, hc₂.trans hc₁, fun k hk => ?_⟩
    rcases hk₂ k hk with hk | hk
    · exact hk₁ k hk
    · exact .inr hk

theorem Verified.grow (h : e.Verified X)
    (hsecret : e'.server_handshake_secret = e.server_handshake_secret)
    (htranscript : e.transcript <+: e'.transcript) : e'.Verified X := by
  obtain ⟨before, msg, rest, verify_data, heq, hparse, hexpected⟩ := h
  obtain ⟨more, hmore⟩ := htranscript
  refine ⟨before, msg, rest ++ more, verify_data, ?_, hparse, hsecret ▸ hexpected⟩
  rw [← hmore, heq]
  simp

theorem Waiting.clientStep (h : Waiting e e') (hstate : ¬ e.Past) : ClientStep X e e' := by
  intro hp
  have hpast : e'.Past ↔ e.Past := by simp only [Past, h.state]
  have hlate : e'.Late ↔ e.Late := by simp only [Late, h.state, h.complete]
  have hnone : ∀ k ∈ e'.pending_keys, k.level = .Handshake ∨ k.level = .Application → e.Past := by
    intro k hk hl
    rw [h.pending] at hk
    rcases hl with hl | hl
    · exact hp.handshake k hk hl
    · exact (hp.application k hk hl).1
  refine ⟨⟨h.role.trans hp.role, ?_, ?_, ?_⟩, h.complete, fun hs => absurd hs.past hstate,
    fun ha => absurd ha.past hstate⟩
  · exact fun k hk hl => absurd (hnone k hk (.inl hl)) hstate
  · exact fun k hk hl => absurd (hnone k hk (.inr hl)) hstate
  · exact fun hl => absurd (hp.late (hlate.mp hl)).past hstate

theorem Onward.authentic (h : Onward e e') (ha : e.Authentic X) : e'.Authentic X :=
  ⟨h.past ha.past, ha.verified.grow h.secret h.transcript⟩

theorem Onward.clientStep (h : Onward e e') : ClientStep X e e' := by
  intro hp
  refine ⟨⟨h.role.trans hp.role, fun k hk hl => ?_, fun k hk hl => ?_, fun hl => ?_⟩, h.complete,
    fun hs => ⟨h.past hs.past, h.pending ▸ hs.taken⟩, h.authentic⟩
  · exact h.past (hp.handshake k (h.pending ▸ hk) hl)
  · exact h.authentic (hp.application k (h.pending ▸ hk) hl)
  · exact h.authentic (hp.late (h.late hl))

theorem Confirmed.clientStep (h : Confirmed X e e') (hv : e.Authentic X) : ClientStep X e e' := by
  intro hp
  obtain ⟨hv', hrole, hcomplete, hkeys⟩ := h hv
  refine ⟨⟨hrole.trans hp.role, fun _ _ _ => hv'.past, fun _ _ _ => hv', fun _ => hv'⟩, hcomplete,
    fun hs => ⟨hv'.past, fun k hk => ?_⟩, fun _ => hv'⟩
  rcases hkeys k hk with hk | hk
  · exact hs.taken k hk
  · simp [hk]

theorem Onward.confirmed (h : Onward e e') : Confirmed X e e' := fun hv =>
  ⟨h.authentic hv, h.role, h.complete, fun _ hk => .inl (h.pending ▸ hk)⟩

/-! ## The ServerHello -/

theorem waiting_update_transcript (msg : Bytes) : Method.Keeps Waiting (update_transcript msg) :=
  keeps_modify fun _ => ⟨rfl, rfl, rfl, rfl⟩

theorem waiting_set_pending_write (msg : Bytes) : Method.Keeps Waiting (set_pending_write msg) := by
  refine keeps_seq (keeps_modify fun _ => ⟨rfl, rfl, rfl, rfl⟩) fun _ => ?_
  refine keeps_seq (keeps_require _ _) fun _ => ?_
  exact keeps_modify fun _ => ⟨rfl, rfl, rfl, rfl⟩

theorem waiting_derive_handshake (peer_public : Bytes) :
    Method.Keeps Waiting (derive_handshake X peer_public) := by
  refine keeps_seq keeps_get fun e => ?_
  refine keeps_seq (keeps_require _ _) fun _ => ?_
  refine keeps_seq (keeps_lift _) fun ks => ?_
  refine keeps_seq (keeps_modify fun _ => ⟨rfl, rfl, rfl, rfl⟩) fun _ => ?_
  refine keeps_seq (keeps_lift _) fun secrets => ?_
  exact keeps_modify fun _ => ⟨rfl, rfl, rfl, rfl⟩

/-- What a step from `WaitServerHello` may do. -/
def HelloStep (X : Primitives) (e e' : TlsEngine) : Prop :=
  e.state = .WaitServerHello → ClientStep X e e'

theorem not_past_of_waitServerHello {e : TlsEngine} (h : e.state = .WaitServerHello) : ¬ e.Past :=
  fun hp => hp.2 h

theorem helloStep_after {α β : Type} {m : Method TlsEngine Error α} {f : α → Method TlsEngine Error β}
    (hm : Method.Keeps Waiting m) (hf : ∀ a, Method.Keeps (HelloStep X) (f a)) :
    Method.Keeps (HelloStep X) (m >>= f) := fun e =>
  Method.kept_after (fun hw hs => hw.clientStep (not_past_of_waitServerHello hs))
    (fun hw ht hs => IsTrans.trans _ _ _ (hw.clientStep (not_past_of_waitServerHello hs))
      (ht (hw.state.trans hs))) (hm e) fun a e' _ => hf a e'

/-- Handshake keys are handed out with the move past the ServerHello. -/
theorem helloStep_emit (secrets : TlsEngine → Bytes × Bytes) :
    Method.Keeps (HelloStep X) (emit_keys .Handshake secrets >>= fun _ =>
      Method.modify fun e => { e with state := .WaitEncryptedExtensions }) := by
  intro e hstate hp
  have hnot := not_past_of_waitServerHello hstate
  cases hsuite : e.cipher_suite with
  | none =>
    have hrun : (emit_keys .Handshake secrets >>= fun _ =>
        Method.modify fun e => { e with state := .WaitEncryptedExtensions }) e = (.error .Tls, e) := by
      unfold emit_keys
      simp [bind_run, hsuite]
    rw [hrun]
    exact ⟨hp, rfl, id, id⟩
  | some cipher_suite =>
    have hrun : (emit_keys .Handshake secrets >>= fun _ =>
        Method.modify fun e => { e with state := .WaitEncryptedExtensions }) e = (.ok (), { e with
          pending_keys := some { level := .Handshake, cipher_suite, send_secret := (secrets e).1,
                                 recv_secret := (secrets e).2 }
          state := .WaitEncryptedExtensions }) := by
      unfold emit_keys
      simp [bind_run, hsuite]
    rw [hrun]
    have hcomplete : e.complete ≠ true := fun hc => hnot (hp.late (.inr (.inr hc))).past
    refine ⟨⟨hp.role, fun _ _ _ => ⟨by simp, by simp⟩, ?_, ?_⟩, rfl, fun hs => absurd hs.past hnot,
      fun ha => absurd ha.past hnot⟩
    · intro k hk hl
      cases hk
      cases hl
    · rintro (h | h | h)
      · cases h
      · cases h
      · exact absurd h hcomplete

theorem process_server_hello_step (msg_body : Bytes) :
    Method.Keeps (HelloStep X) (process_server_hello X msg_body) := by
  refine helloStep_after (keeps_lift _) fun sh => ?_
  refine helloStep_after (keeps_require _ _) fun _ => ?_
  refine helloStep_after (keeps_modify fun _ => ⟨rfl, rfl, rfl, rfl⟩) fun _ => ?_
  refine helloStep_after (keeps_lift _) fun ext => ?_
  refine helloStep_after (keeps_require _ _) fun _ => ?_
  refine helloStep_after (Method.keeps_okOr _ _) fun server_public => ?_
  exact helloStep_after (waiting_derive_handshake _) fun _ => helloStep_emit _

/-! ## The messages of the Handshake level -/

theorem onward_update_transcript (msg : Bytes) : Method.Keeps Onward (update_transcript msg) :=
  keeps_modify fun _ => ⟨rfl, rfl, rfl, rfl, List.prefix_append _ _, id, id⟩

theorem onward_set_pending_write (msg : Bytes) : Method.Keeps Onward (set_pending_write msg) := by
  refine keeps_seq (keeps_modify fun _ => ?_) fun _ => ?_
  · exact ⟨rfl, rfl, rfl, rfl, List.prefix_refl _, id, id⟩
  · refine keeps_seq (keeps_require _ _) fun _ => keeps_modify fun _ => ?_
    exact ⟨rfl, rfl, rfl, rfl, List.prefix_refl _, id, id⟩

theorem onward_derive_application (transcript_hash : Bytes) :
    Method.Keeps Onward (derive_application X transcript_hash) := by
  refine keeps_seq keeps_get fun e => ?_
  refine keeps_seq (keeps_lift _) fun ks => ?_
  refine keeps_seq (keeps_modify fun _ => ?_) fun _ => ?_
  · exact ⟨rfl, rfl, rfl, rfl, List.prefix_refl _, id, id⟩
  · refine keeps_seq (keeps_lift _) fun secrets => keeps_modify fun _ => ?_
    exact ⟨rfl, rfl, rfl, rfl, List.prefix_refl _, id, id⟩

/-- Moving on to a state that is neither before the ServerHello nor after the Finished. -/
theorem onward_move (hrole : e'.role = e.role)
    (hcomplete : e'.complete = e.complete) (hpending : e'.pending_keys = e.pending_keys)
    (hsecret : e'.server_handshake_secret = e.server_handshake_secret)
    (htranscript : e'.transcript = e.transcript)
    (hstate : e'.state = .WaitCertificate ∨ e'.state = .WaitCertificateVerify ∨
      e'.state = .WaitFinished) : Onward e e' := by
  refine ⟨hrole, hcomplete, hpending, hsecret, htranscript ▸ List.prefix_refl _, fun _ => ?_, ?_⟩
  · rcases hstate with h | h | h <;> simp [Past, h]
  · rintro (h | h | h)
    · rw [h] at hstate
      simp at hstate
    · rw [h] at hstate
      simp at hstate
    · exact .inr (.inr (hcomplete ▸ h))

theorem process_encrypted_extensions_onward (msg_body : Bytes) :
    Method.Keeps Onward (process_encrypted_extensions msg_body) := by
  refine keeps_seq (keeps_lift _) fun ext_data => ?_
  refine keeps_seq (keeps_lift _) fun parsed => ?_
  refine keeps_seq (keeps_modify fun _ => ?_) fun _ => ?_
  · exact ⟨rfl, rfl, rfl, rfl, List.prefix_refl _, id, id⟩
  · refine keeps_seq keeps_get fun e => ?_
    refine keeps_seq (keeps_require _ _) fun _ => keeps_modify fun _ => ?_
    exact onward_move rfl rfl rfl rfl rfl (.inl rfl)

theorem process_certificate_onward (msg_body : Bytes) :
    Method.Keeps Onward (process_certificate msg_body) := by
  refine keeps_seq (keeps_lift _) fun entries => ?_
  refine keeps_seq (keeps_modify fun _ => ?_) fun _ => ?_
  · exact ⟨rfl, rfl, rfl, rfl, List.prefix_refl _, id, id⟩
  · dsimp only
    split
    · refine keeps_seq (keeps_pure _) fun cert => keeps_modify fun _ => ?_
      exact onward_move rfl rfl rfl rfl rfl (.inr (.inl rfl))
    · refine keeps_seq (keeps_lift _) fun cert => keeps_modify fun _ => ?_
      exact onward_move rfl rfl rfl rfl rfl (.inr (.inl rfl))

theorem process_certificate_verify_onward (msg_body transcript_before_cv : Bytes) :
    Method.Keeps Onward (process_certificate_verify X msg_body transcript_before_cv) := by
  refine keeps_seq (keeps_lift _) fun cv => ?_
  refine keeps_seq keeps_get fun e => ?_
  refine keeps_seq (keeps_require _ _) fun _ => ?_
  refine keeps_seq (keeps_lift _) fun _ => keeps_modify fun _ => ?_
  exact onward_move rfl rfl rfl rfl rfl (.inr (.inr rfl))

/-! ## The Finished -/

theorem confirmed_of_onward {α : Type} {m : Method TlsEngine Error α} (h : Method.Keeps Onward m) :
    Method.Keeps (Confirmed X) m := fun e => (h e).confirmed

theorem confirmed_emit (secrets : TlsEngine → Bytes × Bytes) :
    Method.Keeps (Confirmed X) (emit_keys .Application secrets) := by
  refine keeps_seq keeps_get fun e => ?_
  refine keeps_seq (Method.keeps_okOr _ _) fun cipher_suite => keeps_modify fun e' hv => ?_
  refine ⟨⟨hv.past, hv.verified⟩, rfl, rfl, fun k hk => .inr ?_⟩
  cases hk
  rfl

/-- The Finished is checked against the transcript before it, and only then do Application keys
come out. -/
theorem process_server_finished_step {e : TlsEngine} {before msg : Bytes}
    (htranscript : e.transcript = before ++ msg) (hpast : e.Past) :
    ClientStep X e (process_server_finished X (msg.drop 4) (X.sha256 before) e).2 := by
  unfold process_server_finished
  rw [bind_run, Method.lift_run]
  cases hparse : parse_finished (msg.drop 4) with
  | error err => exact refl e
  | ok verify_data =>
    dsimp only
    rw [get_bind_run]
    rw [bind_run, Method.lift_run]
    cases hexpected : expected_verify_data X.C.hkdf e.server_handshake_secret (X.sha256 before) with
    | error err => exact refl e
    | ok expected =>
      dsimp only
      rw [Method.require_bind_run]
      split
      · rename_i heq
        have hv : e.Authentic X :=
          ⟨hpast, before, msg, [], verify_data, by simp [htranscript], hparse, heq ▸ hexpected⟩
        refine Confirmed.clientStep ?_ hv
        refine keeps_seq (R := Confirmed X) (confirmed_of_onward (onward_derive_application _)) (fun _ => ?_) e
        refine keeps_seq (confirmed_emit _) fun _ => ?_
        refine keeps_seq (keeps_lift _) fun client_verify => ?_
        refine keeps_seq (keeps_lift _) fun fin => ?_
        refine keeps_seq (confirmed_of_onward (onward_update_transcript _)) fun _ => ?_
        refine keeps_seq (confirmed_of_onward (onward_set_pending_write _)) fun _ => ?_
        refine keeps_modify fun e' hv' => ?_
        exact ⟨⟨⟨nofun, nofun⟩, hv'.verified⟩, rfl, rfl, fun _ => .inl⟩
      · exact refl e

/-! ## Reading and writing -/

theorem client_message_step (msg_type : HandshakeType) (full_msg : Bytes) :
    Method.Keeps (ClientStep X) (client_message X msg_type full_msg (full_msg.drop 4)) := by
  intro e
  unfold client_message
  rw [get_bind_run]
  have honward : ∀ m : Method TlsEngine Error Unit, Method.Keeps Onward m →
      ClientStep X e ((update_transcript full_msg >>= fun _ => m) e).2 := fun m hm =>
    (keeps_seq (onward_update_transcript full_msg) (fun _ => hm) e).clientStep
  generalize hs : e.state = state
  split
  · exact helloStep_after (waiting_update_transcript full_msg)
      (fun _ => process_server_hello_step _) e hs
  · exact honward _ (process_encrypted_extensions_onward _)
  · exact honward _ (process_certificate_onward _)
  · exact honward _ (process_certificate_verify_onward _ _)
  · have hpast : e.Past := by simp [Past, hs]
    have hgrown := (onward_update_transcript full_msg e).clientStep (X := X)
    exact IsTrans.trans _ _ _ hgrown (process_server_finished_step rfl hpast)
  · exact refl e

theorem read_messages_kept (fuel : Nat) (data : Bytes) :
    Method.Keeps (ClientStep X) (read_messages (client_message X) fuel data) := by
  induction fuel generalizing data with
  | zero => exact keeps_pure _
  | succ fuel ih =>
    unfold read_messages
    split
    · exact keeps_pure _
    · refine keeps_seq (keeps_require _ _) fun _ => ?_
      refine keeps_seq (keeps_require _ _) fun _ => ?_
      refine keeps_seq (Method.keeps_okOr _ _) fun msg_type => ?_
      exact keeps_seq (client_message_step _ _) fun _ => ih _

theorem read_handshake_step (level : Level) (data : Bytes) :
    Method.Keeps (ClientStep X) (read_handshake X level data) := by
  intro e hp
  unfold read_handshake
  rw [bind_run, Method.get_run]
  simp only [hp.role]
  refine keeps_seq (R := ClientStep X) (Method.keeps_okOr _ _) (fun expected => ?_) e hp
  exact keeps_seq (keeps_require _ _) fun _ => read_messages_kept _ _

/-- What writing keeps. Flushing the Finished completes the handshake. -/
structure Written (X : Primitives) (e e' : TlsEngine) : Prop where
  progress : ClientProgress X e'
  complete : e'.complete = true → e.complete = true ∨ e.state = .SendFinished
  finished : e'.state = .SendFinished → e.state = .SendFinished
  spent : HandshakeSpent e → HandshakeSpent e'
  authentic : e.Authentic X → e'.Authentic X

def ClientWrite (X : Primitives) (e e' : TlsEngine) : Prop := ClientProgress X e → Written X e e'

instance : IsPreorder TlsEngine (ClientWrite X) where
  refl _ h := ⟨h, .inl, id, id, id⟩
  trans _ _ _ h₁ h₂ h := by
    have h₁ := h₁ h
    have h₂ := h₂ h₁.progress
    refine ⟨h₂.progress, fun hc => ?_, fun hf => h₁.finished (h₂.finished hf),
      fun hs => h₂.spent (h₁.spent hs), fun ha => h₂.authentic (h₁.authentic ha)⟩
    rcases h₂.complete hc with hc | hf
    · exact h₁.complete hc
    · exact .inr (h₁.finished hf)

theorem Waiting.clientWrite (h : Waiting e e') (hstate : ¬ e.Past) : ClientWrite X e e' := fun hp =>
  ⟨(h.clientStep hstate hp).progress, fun hc => .inl (h.complete ▸ hc), fun hf => h.state ▸ hf,
    fun hs => absurd hs.past hstate, fun ha => absurd ha.past hstate⟩

/-- The ClientHello is built from `Start`. -/
def StartWrite (X : Primitives) (e e' : TlsEngine) : Prop := e.state = .Start → ClientWrite X e e'

theorem startWrite_after {α β : Type} {m : Method TlsEngine Error α} {f : α → Method TlsEngine Error β}
    (hm : Method.Keeps Waiting m) (hf : ∀ a, Method.Keeps (StartWrite X) (f a)) :
    Method.Keeps (StartWrite X) (m >>= f) := fun e =>
  Method.kept_after (fun hw hs => hw.clientWrite fun hp => hp.1 hs)
    (fun hw ht hs => IsTrans.trans _ _ _ (hw.clientWrite fun hp => hp.1 hs)
      (ht (hw.state.trans hs))) (hm e) fun a e' _ => hf a e'

theorem build_client_hello_write : Method.Keeps (StartWrite X) (build_client_hello X) := by
  refine startWrite_after keeps_get fun e => ?_
  refine startWrite_after (keeps_lift _) fun ext => ?_
  refine startWrite_after (keeps_require _ _) fun _ => ?_
  refine startWrite_after (keeps_lift _) fun msg => ?_
  refine startWrite_after (waiting_update_transcript _) fun _ => ?_
  refine startWrite_after (waiting_set_pending_write _) fun _ => ?_
  refine keeps_modify fun e hstate hp => ?_
  have hnot : ¬ e.Past := fun h => h.1 hstate
  refine ⟨⟨hp.role, ?_, ?_, ?_⟩, .inl, nofun, fun hs => absurd hs.past hnot,
    fun ha => absurd ha.past hnot⟩
  · exact fun k hk hl => absurd (hp.handshake k hk hl) hnot
  · exact fun k hk hl => absurd (hp.application k hk hl).past hnot
  · rintro (h | h | h)
    · cases h
    · cases h
    · exact absurd (hp.late (.inr (.inr h))).past hnot

/-- Taking the flight. -/
theorem clientWrite_flush (e : TlsEngine) : ClientWrite X e
    (if e.state = .SendFinished then
      { e with pending_write := [], state := .Complete, complete := true }
    else { e with pending_write := [] }) := by
  intro hp
  split
  · rename_i hstate
    have hauth : Authentic X { e with pending_write := [], state := .Complete, complete := true } :=
      ⟨⟨nofun, nofun⟩, (hp.late (.inl hstate)).verified⟩
    exact ⟨⟨hp.role, fun _ _ _ => hauth.past, fun _ _ _ => hauth, fun _ => hauth⟩, fun _ => .inr hstate,
      nofun, fun hs => ⟨hauth.past, hs.taken⟩, fun _ => hauth⟩
  · exact ⟨⟨hp.role, hp.handshake, fun k hk hl => ⟨(hp.application k hk hl).past,
      (hp.application k hk hl).verified⟩, fun hl => ⟨(hp.late hl).past, (hp.late hl).verified⟩⟩,
      .inl, id, fun hs => ⟨hs.past, hs.taken⟩, fun ha => ⟨ha.past, ha.verified⟩⟩

/-- Handing a flight out. -/
theorem flush_write (cap : Nat) : Method.Keeps (ClientWrite X) (take_flight cap) := by
  refine keeps_seq keeps_get fun e => Method.keeps_ite (keeps_pure _) ?_
  refine keeps_seq (keeps_require _ _) fun _ => ?_
  exact keeps_seq (keeps_modify clientWrite_flush) fun _ => keeps_pure _

theorem write_handshake_write (cap : Nat) :
    Method.Keeps (ClientWrite X) (write_handshake X cap) := by
  intro e hp
  unfold write_handshake write_client
  rw [bind_run, Method.get_run]
  simp only [hp.role]
  rw [get_bind_run]
  split
  · rename_i hstate
    exact Method.kept_bind (R := ClientWrite X) (build_client_hello_write e hstate)
      (fun _ e' _ => flush_write cap e') hp
  · exact flush_write cap e hp

end milli_http.tls.TlsEngine
