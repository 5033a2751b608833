-- What a handshake message writes, piece by piece. A relation between engines that every piece
-- keeps is kept by a whole message, so that the message functions are looked at once.
import MilliHttp.Tls.Handshake

open bytes method
open method.Method (keeps_modify keeps_seq keeps_get keeps_require keeps_lift keeps_pure
  get_bind_run)

namespace milli_http.tls.TlsEngine

open crypto

variable {X : Primitives}

/-- What the writes keep that only hash, derive and store a certificate. -/
structure KeptBySecrets (R : TlsEngine → TlsEngine → Prop) : Prop where
  hashed (e : TlsEngine) (message : Bytes) : R e { e with transcript := e.transcript ++ message }
  schedule (e : TlsEngine) (key_schedule : TlsKeySchedule) : R e { e with key_schedule }
  handshake_secrets (e : TlsEngine) (client_handshake_secret server_handshake_secret : Bytes) :
    R e { e with client_handshake_secret, server_handshake_secret }
  app_secrets (e : TlsEngine) (client_app_secret server_app_secret : Bytes) :
    R e { e with client_app_secret, server_app_secret }
  cert (e : TlsEngine) (server_cert_data : Bytes) : R e { e with server_cert_data }

/-- What the writes of a message that leave its state, its keys and its flights alone keep. -/
structure KeptByPieces (R : TlsEngine → TlsEngine → Prop) : Prop where
  transcript (e : TlsEngine) (transcript : Bytes) : R e { e with transcript }
  suite (e : TlsEngine) (cipher_suite : Option CipherSuite) : R e { e with cipher_suite }
  schedule (e : TlsEngine) (key_schedule : TlsKeySchedule) : R e { e with key_schedule }
  handshake_secrets (e : TlsEngine) (client_handshake_secret server_handshake_secret : Bytes) :
    R e { e with client_handshake_secret, server_handshake_secret }
  app_secrets (e : TlsEngine) (client_app_secret server_app_secret : Bytes) :
    R e { e with client_app_secret, server_app_secret }
  learnt (e : TlsEngine) (negotiated_alpn : Option Bytes)
    (peer_transport_params : Option TransportParams) (peer_record_size_limit : Option Nat) :
    R e { e with negotiated_alpn, peer_transport_params, peer_record_size_limit }
  cert (e : TlsEngine) (server_cert_data : Bytes) : R e { e with server_cert_data }

theorem KeptByPieces.secrets {R : TlsEngine → TlsEngine → Prop} (h : KeptByPieces R) : KeptBySecrets R :=
  ⟨fun e _ => h.transcript e _, h.schedule, h.handshake_secrets, h.app_secrets, h.cert⟩

namespace KeptBySecrets

variable {R : TlsEngine → TlsEngine → Prop} [IsPreorder TlsEngine R]

omit [IsPreorder TlsEngine R] in
theorem update_transcript (h : KeptBySecrets R) (message : Bytes) :
    Method.Keeps R (update_transcript message) := keeps_modify fun e => h.hashed e _

theorem derive_handshake (h : KeptBySecrets R) (peer_public : Bytes) :
    Method.Keeps R (derive_handshake X peer_public) := by
  refine keeps_seq keeps_get fun e => ?_
  refine keeps_seq (keeps_require _ _) fun _ => ?_
  refine keeps_seq (keeps_lift _) fun ks => ?_
  refine keeps_seq (keeps_modify fun e => h.schedule e _) fun _ => ?_
  refine keeps_seq (keeps_lift _) fun secrets => ?_
  exact keeps_modify fun e => h.handshake_secrets e _ _

theorem derive_application (h : KeptBySecrets R) (transcript_hash : Bytes) :
    Method.Keeps R (derive_application X transcript_hash) := by
  refine keeps_seq keeps_get fun e => ?_
  refine keeps_seq (keeps_lift _) fun ks => ?_
  refine keeps_seq (keeps_modify fun e => h.schedule e _) fun _ => ?_
  refine keeps_seq (keeps_lift _) fun secrets => ?_
  exact keeps_modify fun e => h.app_secrets e _ _

theorem build_handshake_flight (h : KeptBySecrets R) (alpn : Bytes) :
    Method.Keeps R (build_handshake_flight X alpn) := by
  refine keeps_seq keeps_get fun e => ?_
  refine keeps_seq (keeps_lift _) fun ee_ext => ?_
  refine keeps_seq (keeps_lift _) fun ee => ?_
  refine keeps_seq (h.update_transcript ee) fun _ => ?_
  refine keeps_seq (keeps_require _ _) fun _ => ?_
  refine keeps_seq (keeps_lift _) fun cert => ?_
  refine keeps_seq (h.update_transcript cert) fun _ => ?_
  refine keeps_seq keeps_get fun e => ?_
  refine keeps_seq (keeps_lift _) fun cv => ?_
  refine keeps_seq (keeps_require _ _) fun _ => ?_
  refine keeps_seq (h.update_transcript cv) fun _ => ?_
  refine keeps_seq keeps_get fun e => ?_
  refine keeps_seq (keeps_lift _) fun server_verify => ?_
  refine keeps_seq (keeps_lift _) fun fin => ?_
  exact keeps_seq (h.update_transcript fin) fun _ => keeps_pure _

end KeptBySecrets

/-! ## Whole messages -/

theorem keeps_emit_keys {R : TlsEngine → TlsEngine → Prop} [IsPreorder TlsEngine R]
    (hready : ∀ e pending_keys, R e { e with pending_keys }) (level : Level)
    (secrets : TlsEngine → Bytes × Bytes) : Method.Keeps R (emit_keys level secrets) := by
  refine keeps_seq keeps_get fun e => ?_
  exact keeps_seq (Method.keeps_okOr _ _) fun _ => keeps_modify fun e => hready e _

theorem keeps_set_pending_write {R : TlsEngine → TlsEngine → Prop} [IsPreorder TlsEngine R]
    (hwrite : ∀ e pending_write, R e { e with pending_write }) (msg : Bytes) :
    Method.Keeps R (set_pending_write msg) := by
  refine keeps_seq (keeps_modify fun e => hwrite e _) fun _ => ?_
  exact keeps_seq (keeps_require _ _) fun _ => keeps_modify fun e => hwrite e _

namespace KeptBySecrets

variable {R : TlsEngine → TlsEngine → Prop} [IsPreorder TlsEngine R]

theorem process_certificate (h : KeptBySecrets R)
    (hmove : ∀ e, R e { e with state := .WaitCertificateVerify }) (msg_body : Bytes) :
    Method.Keeps R (process_certificate msg_body) := by
  refine keeps_seq (keeps_lift _) fun entries => ?_
  refine keeps_seq (keeps_modify fun e => h.cert e _) fun _ => ?_
  split
  · refine keeps_seq (keeps_pure _) fun cert => keeps_modify fun e => ?_
    exact IsTrans.trans _ _ _ (h.cert e (if cert.length ≤ 2048 then cert else []))
      (hmove { e with server_cert_data := if cert.length ≤ 2048 then cert else [] })
  · refine keeps_seq (keeps_lift _) fun cert => keeps_modify fun e => ?_
    exact IsTrans.trans _ _ _ (h.cert e (if cert.length ≤ 2048 then cert else []))
      (hmove { e with server_cert_data := if cert.length ≤ 2048 then cert else [] })

theorem process_certificate_verify (_ : KeptBySecrets R)
    (hmove : ∀ e, R e { e with state := .WaitFinished }) (msg_body transcript_before_cv : Bytes) :
    Method.Keeps R (process_certificate_verify X msg_body transcript_before_cv) := by
  refine keeps_seq (keeps_lift _) fun cv => ?_
  refine keeps_seq keeps_get fun e => ?_
  refine keeps_seq (keeps_require _ _) fun _ => ?_
  exact keeps_seq (keeps_lift _) fun _ => keeps_modify hmove

/-- The server's Finished. The client's own Finished becomes its next flight. -/
theorem process_server_finished (h : KeptBySecrets R)
    (hready : ∀ e pending_keys, R e { e with pending_keys })
    (hflight : ∀ fin, Method.Keeps R (do
      set_pending_write fin
      Method.modify fun e => { e with pending_level := .Handshake, state := .SendFinished }))
    (msg_body transcript_before_finished : Bytes) :
    Method.Keeps R (process_server_finished X msg_body transcript_before_finished) := by
  refine keeps_seq (keeps_lift _) fun verify_data => ?_
  refine keeps_seq keeps_get fun e => ?_
  refine keeps_seq (keeps_lift _) fun expected => ?_
  refine keeps_seq (keeps_require _ _) fun _ => ?_
  refine keeps_seq (h.derive_application _) fun _ => ?_
  refine keeps_seq (keeps_emit_keys hready _ _) fun _ => ?_
  refine keeps_seq (keeps_lift _) fun client_verify => ?_
  refine keeps_seq (keeps_lift _) fun fin => ?_
  exact keeps_seq (h.update_transcript fin) fun _ => hflight fin

theorem process_client_finished (h : KeptBySecrets R)
    (hready : ∀ e pending_keys, R e { e with pending_keys })
    (hmove : ∀ e, R e { e with state := .Complete, complete := true })
    (msg_body transcript_before_finished : Bytes) :
    Method.Keeps R (process_client_finished X msg_body transcript_before_finished) := by
  refine keeps_seq (keeps_lift _) fun verify_data => ?_
  refine keeps_seq keeps_get fun e => ?_
  refine keeps_seq (keeps_lift _) fun expected => ?_
  refine keeps_seq (keeps_require _ _) fun _ => ?_
  refine keeps_seq (h.derive_application _) fun _ => ?_
  exact keeps_seq (keeps_emit_keys hready _ _) fun _ => keeps_modify hmove

theorem build_client_hello (h : KeptBySecrets R)
    (hflight : ∀ msg, Method.Keeps R (do
      set_pending_write msg
      Method.modify fun e => { e with pending_level := .Initial, state := .WaitServerHello })) :
    Method.Keeps R (build_client_hello X) := by
  refine keeps_seq keeps_get fun e => ?_
  refine keeps_seq (keeps_lift _) fun ext => ?_
  refine keeps_seq (keeps_require _ _) fun _ => ?_
  refine keeps_seq (keeps_lift _) fun msg => ?_
  exact keeps_seq (h.update_transcript msg) fun _ => hflight msg

end KeptBySecrets

namespace KeptByPieces

variable {R : TlsEngine → TlsEngine → Prop} [IsPreorder TlsEngine R]

/-- The ServerHello: what comes before the keys, the keys, and the move to the next state. -/
theorem process_server_hello (h : KeptByPieces R)
    (hready : ∀ e pending_keys, R e { e with pending_keys })
    (hmove : ∀ e, R e { e with state := .WaitEncryptedExtensions }) (msg_body : Bytes) :
    Method.Keeps R (process_server_hello X msg_body) := by
  refine keeps_seq (keeps_lift _) fun sh => ?_
  refine keeps_seq (keeps_require _ _) fun _ => ?_
  refine keeps_seq (keeps_modify fun e => h.suite e _) fun _ => ?_
  refine keeps_seq (keeps_lift _) fun ext => ?_
  refine keeps_seq (keeps_require _ _) fun _ => ?_
  refine keeps_seq (Method.keeps_okOr _ _) fun server_public => ?_
  refine keeps_seq (h.secrets.derive_handshake _) fun _ => ?_
  exact keeps_seq (keeps_emit_keys hready _ _) fun _ => keeps_modify hmove

theorem process_encrypted_extensions (h : KeptByPieces R)
    (hmove : ∀ e, R e { e with state := .WaitCertificate }) (msg_body : Bytes) :
    Method.Keeps R (process_encrypted_extensions msg_body) := by
  refine keeps_seq (keeps_lift _) fun ext_data => ?_
  refine keeps_seq (keeps_lift _) fun parsed => ?_
  refine keeps_seq (keeps_modify fun e => h.learnt e _ _ _) fun _ => ?_
  refine keeps_seq keeps_get fun e => ?_
  refine keeps_seq (keeps_require _ _) fun _ => keeps_modify fun e => ?_
  exact IsTrans.trans _ _ _ (h.learnt e e.negotiated_alpn e.peer_transport_params
    parsed.record_size_limit) (hmove { e with peer_record_size_limit := parsed.record_size_limit })

/-- The ClientHello. The server's two flights are built with it. -/
theorem process_client_hello (h : KeptByPieces R)
    (hready : ∀ e pending_keys, R e { e with pending_keys })
    (hflights : ∀ sh flight, Method.Keeps R (do
      set_pending_write sh
      Method.modify fun e =>
        { e with
          pending_level := .Initial
          pending_write_hs := flight
          state := .SendServerFlightInitial }))
    (msg_body : Bytes) : Method.Keeps R (process_client_hello X msg_body) := by
  refine keeps_seq (keeps_lift _) fun ch => ?_
  refine keeps_seq (keeps_lift _) fun ext => ?_
  refine keeps_seq (keeps_require _ _) fun _ => ?_
  refine keeps_seq (Method.keeps_okOr _ _) fun client_public => ?_
  refine keeps_seq (Method.keeps_okOr _ _) fun selected_suite => ?_
  refine keeps_seq (keeps_modify fun e => h.suite e _) fun _ => ?_
  refine keeps_seq keeps_get fun e => ?_
  refine keeps_seq (keeps_require _ _) fun _ => ?_
  refine keeps_seq (keeps_modify fun e => h.learnt e _ _ _) fun _ => ?_
  refine keeps_seq (keeps_lift _) fun sh_ext => ?_
  refine keeps_seq (keeps_lift _) fun sh => ?_
  refine keeps_seq (h.secrets.update_transcript sh) fun _ => ?_
  refine keeps_seq (h.secrets.derive_handshake _) fun _ => ?_
  refine keeps_seq (keeps_emit_keys hready _ _) fun _ => ?_
  exact keeps_seq (h.secrets.build_handshake_flight _) fun flight => hflights sh flight

end KeptByPieces

/-! ## Reading -/

theorem keeps_read_messages {R : TlsEngine → TlsEngine → Prop} [IsPreorder TlsEngine R]
    {message : HandshakeType → Bytes → Bytes → Method TlsEngine Error Unit}
    (h : ∀ ty full_msg, Method.Keeps R (message ty full_msg (full_msg.drop 4))) (fuel : Nat)
    (data : Bytes) : Method.Keeps R (read_messages message fuel data) := by
  induction fuel generalizing data with
  | zero => exact keeps_pure _
  | succ fuel ih =>
    unfold read_messages
    split
    · exact keeps_pure _
    · refine keeps_seq (keeps_require _ _) fun _ => ?_
      refine keeps_seq (keeps_require _ _) fun _ => ?_
      refine keeps_seq (Method.keeps_okOr _ _) fun msg_type => ?_
      exact keeps_seq (h _ _) fun _ => ih _

theorem keeps_read_handshake {R : TlsEngine → TlsEngine → Prop} [IsPreorder TlsEngine R]
    (hclient : ∀ ty full_msg, Method.Keeps R (client_message X ty full_msg (full_msg.drop 4)))
    (hserver : ∀ ty full_msg, Method.Keeps R (server_message X ty full_msg (full_msg.drop 4)))
    (level : Level) (data : Bytes) : Method.Keeps R (read_handshake X level data) := by
  refine keeps_seq keeps_get fun e => ?_
  refine keeps_seq (Method.keeps_okOr _ _) fun expected => ?_
  refine keeps_seq (keeps_require _ _) fun _ => ?_
  cases e.role with
  | Client => exact keeps_read_messages hclient _ _
  | Server => exact keeps_read_messages hserver _ _

/-! ## Writing -/

/-- What building the ClientHello and taking each of the flights keep, `write_handshake` keeps. -/
theorem preserves_write_handshake {P : TlsEngine → Prop}
    (hbuild : ∀ e, e.state = .Start → P e → P (build_client_hello X e).2)
    (hsent : ∀ e, e.state ≠ .SendFinished → P e → P { e with pending_write := [] })
    (hfinished : ∀ e, e.state = .SendFinished → P e →
      P { e with pending_write := [], state := .Complete, complete := true })
    (hinitial : ∀ e, e.state = .SendServerFlightInitial → P e →
      P { e with pending_write := [], state := .SendServerFlightHandshake })
    (hhandshake : ∀ e, e.state = .SendServerFlightHandshake → P e →
      P { e with pending_write_hs := [], state := .WaitClientFinished }) (cap : Nat) :
    Method.Keeps (Method.Preserves P) (write_handshake X cap) := by
  intro e h
  have htake : ∀ {e : TlsEngine}, P e → P (take_flight cap e).2 := by
    intro e h
    rw [take_flight, get_bind_run]
    split
    · exact h
    · rw [Method.require_bind_run]
      split
      · rw [Method.bind_run, Method.modify_run]
        dsimp only [Method.pure_run]
        split
        · exact hfinished e ‹_› h
        · exact hsent e ‹_› h
      · exact h
  unfold write_handshake
  rw [get_bind_run]
  cases e.role with
  | Client =>
    simp only [write_client]
    rw [get_bind_run]
    split
    · rw [Method.bind_run]
      have hbuilt := hbuild e ‹_› h
      rcases hrun : build_client_hello X e with ⟨err | _, e'⟩
      · rw [hrun] at hbuilt
        exact hbuilt
      · rw [hrun] at hbuilt
        exact htake hbuilt
    · exact htake h
  | Server =>
    simp only [write_server]
    rw [get_bind_run]
    split
    · split
      · exact h
      · rw [Method.require_bind_run]
        split
        · exact hinitial e ‹_› h
        · exact h
    · split
      · split
        · exact h
        · rw [Method.require_bind_run]
          split
          · exact hhandshake e ‹_› h
          · exact h
      · exact h

end milli_http.tls.TlsEngine
