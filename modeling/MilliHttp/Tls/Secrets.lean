-- Which secrets an engine hands out. The keys it has ready for the Handshake level come from a
-- handshake traffic secret, and those for the Application level from an application traffic
-- secret.
import MilliHttp.Tls.Updates

open bytes method
open method.Method (bind_eq_ok kept_bind keeps_seq keeps_lift keeps_require keeps_modify keeps_get)

namespace milli_http.tls

open crypto

variable {X : Primitives} {transcript_hash : Bytes} {secrets : TlsEngine → Bytes × Bytes}

/-! ## Traffic secrets -/

/-- A handshake traffic secret of either side. -/
def HandshakeSecret (X : Primitives) (secret : Bytes) : Prop :=
  ∃ prk transcript_hash label, (label = ascii "c hs traffic" ∨ label = ascii "s hs traffic") ∧
    hkdf_expand_label X.C.hkdf prk label transcript_hash 32 = .ok secret

/-- An application traffic secret of either side, of any generation. -/
inductive ApplicationSecret (X : Primitives) : Bytes → Prop
  | first {prk transcript_hash label secret : Bytes}
      (hlabel : label = ascii "c ap traffic" ∨ label = ascii "s ap traffic")
      (h : hkdf_expand_label X.C.hkdf prk label transcript_hash 32 = .ok secret) :
      ApplicationSecret X secret
  | next {secret secret' : Bytes} (h : ApplicationSecret X secret)
      (hnext : derive_next_application_secret X.C.hkdf secret = .ok secret') :
      ApplicationSecret X secret'

/-- An AEAD key of a traffic secret. -/
def TrafficKey (X : Primitives) (secret : Bytes) (aead : X.C.Aead) : Prop :=
  ∃ len key, hkdf_expand_label X.C.hkdf secret (ascii "quic key") [] len = .ok key ∧
    X.C.aead key = .ok aead

theorem trafficKey_of_derived {secret : Bytes} {suite : CipherSuite} {keys : DirectionalKeys X.C}
    (h : derive_directional_keys_for X.C secret suite = .ok keys) : TrafficKey X secret keys.aead := by
  unfold derive_directional_keys_for at h
  obtain ⟨key, hkey, h⟩ := except_bind_eq_ok h
  obtain ⟨iv, -, h⟩ := except_bind_eq_ok h
  obtain ⟨hp_key, -, h⟩ := except_bind_eq_ok h
  obtain ⟨aead, haead, h⟩ := except_bind_eq_ok h
  obtain ⟨header_protection, -, h⟩ := except_bind_eq_ok h
  cases h
  exact ⟨_, key, hkey, haead⟩

theorem handshakeSecret_of_derived {ks : TlsKeySchedule} {secrets : Bytes × Bytes}
    (h : ks.derive_handshake_traffic_secrets X.C.hkdf transcript_hash = .ok secrets) :
    HandshakeSecret X secrets.1 ∧ HandshakeSecret X secrets.2 := by
  unfold TlsKeySchedule.derive_handshake_traffic_secrets at h
  obtain ⟨client, hclient, h⟩ := except_bind_eq_ok h
  obtain ⟨server, hserver, h⟩ := except_bind_eq_ok h
  cases h
  exact ⟨⟨_, _, _, .inl rfl, hclient⟩, ⟨_, _, _, .inr rfl, hserver⟩⟩

theorem applicationSecret_of_derived {ks : TlsKeySchedule} {secrets : Bytes × Bytes}
    (h : ks.derive_app_traffic_secrets X.C.hkdf transcript_hash = .ok secrets) :
    ApplicationSecret X secrets.1 ∧ ApplicationSecret X secrets.2 := by
  unfold TlsKeySchedule.derive_app_traffic_secrets at h
  obtain ⟨client, hclient, h⟩ := except_bind_eq_ok h
  obtain ⟨server, hserver, h⟩ := except_bind_eq_ok h
  cases h
  exact ⟨.first (.inl rfl) hclient, .first (.inr rfl) hserver⟩

namespace TlsEngine

/-! ## Keys that are ready -/

/-- The send secret of a level's keys is one of that level. -/
def SecretOf (X : Primitives) (keys : DerivedKeys) : Prop :=
  match keys.level with
  | .Initial => True
  | .Handshake => HandshakeSecret X keys.send_secret
  | .Application => ApplicationSecret X keys.send_secret

/-- The keys that are ready have a secret of their level. -/
def Labelled (X : Primitives) (e : TlsEngine) : Prop := ∀ keys ∈ e.pending_keys, SecretOf X keys

/-- What every step of an engine keeps. -/
abbrev Labels (X : Primitives) : TlsEngine → TlsEngine → Prop := Method.Preserves (Labelled X)

/-- No piece of a message but handing out keys touches those that are ready. -/
theorem labels_pieces : KeptByPieces (Labels X) where
  transcript _ _ := id
  suite _ _ := id
  schedule _ _ := id
  handshake_secrets _ _ _ := id
  app_secrets _ _ _ := id
  learnt _ _ _ _ := id
  cert _ _ := id

theorem labels_update_transcript (message : Bytes) :
    Method.Keeps (Labels X) (update_transcript message) :=
  labels_pieces.secrets.update_transcript message

theorem labels_set_pending_write (msg : Bytes) : Method.Keeps (Labels X) (set_pending_write msg) :=
  keeps_set_pending_write (fun _ _ => id) msg

theorem derive_handshake_secrets {peer_public : Bytes} {e e' : TlsEngine} {u : Unit}
    (h : derive_handshake X peer_public e = (.ok u, e')) :
    HandshakeSecret X e'.client_handshake_secret ∧ HandshakeSecret X e'.server_handshake_secret := by
  unfold derive_handshake at h
  obtain ⟨_, _, hget, h⟩ := bind_eq_ok h
  obtain ⟨_, _, -, h⟩ := bind_eq_ok h
  obtain ⟨ks, _, -, h⟩ := bind_eq_ok h
  obtain ⟨_, _, -, h⟩ := bind_eq_ok h
  obtain ⟨secrets, e₁, hsecrets, h⟩ := bind_eq_ok h
  cases h
  exact handshakeSecret_of_derived (Prod.mk.inj hsecrets).1

theorem derive_application_secrets {e e' : TlsEngine} {u : Unit}
    (h : derive_application X transcript_hash e = (.ok u, e')) :
    ApplicationSecret X e'.client_app_secret ∧ ApplicationSecret X e'.server_app_secret := by
  unfold derive_application at h
  obtain ⟨_, _, -, h⟩ := bind_eq_ok h
  obtain ⟨ks, _, -, h⟩ := bind_eq_ok h
  obtain ⟨_, _, -, h⟩ := bind_eq_ok h
  obtain ⟨secrets, e₁, hsecrets, h⟩ := bind_eq_ok h
  cases h
  exact applicationSecret_of_derived (Prod.mk.inj hsecrets).1

theorem labels_emit_keys {level : Level} {e : TlsEngine}
    (h : ∀ cipher_suite recv_secret,
      SecretOf X { level, cipher_suite, send_secret := (secrets e).1, recv_secret }) :
    Labels X e (emit_keys level secrets e).2 := by
  unfold emit_keys
  rw [Method.get_bind_run]
  rw [Method.bind_run]
  cases e.cipher_suite with
  | none => exact id
  | some suite =>
    intro _ keys hkeys
    cases hkeys
    exact h suite _

/-- Deriving secrets and handing out keys of them. -/
theorem labels_keys {level : Level} {derive rest : Method TlsEngine Error Unit}
    (hderive : Method.Keeps (Labels X) derive)
    (hsecret : ∀ {e e'}, derive e = (.ok (), e') → ∀ cipher_suite recv_secret,
      SecretOf X { level, cipher_suite, send_secret := (secrets e').1, recv_secret })
    (hrest : Method.Keeps (Labels X) rest) :
    Method.Keeps (Labels X) (derive >>= fun _ => emit_keys level secrets >>= fun _ => rest) := by
  intro e
  refine kept_bind (hderive e) fun _ e₁ hderived => ?_
  exact kept_bind (labels_emit_keys (hsecret hderived)) fun _ e₂ _ => hrest e₂

/-! ## Messages -/

theorem labels_process_server_hello (msg_body : Bytes) :
    Method.Keeps (Labels X) (process_server_hello X msg_body) := by
  refine keeps_seq (keeps_lift _) fun sh => ?_
  refine keeps_seq (keeps_require _ _) fun _ => ?_
  refine keeps_seq (keeps_modify fun _ => id) fun _ => ?_
  refine keeps_seq (keeps_lift _) fun ext => ?_
  refine keeps_seq (keeps_require _ _) fun _ => ?_
  refine keeps_seq (Method.keeps_okOr _ _) fun server_public => ?_
  exact labels_keys (labels_pieces.secrets.derive_handshake server_public)
    (fun h _ _ => (derive_handshake_secrets h).1) (keeps_modify fun _ => id)

theorem labels_process_server_finished (msg_body transcript_before_finished : Bytes) :
    Method.Keeps (Labels X) (process_server_finished X msg_body transcript_before_finished) := by
  refine keeps_seq (keeps_lift _) fun verify_data => ?_
  refine keeps_seq keeps_get fun e => ?_
  refine keeps_seq (keeps_lift _) fun expected => ?_
  refine keeps_seq (keeps_require _ _) fun _ => ?_
  refine labels_keys (labels_pieces.secrets.derive_application _)
    (fun h _ _ => (derive_application_secrets h).1) ?_
  refine keeps_seq (keeps_lift _) fun client_verify => ?_
  refine keeps_seq (keeps_lift _) fun fin => ?_
  refine keeps_seq (labels_update_transcript fin) fun _ => ?_
  exact keeps_seq (labels_set_pending_write fin) fun _ => keeps_modify fun _ => id

theorem labels_process_client_hello (msg_body : Bytes) :
    Method.Keeps (Labels X) (process_client_hello X msg_body) := by
  refine keeps_seq (keeps_lift _) fun ch => ?_
  refine keeps_seq (keeps_lift _) fun ext => ?_
  refine keeps_seq (keeps_require _ _) fun _ => ?_
  refine keeps_seq (Method.keeps_okOr _ _) fun client_public => ?_
  refine keeps_seq (Method.keeps_okOr _ _) fun selected_suite => ?_
  refine keeps_seq (keeps_modify fun _ => id) fun _ => ?_
  refine keeps_seq keeps_get fun e => ?_
  refine keeps_seq (keeps_require _ _) fun _ => ?_
  refine keeps_seq (keeps_modify fun _ => id) fun _ => ?_
  refine keeps_seq (keeps_lift _) fun sh_ext => ?_
  refine keeps_seq (keeps_lift _) fun sh => ?_
  refine keeps_seq (labels_update_transcript sh) fun _ => ?_
  refine labels_keys (labels_pieces.secrets.derive_handshake client_public)
    (fun h _ _ => (derive_handshake_secrets h).2) ?_
  refine keeps_seq (labels_pieces.secrets.build_handshake_flight _) fun flight => ?_
  exact keeps_seq (labels_set_pending_write sh) fun _ => keeps_modify fun _ => id

theorem labels_process_client_finished (msg_body transcript_before_finished : Bytes) :
    Method.Keeps (Labels X) (process_client_finished X msg_body transcript_before_finished) := by
  refine keeps_seq (keeps_lift _) fun verify_data => ?_
  refine keeps_seq keeps_get fun e => ?_
  refine keeps_seq (keeps_lift _) fun expected => ?_
  refine keeps_seq (keeps_require _ _) fun _ => ?_
  exact labels_keys (labels_pieces.secrets.derive_application _)
    (fun h _ _ => (derive_application_secrets h).2) (keeps_modify fun _ => id)

/-! ## Reading and writing -/

theorem labels_client_message (msg_type : HandshakeType) (full_msg msg_body : Bytes) :
    Method.Keeps (Labels X) (client_message X msg_type full_msg msg_body) := by
  refine keeps_seq keeps_get fun e => ?_
  split
  · exact keeps_seq (labels_update_transcript _) fun _ => labels_process_server_hello _
  · exact keeps_seq (labels_update_transcript _) fun _ =>
      labels_pieces.process_encrypted_extensions (fun _ => id) _
  · exact keeps_seq (labels_update_transcript _) fun _ =>
      labels_pieces.secrets.process_certificate (fun _ => id) _
  · exact keeps_seq (labels_update_transcript _) fun _ =>
      labels_pieces.secrets.process_certificate_verify (fun _ => id) _ _
  · exact keeps_seq (labels_update_transcript _) fun _ => labels_process_server_finished _ _
  · exact Method.keeps_fail _

theorem labels_server_message (msg_type : HandshakeType) (full_msg msg_body : Bytes) :
    Method.Keeps (Labels X) (server_message X msg_type full_msg msg_body) := by
  refine keeps_seq keeps_get fun e => ?_
  split
  · exact keeps_seq (labels_update_transcript _) fun _ => labels_process_client_hello _
  · exact keeps_seq (labels_update_transcript _) fun _ => labels_process_client_finished _ _
  · exact Method.keeps_fail _

theorem labels_read_handshake (level : Level) (data : Bytes) :
    Method.Keeps (Labels X) (read_handshake X level data) :=
  keeps_read_handshake (fun ty full_msg => labels_client_message ty full_msg _)
    (fun ty full_msg => labels_server_message ty full_msg _) level data

theorem labels_build_client_hello : Method.Keeps (Labels X) (build_client_hello X) :=
  labels_pieces.secrets.build_client_hello fun msg =>
    keeps_seq (labels_set_pending_write msg) fun _ => keeps_modify fun _ => id

theorem labels_write_handshake (cap : Nat) : Method.Keeps (Labels X) (write_handshake X cap) :=
  preserves_write_handshake (fun e _ => labels_build_client_hello e) (fun _ _ => id)
    (fun _ _ => id) (fun _ _ => id) (fun _ _ => id) cap

end TlsEngine

end milli_http.tls
