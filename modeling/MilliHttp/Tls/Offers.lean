-- What a handshake agrees on was offered. Each value comes from a message of its own, and the
-- engine checks some of them against the offer and stores the others as they come.
import MilliHttp.Lib.Run
import MilliHttp.Tls.Flights
import MilliHttp.Tls.Hashed
import MilliHttp.Standin

open bytes method
open method.Method (keeps_seq keeps_modify bind_run lift_run require_bind_run modify_bind_run
  keeps_lift get_bind_run)

namespace milli_http.tls.offers

open crypto TlsEngine run

variable {X : Primitives} {next : HandshakeState} {e : TlsEngine} {timely carried : Prop}

/-! ## Calls -/

/-- A call of a TLS engine. -/
inductive Op where
  | read_handshake (level : Level) (data : Bytes)
  | write_handshake (cap : Nat)
  | derived_keys
  | set_local_record_size_limit (limit : Nat)
  | set_transport_param_cids (original_dcid initial_scid : Bytes)
  | shrink_post_handshake

def apply (X : Primitives) : Op → TlsEngine → TlsEngine
  | .read_handshake level data, e => (e.read_handshake X level data).2
  | .write_handshake cap, e => (e.write_handshake X cap).2
  | .derived_keys, e => e.derived_keys.2
  | .set_local_record_size_limit limit, e => e.set_local_record_size_limit limit
  | .set_transport_param_cids original_dcid initial_scid, e =>
    e.set_transport_param_cids original_dcid initial_scid
  | .shrink_post_handshake, e => e.shrink_post_handshake

/-- An engine as one of its constructors makes it. -/
inductive Fresh (X : Primitives) : TlsEngine → Prop
  | client (config : TlsConfig) (secret_bytes random : Bytes) :
      Fresh X (new_client X config secret_bytes random)
  | tcp_client (config : TlsConfig) (secret_bytes random : Bytes) :
      Fresh X (new_tcp_client X config secret_bytes random)
  | server (config : ServerTlsConfig) (secret_bytes random : Bytes) :
      Fresh X (new_server X config secret_bytes random)
  | tcp_server (config : ServerTlsConfig) (secret_bytes random : Bytes) :
      Fresh X (new_tcp_server X config secret_bytes random)

/-! ## Offers -/

/-- A ClientHello in a transcript that offers the protocols, the suites of the provider and a record
size limit, if there is one. -/
def Offers (X : Primitives) (transcript : Bytes) (protocols : List Bytes) (limit : Option Nat) : Prop :=
  ∃ before msg after server_name public_key tp ext random session_id,
    transcript = before ++ msg ++ after ∧
    encode_client_hello_extensions server_name public_key protocols tp limit 1024 = .ok ext ∧
    encode_client_hello random session_id X.C.cipher_suites ext 2048 = .ok msg

/-- A ClientHello in a transcript that names a protocol. -/
def Asks (transcript name : Bytes) : Prop :=
  ∃ before msg after ch ext, transcript = before ++ msg ++ after ∧
    parse_client_hello (msg.drop 4) = .ok ch ∧ parse_client_hello_extensions ch.extensions = .ok ext ∧
    name ∈ ext.alpn_protocols

/-- The ServerHello or the ClientHello is still to come. -/
def Early (state : HandshakeState) : Prop :=
  state = .Start ∨ state = .WaitServerHello ∨ state = .WaitClientHello

/-- The message with the peer's transport parameters has been processed. -/
def Informed (state : HandshakeState) : Prop := ¬ Early state ∧ state ≠ .WaitEncryptedExtensions

/-- What a side has agreed on was offered. -/
structure Negotiated (X : Primitives) (e : TlsEngine) : Prop where
  client : e.role = .Client → e.state ≠ .Start → ∃ limit,
    Offers X e.transcript e.alpn_protocols limit ∧ (∀ name ∈ e.negotiated_alpn, name ∈ e.alpn_protocols) ∧
      (∀ suite ∈ e.cipher_suite, suite ∈ X.C.cipher_suites) ∧
      (e.peer_record_size_limit.isSome → limit.isSome)
  server : e.role = .Server → ∀ name ∈ e.negotiated_alpn,
    name ∈ e.alpn_protocols ∧ Asks e.transcript name
  suite : ¬ Early e.state → e.cipher_suite.isSome
  params : Informed e.state → e.quic_mode → e.peer_transport_params.isSome

/-- What a side has agreed on of what it checks itself: the suite, a server's protocol, and that a
client's peer gives a limit only where the client has one. -/
structure Checked (X : Primitives) (e : TlsEngine) : Prop where
  client : e.role = .Client → e.state ≠ .Start → ∃ limit,
    Offers X e.transcript e.alpn_protocols limit ∧ ∀ suite ∈ e.cipher_suite, suite ∈ X.C.cipher_suites
  limit : e.role = .Client → e.peer_record_size_limit.isSome → e.local_record_size_limit.isSome
  server : e.role = .Server → ∀ name ∈ e.negotiated_alpn,
    name ∈ e.alpn_protocols ∧ Asks e.transcript name
  suite : ¬ Early e.state → e.cipher_suite.isSome

/-- A client's peer gives a limit only where the client has offered one. -/
def LimitOffered (X : Primitives) (e : TlsEngine) : Prop :=
  e.role = .Client → e.state ≠ .Start → ∃ limit,
    Offers X e.transcript e.alpn_protocols limit ∧ (e.peer_record_size_limit.isSome → limit.isSome)

/-! ## What the messages must carry -/

/-- A server names no protocol or a configured one, and over QUIC it gives transport parameters. -/
def ServerGives (protocols : List Bytes) (quic_mode : Bool) (parsed : EncryptedExtensionsData) : Prop :=
  (∀ name ∈ parsed.alpn, name ∈ protocols) ∧
    (quic_mode = true → parsed.transport_params.isSome = true)

/-- A client that passes the checks in front of storing them gives transport parameters over QUIC. -/
def ClientGives (X : Primitives) (protocols : List Bytes) (quic_mode : Bool) (ch : ClientHello)
    (ext : ClientHelloExtensions) : Prop :=
  ext.supports_tls13 = true ∧ ext.key_share.isSome = true ∧
    (select_suite X ch.cipher_suites).isSome = true ∧
    ((∃ name ∈ ext.alpn_protocols, name ∈ protocols) ∨ protocols = [] ∨ ext.alpn_protocols = []) ∧
    quic_mode = true → ext.transport_params.isSome = true

/-- What a message of the peer must carry. -/
def Carries (X : Primitives) (protocols : List Bytes) (quic_mode : Bool) :
    HandshakeType → Bytes → Prop
  | .EncryptedExtensions, body => ∀ ext, parse_encrypted_extensions body = .ok ext →
      ∀ parsed, parse_encrypted_extensions_data ext = .ok parsed → ServerGives protocols quic_mode parsed
  | .ClientHello, body => ∀ ch, parse_client_hello body = .ok ch →
      ∀ ext, parse_client_hello_extensions ch.extensions = .ok ext → ClientGives X protocols quic_mode ch ext
  | _, _ => True

/-- What is asked of a call: that the messages it comes to carry what they must, and that a client's
limit is set before it offers it. -/
def Obliges (X : Primitives) (e : TlsEngine) : Op → Prop
  | .read_handshake level data => ∀ h ∈ e.hashed X level data,
      Carries X e.alpn_protocols e.quic_mode h.msg_type (h.message.drop 4)
  | .set_local_record_size_limit _ =>
      e.role = .Client → e.state = .Start ∨ e.local_record_size_limit.isSome
  | _ => True

/-- A client's limit is set before it offers it. -/
def Timely (e : TlsEngine) : Op → Prop
  | .set_local_record_size_limit _ =>
      e.role = .Client → e.state = .Start ∨ e.local_record_size_limit.isSome
  | _ => True

theorem Obliges.in_time {op : Op} (h : Obliges X e op) : Timely e op := by
  cases op <;> first | exact h | trivial

/-! ## What most of a message leaves alone -/

/-- The configuration of an engine. -/
def config (e : TlsEngine) : Role × List Bytes × Bool := (e.role, e.alpn_protocols, e.quic_mode)

/-- Nothing is negotiated, the transcript grows, and the state is the old one or `next`. -/
structure Quiet (next : HandshakeState) (e e' : TlsEngine) : Prop where
  config : config e' = config e
  limit : e'.local_record_size_limit = e.local_record_size_limit
  suite : e'.cipher_suite = e.cipher_suite
  alpn : e'.negotiated_alpn = e.negotiated_alpn
  params : e'.peer_transport_params = e.peer_transport_params
  peer_limit : e'.peer_record_size_limit = e.peer_record_size_limit
  transcript : e.transcript <+: e'.transcript
  state : e'.state = e.state ∨ e'.state = next

theorem Quiet.of_eq {e e' : TlsEngine} (hconfig : offers.config e' = offers.config e)
    (hlimit : e'.local_record_size_limit = e.local_record_size_limit)
    (hsuite : e'.cipher_suite = e.cipher_suite) (halpn : e'.negotiated_alpn = e.negotiated_alpn)
    (hparams : e'.peer_transport_params = e.peer_transport_params)
    (hpeer : e'.peer_record_size_limit = e.peer_record_size_limit)
    (htranscript : e'.transcript = e.transcript) (hstate : e'.state = e.state ∨ e'.state = next) :
    Quiet next e e' :=
  ⟨hconfig, hlimit, hsuite, halpn, hparams, hpeer, htranscript ▸ List.prefix_refl _, hstate⟩

instance (next : HandshakeState) : IsPreorder TlsEngine (Quiet next) where
  refl e := .of_eq rfl rfl rfl rfl rfl rfl rfl (.inl rfl)
  trans _ _ _ h₁ h₂ := by
    refine ⟨h₂.config.trans h₁.config, h₂.limit.trans h₁.limit, h₂.suite.trans h₁.suite,
      h₂.alpn.trans h₁.alpn, h₂.params.trans h₁.params, h₂.peer_limit.trans h₁.peer_limit,
      h₁.transcript.trans h₂.transcript, ?_⟩
    rcases h₂.state with h | h
    · rw [h]
      exact h₁.state
    · exact .inr h

theorem quiet_secrets (next : HandshakeState) : KeptBySecrets (Quiet next) :=
  ⟨fun _ _ => ⟨rfl, rfl, rfl, rfl, rfl, rfl, List.prefix_append _ _, .inl rfl⟩,
    fun _ _ => .of_eq rfl rfl rfl rfl rfl rfl rfl (.inl rfl),
    fun _ _ _ => .of_eq rfl rfl rfl rfl rfl rfl rfl (.inl rfl),
    fun _ _ _ => .of_eq rfl rfl rfl rfl rfl rfl rfl (.inl rfl),
    fun _ _ => .of_eq rfl rfl rfl rfl rfl rfl rfl (.inl rfl)⟩

theorem quiet_ready (next : HandshakeState) (e : TlsEngine) (pending_keys : Option DerivedKeys) :
    Quiet next e { e with pending_keys } := .of_eq rfl rfl rfl rfl rfl rfl rfl (.inl rfl)

/-- A flight that is laid out, and the move to the state behind it. -/
theorem quiet_flight (msg : Bytes) {move : TlsEngine → TlsEngine}
    (h : ∀ e, Quiet next e (move e)) : Method.Keeps (Quiet next) (do
      set_pending_write msg
      Method.modify move) :=
  keeps_seq (keeps_set_pending_write (fun _ _ => .of_eq rfl rfl rfl rfl rfl rfl rfl (.inl rfl)) msg)
    fun _ => keeps_modify h

/-! ## What a message can do -/

/-- A ServerHello fixes one of the suites of the provider, or does nothing. -/
theorem process_server_hello_does (msg_body : Bytes) (e : TlsEngine) :
    (process_server_hello X msg_body e).2 = e ∨ ∃ suite ∈ X.C.cipher_suites,
      Quiet .WaitEncryptedExtensions { e with cipher_suite := some suite }
        (process_server_hello X msg_body e).2 := by
  unfold process_server_hello
  rw [bind_run, lift_run]
  rcases parse_server_hello msg_body with err | sh
  · exact .inl rfl
  · dsimp only
    rw [require_bind_run]
    split
    · rename_i hsuite
      refine .inr ⟨sh.cipher_suite, hsuite, ?_⟩
      rw [modify_bind_run]
      have hq := quiet_secrets .WaitEncryptedExtensions
      refine keeps_seq (R := Quiet .WaitEncryptedExtensions) (keeps_lift _) (fun ext => ?_) _
      refine keeps_seq (Method.keeps_require _ _) fun _ => ?_
      refine keeps_seq (Method.keeps_okOr _ _) fun server_public => ?_
      refine keeps_seq (hq.derive_handshake _) fun _ => ?_
      refine keeps_seq (keeps_emit_keys (quiet_ready _) _ _) fun _ => ?_
      exact keeps_modify fun e => .of_eq rfl rfl rfl rfl rfl rfl rfl (.inr rfl)
    · exact .inl rfl

/-- EncryptedExtensions are stored as they come, but an unsolicited record size limit is refused. -/
theorem process_encrypted_extensions_does (msg_body : Bytes) (e : TlsEngine) :
    (process_encrypted_extensions msg_body e).2 = e ∨ ∃ ext parsed,
      parse_encrypted_extensions msg_body = .ok ext ∧ parse_encrypted_extensions_data ext = .ok parsed ∧
      ((process_encrypted_extensions msg_body e).2 =
          { e with negotiated_alpn := parsed.alpn, peer_transport_params := parsed.transport_params } ∨
        (parsed.record_size_limit.isSome → e.local_record_size_limit.isSome) ∧
        (process_encrypted_extensions msg_body e).2 =
          { e with
            negotiated_alpn := parsed.alpn
            peer_transport_params := parsed.transport_params
            peer_record_size_limit := parsed.record_size_limit
            state := .WaitCertificate }) := by
  unfold process_encrypted_extensions
  rw [bind_run, lift_run]
  rcases hext : parse_encrypted_extensions msg_body with err | ext
  · exact .inl rfl
  · dsimp only
    rw [bind_run, lift_run]
    rcases hparsed : parse_encrypted_extensions_data ext with err | parsed
    · exact .inl rfl
    · refine .inr ⟨ext, parsed, rfl, hparsed, ?_⟩
      dsimp only
      rw [modify_bind_run]
      rw [get_bind_run]
      rw [require_bind_run]
      split
      · rename_i hlimit
        refine .inr ⟨fun hsome => ?_, rfl⟩
        by_contra hnone
        exact hlimit ⟨hsome, by simpa using hnone⟩
      · exact .inl rfl

/-- A ClientHello fixes a suite of the provider and a protocol both sides have, and its transport
parameters and record size limit are stored as they come. -/
theorem process_client_hello_does (msg_body : Bytes) (e : TlsEngine) :
    (process_client_hello X msg_body e).2 = e ∨ ∃ ch ext suite,
      parse_client_hello msg_body = .ok ch ∧ parse_client_hello_extensions ch.extensions = .ok ext ∧
      ext.supports_tls13 = true ∧ ext.key_share.isSome ∧
      select_suite X ch.cipher_suites = some suite ∧
      ((process_client_hello X msg_body e).2 = { e with cipher_suite := some suite } ∨
        ((∃ name ∈ ext.alpn_protocols, name ∈ e.alpn_protocols) ∨ e.alpn_protocols = [] ∨
          ext.alpn_protocols = []) ∧
        Quiet .SendServerFlightInitial
          { e with
            cipher_suite := some suite
            peer_transport_params := ext.transport_params
            peer_record_size_limit := ext.record_size_limit
            negotiated_alpn := e.select_alpn ext.alpn_protocols }
          (process_client_hello X msg_body e).2) := by
  unfold process_client_hello
  rw [bind_run, lift_run]
  rcases hch : parse_client_hello msg_body with err | ch
  · exact .inl rfl
  dsimp only
  rw [bind_run, lift_run]
  rcases hext : parse_client_hello_extensions ch.extensions with err | ext
  · exact .inl rfl
  dsimp only
  rw [require_bind_run]
  by_cases htls : ext.supports_tls13 = true
  swap
  · rw [if_neg htls]
    exact .inl rfl
  rw [if_pos htls, bind_run]
  rcases hkey : ext.key_share with _ | client_public
  · exact .inl rfl
  rw [Method.okOr_some_run]
  dsimp only
  rw [bind_run]
  rcases hsuite : select_suite X ch.cipher_suites with _ | suite
  · exact .inl rfl
  rw [Method.okOr_some_run]
  dsimp only
  rw [modify_bind_run]
  rw [get_bind_run]
  refine .inr ⟨ch, ext, suite, rfl, hext, htls, by rw [hkey]; rfl, hsuite, ?_⟩
  rw [require_bind_run]
  split
  · rename_i hagree
    refine .inr ⟨?_, ?_⟩
    · by_cases hnone : ext.alpn_protocols = []
      · exact .inr (.inr hnone)
      · by_cases hours : e.alpn_protocols = []
        · exact .inr (.inl hours)
        · refine .inl ?_
          rcases hfound : ext.alpn_protocols.find? (fun proto => e.alpn_protocols.contains proto) with _ | name
          · exact absurd ⟨by rw [select_alpn, hfound]; rfl, hours, hnone⟩ hagree
          · exact ⟨name, List.mem_of_find?_eq_some hfound,
              by simpa using List.find?_some hfound⟩
    · rw [modify_bind_run]
      have hq := quiet_secrets .SendServerFlightInitial
      refine keeps_seq (R := Quiet .SendServerFlightInitial) (keeps_lift _) (fun sh_ext => ?_) _
      refine keeps_seq (keeps_lift _) fun sh => ?_
      refine keeps_seq (hq.update_transcript sh) fun _ => ?_
      refine keeps_seq (hq.derive_handshake _) fun _ => ?_
      refine keeps_seq (keeps_emit_keys (quiet_ready _) _ _) fun _ => ?_
      refine keeps_seq (hq.build_handshake_flight _) fun flight => ?_
      exact quiet_flight sh fun e => .of_eq rfl rfl rfl rfl rfl rfl rfl (.inr rfl)
  · exact .inl rfl

/-! ## What holds of every engine -/

/-- The invariant of an engine, where its limit was set in time and its messages carried what they
must. -/
structure Honest (X : Primitives) (timely carried : Prop) (e : TlsEngine) : Prop where
  suites : ∀ suite ∈ e.cipher_suite, suite ∈ X.C.cipher_suites
  chosen : ¬ Early e.state → e.cipher_suite.isSome
  protocols : e.role = .Server ∨ carried → ∀ name ∈ e.negotiated_alpn, name ∈ e.alpn_protocols
  params : carried → Informed e.state → e.quic_mode → e.peer_transport_params.isSome
  limit : e.role = .Client → e.peer_record_size_limit.isSome → e.local_record_size_limit.isSome
  hello : e.role = .Client → e.state ≠ .Start → ∃ limit, Offers X e.transcript e.alpn_protocols limit ∧
    (timely → e.local_record_size_limit.isSome → limit.isSome)
  asked : e.role = .Server → ∀ name ∈ e.negotiated_alpn, Asks e.transcript name

theorem Offers.grow {transcript transcript' : Bytes} {protocols : List Bytes} {limit : Option Nat}
    (h : Offers X transcript protocols limit) (hgrow : transcript <+: transcript') :
    Offers X transcript' protocols limit := by
  obtain ⟨before, msg, after, server_name, public_key, tp, ext, random, session_id, rfl, hext, hmsg⟩ := h
  obtain ⟨more, rfl⟩ := hgrow
  exact ⟨before, msg, after ++ more, server_name, public_key, tp, ext, random, session_id,
    List.append_assoc .., hext, hmsg⟩

theorem Asks.grow {transcript transcript' name : Bytes} (h : Asks transcript name)
    (hgrow : transcript <+: transcript') : Asks transcript' name := by
  obtain ⟨before, msg, after, ch, ext, rfl, hch, hext, hname⟩ := h
  obtain ⟨more, rfl⟩ := hgrow
  exact ⟨before, msg, after ++ more, ch, ext, List.append_assoc .., hch, hext, hname⟩

theorem config_eq {e e' : TlsEngine} (h : config e' = config e) :
    e'.role = e.role ∧ e'.alpn_protocols = e.alpn_protocols ∧ e'.quic_mode = e.quic_mode := by
  simpa only [config, Prod.mk.injEq] using h

/-- What a quiet step must still account for is the state it leads to. -/
theorem Honest.quiet {e e' : TlsEngine} (h : Honest X timely carried e) (hq : Quiet next e e')
    (hchosen : ¬ Early e'.state → e.cipher_suite.isSome)
    (hparams : carried → Informed e'.state → e.quic_mode → e.peer_transport_params.isSome)
    (hstart : e.role = .Client → e'.state ≠ .Start → e.state ≠ .Start) : Honest X timely carried e' := by
  obtain ⟨hrole, hprotocols, hquic⟩ := config_eq hq.config
  refine ⟨?_, ?_, ?_, ?_, ?_, fun hclient hne => ?_, fun hserver name hname => ?_⟩
  · rw [hq.suite]
    exact h.suites
  · rw [hq.suite]
    exact hchosen
  · rw [hq.alpn, hprotocols, hrole]
    exact h.protocols
  · rw [hq.params, hquic]
    exact hparams
  · rw [hrole, hq.peer_limit, hq.limit]
    exact h.limit
  · rw [hrole] at hclient
    obtain ⟨limit, hoffers, hlimit⟩ := h.hello hclient (hstart hclient hne)
    rw [hprotocols, hq.limit]
    exact ⟨limit, hoffers.grow hq.transcript, hlimit⟩
  · rw [hrole] at hserver
    rw [hq.alpn] at hname
    exact (h.asked hserver name hname).grow hq.transcript

/-- A quiet step that stays in its state, or is taken where everything has been negotiated. -/
theorem Honest.onward {e e' : TlsEngine} (h : Honest X timely carried e) (hq : Quiet next e e')
    (hstate : e'.state = e.state ∨ Informed e.state) : Honest X timely carried e' := by
  rcases hstate with hstate | hstate
  · refine h.quiet hq ?_ ?_ ?_
    · rw [hstate]
      exact h.chosen
    · rw [hstate]
      exact h.params
    · rw [hstate]
      exact fun _ => id
  · exact h.quiet hq (fun _ => h.chosen hstate.1) (fun hc _ => h.params hc hstate)
      fun _ _ hstart => hstate.1 (.inl hstart)

theorem quiet_update_transcript (next : HandshakeState) (message : Bytes) (e : TlsEngine) :
    Quiet next e { e with transcript := e.transcript ++ message } := (quiet_secrets next).hashed e message

theorem Honest.hashed (h : Honest X timely carried e) (message : Bytes) :
    Honest X timely carried { e with transcript := e.transcript ++ message } :=
  h.onward (quiet_update_transcript e.state message e) (.inl rfl)

/-! ## Messages -/

theorem honest_server_hello (h : Honest X timely carried e) (hstate : e.state = .WaitServerHello)
    (msg_body : Bytes) : Honest X timely carried (process_server_hello X msg_body e).2 := by
  rcases process_server_hello_does (X := X) msg_body e with heq | ⟨suite, hsuite, hq⟩
  · rwa [heq]
  · have hchosen : Honest X timely carried { e with cipher_suite := some suite } := by
      refine ⟨fun s hs => ?_, fun _ => rfl, h.protocols, h.params, h.limit, h.hello, h.asked⟩
      cases hs
      exact hsuite
    refine hchosen.quiet hq (fun _ => rfl) (fun _ hinformed => ?_) fun _ _ => ?_
    · rcases hq.state with hs | hs
      · rw [hs] at hinformed
        exact absurd (.inr (.inl hstate)) hinformed.1
      · exact absurd hs hinformed.2
    · show e.state ≠ .Start
      rw [hstate]
      nofun

theorem honest_encrypted_extensions (h : Honest X timely carried e) (hrole : e.role = .Client)
    (hstate : e.state = .WaitEncryptedExtensions) {msg_body : Bytes}
    (hcarries : carried → Carries X e.alpn_protocols e.quic_mode .EncryptedExtensions msg_body) :
    Honest X timely carried (process_encrypted_extensions msg_body e).2 := by
  have hserver : e.role = .Server → False := by
    rw [hrole]
    nofun
  have hsuite : e.cipher_suite.isSome := h.chosen fun hearly => by
    rw [hstate] at hearly
    rcases hearly with h | h | h <;> cases h
  rcases process_encrypted_extensions_does msg_body e with
    heq | ⟨ext, parsed, hext, hparsed, heq | ⟨hlimit, heq⟩⟩
  · rwa [heq]
  · rw [heq]
    exact ⟨h.suites, h.chosen, fun hc => (hcarries (hc.resolve_left hserver) ext hext parsed hparsed).1,
      fun _ hinformed => absurd hstate hinformed.2, h.limit, h.hello, fun hs => (hserver hs).elim⟩
  · rw [heq]
    refine ⟨h.suites, fun _ => hsuite,
      fun hc => (hcarries (hc.resolve_left hserver) ext hext parsed hparsed).1,
      fun hc _ => (hcarries hc ext hext parsed hparsed).2, fun _ => hlimit, fun _ _ => ?_,
      fun hs => (hserver hs).elim⟩
    exact h.hello hrole (by rw [hstate]; nofun)

theorem honest_client_hello (h : Honest X timely carried e) (hrole : e.role = .Server)
    (hstate : e.state = .WaitClientHello) {full_msg : Bytes}
    (hcarries : carried → Carries X e.alpn_protocols e.quic_mode .ClientHello (full_msg.drop 4))
    (hmsg : ∃ before, e.transcript = before ++ full_msg) :
    Honest X timely carried (process_client_hello X (full_msg.drop 4) e).2 := by
  have hclient : e.role = .Client → False := by
    rw [hrole]
    nofun
  have hearly : Early e.state := .inr (.inr hstate)
  obtain ⟨before, hmsg⟩ := hmsg
  rcases process_client_hello_does (X := X) (full_msg.drop 4) e with
    heq | ⟨ch, ext, suite, hch, hext, htls, hkey, hsuite, heq | ⟨hagree, hq⟩⟩
  · rwa [heq]
  · have hmem : suite ∈ X.C.cipher_suites := List.mem_of_find?_eq_some hsuite
    rw [heq]
    refine ⟨fun s hs => ?_, fun _ => rfl, h.protocols, fun _ hinformed => absurd hearly hinformed.1,
      fun hc => (hclient hc).elim, fun hc => (hclient hc).elim, h.asked⟩
    cases hs
    exact hmem
  · have hmem : suite ∈ X.C.cipher_suites := List.mem_of_find?_eq_some hsuite
    have hparams : carried → e.quic_mode = true → ext.transport_params.isSome = true := fun hc hquic =>
      hcarries hc ch hch ext hext ⟨htls, hkey, by rw [hsuite]; rfl, hagree, hquic⟩
    refine Honest.quiet (e := { e with
      cipher_suite := some suite
      peer_transport_params := ext.transport_params
      peer_record_size_limit := ext.record_size_limit
      negotiated_alpn := e.select_alpn ext.alpn_protocols }) ?_ hq (fun _ => rfl) (fun hc _ => hparams hc)
      fun hc => (hclient hc).elim
    refine ⟨fun s hs => ?_, fun _ => rfl, fun _ name hname => ?_, fun hc _ => hparams hc,
      fun hc => (hclient hc).elim, fun hc => (hclient hc).elim, fun _ name hname => ?_⟩
    · cases hs
      exact hmem
    · simpa using List.find?_some hname
    · refine ⟨before, full_msg, [], ch, ext, ?_, hch, hext, List.mem_of_find?_eq_some hname⟩
      rw [List.append_nil]
      exact hmsg

theorem informed_of {state : HandshakeState} (h : state ≠ .Start ∧ state ≠ .WaitServerHello ∧
    state ≠ .WaitClientHello ∧ state ≠ .WaitEncryptedExtensions) : Informed state := by
  obtain ⟨h₁, h₂, h₃, h₄⟩ := h
  refine ⟨?_, h₄⟩
  rintro (h | h | h)
  · exact h₁ h
  · exact h₂ h
  · exact h₃ h

theorem honest_client_message (h : Honest X timely carried e) (hrole : e.role = .Client)
    (msg_type : HandshakeType) (full_msg : Bytes)
    (hcarries : carried → awaited .Client e.state = some msg_type →
      Carries X e.alpn_protocols e.quic_mode msg_type (full_msg.drop 4)) :
    Honest X timely carried (client_message X msg_type full_msg (full_msg.drop 4) e).2 := by
  have hgrown := h.hashed full_msg
  unfold client_message
  rw [get_bind_run]
  generalize hs : e.state = state at hcarries
  have hpast : ∀ next {m : Method TlsEngine Error Unit}, Informed state → Method.Keeps (Quiet next) m →
      Honest X timely carried ((update_transcript full_msg >>= fun _ => m) e).2 := by
    intro next m hinformed hm
    exact h.onward (keeps_seq ((quiet_secrets next).update_transcript full_msg) (fun _ => hm) e)
      (.inr (hs ▸ hinformed))
  split
  · exact honest_server_hello hgrown hs _
  · exact honest_encrypted_extensions hgrown hrole hs (fun hc => hcarries hc rfl)
  · refine hpast .WaitCertificateVerify (informed_of ⟨nofun, nofun, nofun, nofun⟩) ?_
    exact (quiet_secrets _).process_certificate (fun _ => .of_eq rfl rfl rfl rfl rfl rfl rfl (.inr rfl)) _
  · refine hpast .WaitFinished (informed_of ⟨nofun, nofun, nofun, nofun⟩) ?_
    exact (quiet_secrets _).process_certificate_verify
      (fun _ => .of_eq rfl rfl rfl rfl rfl rfl rfl (.inr rfl)) _ _
  · refine hpast .SendFinished (informed_of ⟨nofun, nofun, nofun, nofun⟩) ?_
    exact (quiet_secrets _).process_server_finished (quiet_ready _)
      (fun fin => quiet_flight fin fun _ => .of_eq rfl rfl rfl rfl rfl rfl rfl (.inr rfl)) _ _
  · exact h

theorem honest_server_message (h : Honest X timely carried e) (hrole : e.role = .Server)
    (msg_type : HandshakeType) (full_msg : Bytes)
    (hcarries : carried → awaited .Server e.state = some msg_type →
      Carries X e.alpn_protocols e.quic_mode msg_type (full_msg.drop 4)) :
    Honest X timely carried (server_message X msg_type full_msg (full_msg.drop 4) e).2 := by
  unfold server_message
  rw [get_bind_run]
  generalize hs : e.state = state at hcarries
  split
  · exact honest_client_hello (h.hashed full_msg) hrole hs (fun hc => hcarries hc rfl) ⟨e.transcript, rfl⟩
  · refine h.onward (?_ : Quiet .Complete _ _) (.inr (informed_of ?_))
    · refine keeps_seq ((quiet_secrets .Complete).update_transcript full_msg) (fun _ => ?_) e
      exact (quiet_secrets _).process_client_finished (quiet_ready _)
        (fun _ => .of_eq rfl rfl rfl rfl rfl rfl rfl (.inr rfl)) _ _
    · rw [hs]
      exact ⟨nofun, nofun, nofun, nofun⟩
  · exact h

/-! ## Reading and writing -/

theorem config_pieces : KeptByPieces (Method.Same config) :=
  ⟨fun _ _ => rfl, fun _ _ => rfl, fun _ _ => rfl, fun _ _ _ => rfl, fun _ _ _ => rfl,
    fun _ _ _ _ => rfl, fun _ _ => rfl⟩

theorem config_flight (msg : Bytes) {move : TlsEngine → TlsEngine} (h : ∀ e, config (move e) = config e) :
    Method.Keeps (Method.Same config) (do
      set_pending_write msg
      Method.modify move) :=
  keeps_seq (keeps_set_pending_write (fun _ _ => rfl) msg) fun _ => keeps_modify h

/-- A message leaves the configuration alone. -/
theorem config_role_message (role : Role) (msg_type : HandshakeType) (full_msg msg_body : Bytes) :
    Method.Keeps (Method.Same config) (role_message X role msg_type full_msg msg_body) := by
  have hp := config_pieces
  cases role with
  | Client =>
    refine keeps_seq Method.keeps_get fun e => ?_
    split
    all_goals try refine keeps_seq (hp.secrets.update_transcript _) fun _ => ?_
    · exact hp.process_server_hello (fun _ _ => rfl) (fun _ => rfl) _
    · exact hp.process_encrypted_extensions (fun _ => rfl) _
    · exact hp.secrets.process_certificate (fun _ => rfl) _
    · exact hp.secrets.process_certificate_verify (fun _ => rfl) _ _
    · exact hp.secrets.process_server_finished (fun _ _ => rfl)
        (fun fin => config_flight fin fun _ => rfl) _ _
    · exact Method.keeps_fail _
  | Server =>
    refine keeps_seq Method.keeps_get fun e => ?_
    split
    all_goals try refine keeps_seq (hp.secrets.update_transcript _) fun _ => ?_
    · exact hp.process_client_hello (fun _ _ => rfl) (fun sh _ => config_flight sh fun _ => rfl) _
    · exact hp.secrets.process_client_finished (fun _ _ => rfl) (fun _ => rfl) _ _
    · exact Method.keeps_fail _

theorem honest_role_message (h : Honest X timely carried e) (msg_type : HandshakeType) (full_msg : Bytes)
    (hcarries : carried → awaited e.role e.state = some msg_type →
      Carries X e.alpn_protocols e.quic_mode msg_type (full_msg.drop 4)) :
    Honest X timely carried (role_message X e.role msg_type full_msg (full_msg.drop 4) e).2 := by
  cases hrole : e.role with
  | Client =>
    rw [hrole] at hcarries
    exact honest_client_message h hrole msg_type full_msg hcarries
  | Server =>
    rw [hrole] at hcarries
    exact honest_server_message h hrole msg_type full_msg hcarries

theorem read_messages_step (message : HandshakeType → Bytes → Bytes → Method TlsEngine Error Unit)
    (fuel : Nat) (ty : UInt8) (rest : Bytes) (e : TlsEngine) :
    read_messages message (fuel + 1) (ty :: rest) e =
      if 4 ≤ (ty :: rest).length ∧ 4 + beNat (rest.take 3) ≤ (ty :: rest).length then
        match HandshakeType.from_u8 ty with
        | none => (.error .Tls, e)
        | some msg_type =>
          let full_msg := (ty :: rest).take (4 + beNat (rest.take 3))
          match message msg_type full_msg (full_msg.drop 4) e with
          | (.error err, e') => (.error err, e')
          | (.ok _, e') => read_messages message fuel ((ty :: rest).drop (4 + beNat (rest.take 3))) e'
      else (.error .Tls, e) := by
  rw [read_messages, require_bind_run]
  by_cases hfour : 4 ≤ (ty :: rest).length
  · rw [if_pos hfour, require_bind_run]
    by_cases hlen : 4 + beNat (rest.take 3) ≤ (ty :: rest).length
    · rw [if_pos hlen, if_pos ⟨hfour, hlen⟩, bind_run]
      rcases HandshakeType.from_u8 ty with _ | msg_type
      · rfl
      · rw [Method.okOr_some_run]
        dsimp only
        rw [bind_run]
        rcases message msg_type _ _ e with ⟨_ | _, e'⟩ <;> rfl
    · rw [if_neg hlen, if_neg fun h => hlen h.2]
  · rw [if_neg hfour, if_neg fun h => hfour h.1]

theorem honest_read_messages (fuel : Nat) {data : Bytes} (h : Honest X timely carried e)
    (hcarries : carried → ∀ m ∈ e.hashed_messages X fuel data,
      Carries X e.alpn_protocols e.quic_mode m.msg_type (m.message.drop 4)) :
    Honest X timely carried (read_messages (role_message X e.role) fuel data e).2 := by
  induction fuel generalizing data e with
  | zero => exact h
  | succ fuel ih =>
    cases data with
    | nil => exact h
    | cons ty rest =>
      rw [read_messages_step]
      rw [hashed_messages] at hcarries
      dsimp only at hcarries
      by_cases hlen : 4 ≤ (ty :: rest).length ∧ 4 + beNat (rest.take 3) ≤ (ty :: rest).length
      swap
      · rw [if_neg hlen]
        exact h
      rw [if_pos hlen] at hcarries ⊢
      rcases hty : HandshakeType.from_u8 ty with _ | msg_type
      · exact h
      · rw [hty] at hcarries
        dsimp only at hcarries ⊢
        generalize (ty :: rest).take (4 + beNat (rest.take 3)) = full_msg at hcarries ⊢
        have hnext : Honest X timely carried
            (role_message X e.role msg_type full_msg (full_msg.drop 4) e).2 := by
          refine honest_role_message h msg_type full_msg fun hc hawaited => ?_
          rcases hrun : role_message X e.role msg_type full_msg (full_msg.drop 4) e with ⟨_ | _, e'⟩
          · rw [hrun] at hcarries
            refine hcarries hc ⟨msg_type, full_msg, false⟩ ?_
            rw [if_pos hawaited]
            exact List.mem_singleton.mpr rfl
          · rw [hrun] at hcarries
            exact hcarries hc ⟨msg_type, full_msg, true⟩
              (List.mem_append_left _ (by rw [if_pos hawaited]; exact List.mem_singleton.mpr rfl))
        have hconfig := config_role_message (X := X) e.role msg_type full_msg (full_msg.drop 4) e
        rcases hrun : role_message X e.role msg_type full_msg (full_msg.drop 4) e with ⟨err | _, e'⟩
        · rw [hrun] at hnext
          exact hnext
        · rw [hrun] at hnext hconfig hcarries
          obtain ⟨hrole, hprotocols, hquic⟩ := config_eq hconfig
          dsimp only at hnext hrole hprotocols hquic hcarries ⊢
          rw [← hrole]
          refine ih hnext fun hc m hm => ?_
          rw [hprotocols, hquic]
          exact hcarries hc m (List.mem_append_right _ hm)

theorem read_handshake_eq (level : Level) (data : Bytes) (e : TlsEngine) :
    read_handshake X level data e = match expected_level e.role e.state with
      | none => (.error .InvalidState, e)
      | some expected =>
        if level = expected then read_messages (role_message X e.role) data.length data e
        else (.error (.Transport .ProtocolViolation), e) := by
  unfold read_handshake
  rw [get_bind_run]
  cases hrole : e.role with
  | Client =>
    simp only [expected_level, role_message]
    rw [bind_run]
    rcases expected_level_client e.state with _ | expected
    · rfl
    · exact require_bind_run ..
  | Server =>
    simp only [expected_level, role_message]
    rw [bind_run]
    rcases expected_level_server e.state with _ | expected
    · rfl
    · exact require_bind_run ..

theorem honest_read_handshake (h : Honest X timely carried e) (level : Level) (data : Bytes)
    (hcarries : carried → ∀ m ∈ e.hashed X level data,
      Carries X e.alpn_protocols e.quic_mode m.msg_type (m.message.drop 4)) :
    Honest X timely carried (read_handshake X level data e).2 := by
  rw [read_handshake_eq]
  unfold hashed at hcarries
  rcases hexpected : expected_level e.role e.state with _ | expected
  · exact h
  · dsimp only
    by_cases heq : level = expected
    · rw [hexpected, if_pos (by rw [heq])] at hcarries
      rw [if_pos heq]
      exact honest_read_messages _ h hcarries
    · rw [if_neg heq]
      exact h

theorem build_client_hello_offers {e e' : TlsEngine} {u : Unit} (h : build_client_hello X e = (.ok u, e')) :
    Offers X e'.transcript e.alpn_protocols e.local_record_size_limit := by
  unfold build_client_hello at h
  rw [get_bind_run] at h
  rw [bind_run, lift_run] at h
  rcases hext : encode_client_hello_extensions e.server_name e.public_key e.alpn_protocols
    e.own_transport_params e.local_record_size_limit 1024 with err | ext
  · rw [hext] at h
    cases h
  rw [hext] at h
  dsimp only at h
  rw [require_bind_run] at h
  split at h
  swap
  · cases h
  rw [bind_run, lift_run] at h
  generalize hsid : (if e.quic_mode = true then [] else e.legacy_session_id) = session_id at h
  rcases hmsg : encode_client_hello e.client_random session_id X.C.cipher_suites ext 2048 with err | msg
  · rw [hmsg] at h
    cases h
  rw [hmsg] at h
  dsimp only at h
  unfold update_transcript at h
  rw [modify_bind_run] at h
  have hlater : Method.Keeps (Quiet .WaitServerHello) (do
      set_pending_write msg
      Method.modify fun e => { e with pending_level := .Initial, state := .WaitServerHello }) :=
    quiet_flight msg fun _ => .of_eq rfl rfl rfl rfl rfl rfl rfl (.inr rfl)
  have hgrow := (hlater { e with transcript := e.transcript ++ msg }).transcript
  rw [h] at hgrow
  refine Offers.grow ?_ hgrow
  exact ⟨e.transcript, msg, [], _, _, _, ext, _, _, by rw [List.append_nil], hext, hmsg⟩

theorem honest_build_client_hello (h : Honest X timely carried e) :
    Honest X timely carried (build_client_hello X e).2 := by
  have hq : Quiet .WaitServerHello e (build_client_hello X e).2 :=
    (quiet_secrets _).build_client_hello
      (fun msg => quiet_flight msg fun _ => .of_eq rfl rfl rfl rfl rfl rfl rfl (.inr rfl)) e
  have hgreeted := build_client_hello_greeted (X := X) e
  rcases hrun : build_client_hello X e with ⟨err | _, e'⟩
  · rw [hrun] at hq hgreeted
    exact h.onward hq (.inl (hgreeted.failed nofun).1)
  · rw [hrun] at hq hgreeted
    obtain ⟨hrole, hprotocols, hquic⟩ := config_eq hq.config
    have hearly : Early e'.state := .inr (.inl (hgreeted.built rfl).1)
    refine ⟨?_, fun hlate => absurd hearly hlate, ?_, fun _ hinformed => absurd hearly hinformed.1, ?_,
      fun _ _ => ?_, fun hserver name hname => ?_⟩
    · dsimp only
      rw [hq.suite]
      exact h.suites
    · dsimp only
      rw [hq.alpn, hprotocols, hrole]
      exact h.protocols
    · dsimp only
      rw [hrole, hq.peer_limit, hq.limit]
      exact h.limit
    · dsimp only
      rw [hprotocols, hq.limit]
      exact ⟨_, build_client_hello_offers hrun, fun _ => id⟩
    · dsimp only at hserver hname ⊢
      rw [hrole] at hserver
      rw [hq.alpn] at hname
      exact (h.asked hserver name hname).grow hq.transcript

theorem honest_write_handshake (cap : Nat) (h : Honest X timely carried e) :
    Honest X timely carried (write_handshake X cap e).2 := by
  have hmove {state : HandshakeState} {e e' : TlsEngine} (hinformed : Informed state)
      (hstate : e.state = state) (hq : Quiet e'.state e e') (h : Honest X timely carried e) :
      Honest X timely carried e' :=
    h.onward hq (.inr (hstate ▸ hinformed))
  have hfinished : Informed .SendFinished := informed_of ⟨nofun, nofun, nofun, nofun⟩
  have hinitial : Informed .SendServerFlightInitial := informed_of ⟨nofun, nofun, nofun, nofun⟩
  have hhandshake : Informed .SendServerFlightHandshake := informed_of ⟨nofun, nofun, nofun, nofun⟩
  refine preserves_write_handshake (fun _ _ => honest_build_client_hello) (fun e _ h => ?_)
    (fun e hstate => hmove hfinished hstate ?_) (fun e hstate => hmove hinitial hstate ?_)
    (fun e hstate => hmove hhandshake hstate ?_) cap e h
  · have hq : Quiet e.state e { e with pending_write := [] } :=
      .of_eq rfl rfl rfl rfl rfl rfl rfl (.inl rfl)
    exact h.onward hq (.inl rfl)
  · exact .of_eq rfl rfl rfl rfl rfl rfl rfl (.inr rfl)
  · exact .of_eq rfl rfl rfl rfl rfl rfl rfl (.inr rfl)
  · exact .of_eq rfl rfl rfl rfl rfl rfl rfl (.inr rfl)

/-! ## Runs -/

theorem honest_fresh (h : Fresh X e) : Honest X timely carried e := by
  have hfresh : ∀ e : TlsEngine, e.cipher_suite = none → e.negotiated_alpn = none →
      e.peer_record_size_limit = none → Early e.state → (e.role = .Client → e.state = .Start) →
      Honest X timely carried e := by
    intro e hsuite halpn hpeer hearly hstart
    refine ⟨?_, absurd hearly, ?_, fun _ hinformed => absurd hearly hinformed.1, ?_,
      fun hrole hstate => absurd (hstart hrole) hstate, ?_⟩
    · simp [hsuite]
    · simp [halpn]
    · simp [hpeer]
    · simp [halpn]
  have hserver : Role.Server ≠ Role.Client := by decide
  cases h with
  | client => exact hfresh _ rfl rfl rfl (.inl rfl) fun _ => rfl
  | tcp_client => exact hfresh _ rfl rfl rfl (.inl rfl) fun _ => rfl
  | server => exact hfresh _ rfl rfl rfl (.inr (.inr rfl)) (absurd · hserver)
  | tcp_server => exact hfresh _ rfl rfl rfl (.inr (.inr rfl)) (absurd · hserver)

theorem honest_step {e : TlsEngine} {op : Op} (htimely : timely → Timely e op)
    (hcarries : carried → Obliges X e op) (h : Honest X timely carried e) :
    Honest X timely carried (apply X op e) := by
  have hsame : ∀ e', Quiet e.state e e' → e'.state = e.state → Honest X timely carried e' :=
    fun e' hq hstate => h.onward hq (.inl hstate)
  cases op with
  | read_handshake level data => exact honest_read_handshake h level data hcarries
  | write_handshake cap => exact honest_write_handshake cap h
  | derived_keys => exact hsame _ (.of_eq rfl rfl rfl rfl rfl rfl rfl (.inl rfl)) rfl
  | set_local_record_size_limit limit =>
    refine ⟨h.suites, h.chosen, h.protocols, h.params, fun _ _ => rfl, fun hrole hstate => ?_, h.asked⟩
    obtain ⟨offered, hoffers, hlimit⟩ := h.hello hrole hstate
    refine ⟨offered, hoffers, fun ht _ => hlimit ht ?_⟩
    exact (htimely ht hrole).resolve_left hstate
  | set_transport_param_cids original_dcid initial_scid =>
    exact hsame _ (.of_eq rfl rfl rfl rfl rfl rfl rfl (.inl rfl)) rfl
  | shrink_post_handshake => exact hsame _ (.of_eq rfl rfl rfl rfl rfl rfl rfl (.inl rfl)) rfl

theorem Honest.checked (h : Honest X timely carried e) : Checked X e where
  client hrole hstate := (h.hello hrole hstate).imp fun _ hoffer => ⟨hoffer.1, h.suites⟩
  limit := h.limit
  server hrole name hname := ⟨h.protocols (.inl hrole) name hname, h.asked hrole name hname⟩
  suite := h.chosen

theorem Honest.limit_offered (h : Honest X True carried e) : LimitOffered X e := fun hrole hstate =>
  (h.hello hrole hstate).imp fun _ hoffer => ⟨hoffer.1, fun hpeer => hoffer.2 trivial (h.limit hrole hpeer)⟩

theorem Honest.negotiated (h : Honest X True True e) : Negotiated X e where
  client hrole hstate := by
    obtain ⟨limit, hoffers, hlimit⟩ := h.limit_offered hrole hstate
    exact ⟨limit, hoffers, h.protocols (.inr trivial), h.suites, hlimit⟩
  server := h.checked.server
  suite := h.chosen
  params := h.params trivial

/-- Whatever the peer sends, the suite and a server's protocol were offered. So was a record size limit,
if it is set in time. In every run whose messages carry what they must, all that a side has agreed on
was offered, and a side goes on over QUIC only with the peer's transport parameters. -/
theorem negotiated_values_were_offered {e : TlsEngine} (h : Fresh X e) (ops : List Op) :
    Throughout (apply X) (Checked X) e ops ∧
    (Along (apply X) Timely e ops → Throughout (apply X) (LimitOffered X) e ops) ∧
    (Along (apply X) (Obliges X) e ops → Throughout (apply X) (Negotiated X) e ops) := by
  refine ⟨fun pre _ => ?_, fun htimely pre hpre => ?_, fun hok pre hpre => ?_⟩
  · have hhonest : Honest X False False (final (apply X) e pre) :=
      invariant (fun e op (_ : True) => honest_step False.elim False.elim) (fun _ _ => trivial)
        (honest_fresh h)
    exact hhonest.checked
  · have hhonest : Honest X True False (final (apply X) e pre) :=
      invariant (fun e op ht => honest_step (fun _ => ht) False.elim)
      (htimely.upto hpre) (honest_fresh h)
    exact hhonest.limit_offered
  · have hhonest : Honest X True True (final (apply X) e pre) :=
      invariant (fun e op ho => honest_step (fun _ => ho.in_time) fun _ => ho)
      (hok.upto hpre) (honest_fresh h)
    exact hhonest.negotiated

/-! ## Two handshakes -/

instance {α : Type} (x : Except Error α) (P : α → Prop) [DecidablePred P] :
    Decidable (∀ a, x = .ok a → P a) :=
  match x with
  | .ok a => decidable_of_iff (P a) ⟨fun h _ heq => by cases heq; exact h, fun h => h a rfl⟩
  | .error _ => isTrue nofun

instance (protocols : List Bytes) (quic_mode : Bool) :
    DecidablePred (ServerGives protocols quic_mode) :=
  fun _ => inferInstanceAs (Decidable (_ ∧ (_ → _)))

instance (X : Primitives) (protocols : List Bytes) (quic_mode : Bool) (ch : ClientHello) :
    DecidablePred (ClientGives X protocols quic_mode ch) :=
  fun _ => inferInstanceAs (Decidable (_ ∧ _ ∧ _ ∧ (_ ∨ _ ∨ _) ∧ _ → _))

instance (X : Primitives) (protocols : List Bytes) (quic_mode : Bool) (msg_type : HandshakeType)
    (body : Bytes) : Decidable (Carries X protocols quic_mode msg_type body) :=
  match msg_type with
  | .EncryptedExtensions =>
    inferInstanceAs (Decidable (∀ ext, parse_encrypted_extensions body = .ok ext →
      ∀ parsed, parse_encrypted_extensions_data ext = .ok parsed → ServerGives protocols quic_mode parsed))
  | .ClientHello =>
    inferInstanceAs (Decidable (∀ ch, parse_client_hello body = .ok ch →
      ∀ ext, parse_client_hello_extensions ch.extensions = .ok ext →
        ClientGives X protocols quic_mode ch ext))
  | .ServerHello | .Certificate | .CertificateVerify | .Finished => isTrue trivial

instance (X : Primitives) (e : TlsEngine) (op : Op) : Decidable (Obliges X e op) :=
  match op with
  | .read_handshake level data => inferInstanceAs (Decidable (∀ h ∈ e.hashed X level data, _))
  | .set_local_record_size_limit _ => inferInstanceAs (Decidable (_ → _ ∨ _))
  | .write_handshake _ | .derived_keys | .set_transport_param_cids _ _ | .shrink_post_handshake =>
    isTrue trivial

/-- A client over QUIC that speaks h3. -/
def h3_client : TlsEngine :=
  new_client standin.primitives
    { server_name := ascii "a", alpn_protocols := [ascii "h3"],
      transport_params := .default_params, pinned_certs := [] }
    (List.replicate 32 7) (List.replicate 32 9)

/-- A server over QUIC that speaks h3. -/
def h3_server : TlsEngine :=
  new_server standin.primitives
    { cert_der := standin.cert_der, private_key_der := List.replicate 32 5,
      alpn_protocols := [ascii "h3"], transport_params := .default_params }
    (List.replicate 32 3) (List.replicate 32 4)

/-- What a call hands out. -/
def output (r : Except Error (Bytes × Level)) : Bytes := match r with
  | .ok (b, _) => b
  | .error _ => []

/-- The ClientHello of a client. -/
def hello_of (client : TlsEngine) : Bytes := output (client.write_handshake standin.primitives 2048).1

/-- A handshake with a server: the client's calls, given the server's two flights. -/
def client_calls (flights : Bytes × Bytes) : List Op :=
  [.write_handshake 2048, .read_handshake .Initial flights.1, .derived_keys,
    .read_handshake .Handshake flights.2, .derived_keys, .write_handshake 2048]

/-- The flights of a server that answers a ClientHello. -/
def flights_of (server : TlsEngine) (hello : Bytes) : Bytes × Bytes :=
  let server := (server.read_handshake standin.primitives .Initial hello).2
  let (sh, server) := server.write_handshake standin.primitives 2048
  (output sh, output (server.write_handshake standin.primitives 2048).1)

/-- The client and the server agree on h3, and the server's parameters are known. -/
theorem h3_handshake_was_offered :
    (final (apply standin.primitives) h3_client
      (client_calls (flights_of h3_server (hello_of h3_client)))).complete = true ∧
    Throughout (apply standin.primitives) (Negotiated standin.primitives) h3_client
      (client_calls (flights_of h3_server (hello_of h3_client))) := by
  have hrun : (final (apply standin.primitives) h3_client
        (client_calls (flights_of h3_server (hello_of h3_client)))).complete = true ∧
      Along (apply standin.primitives) (Obliges standin.primitives) h3_client
        (client_calls (flights_of h3_server (hello_of h3_client))) := by decide +kernel
  exact ⟨hrun.1, (negotiated_values_were_offered (.client _ _ _) _).2.2 hrun.2⟩

/-! ## A peer that names what was not offered -/

/-- The two flights of a server that takes any ClientHello, and names `alpn` and no transport
parameters. -/
def rogue_flights (alpn hello : Bytes) : Bytes × Bytes :=
  let answer : Method TlsEngine Error (Bytes × Bytes) := do
    let X := standin.primitives
    update_transcript hello
    let ch ← Method.lift (parse_client_hello (hello.drop 4))
    let ext ← Method.lift (parse_client_hello_extensions ch.extensions)
    Method.modify fun e => { e with quic_mode := false, cipher_suite := some .TlsAes128GcmSha256 }
    let e ← Method.get
    let sh_ext ← Method.lift (encode_server_hello_extensions e.public_key 128)
    let sh ← Method.lift (encode_server_hello e.client_random ch.session_id .TlsAes128GcmSha256 sh_ext 512)
    update_transcript sh
    derive_handshake X (ext.key_share.getD [])
    let flight ← build_handshake_flight X alpn
    pure (sh, flight)
  match answer h3_server with
  | (.ok flights, _) => flights
  | (.error _, _) => ([], [])

/-- A ClientHello without transport parameters. -/
def plain_hello : Bytes := hello_of { h3_client with quic_mode := false }

/-- A client that offered only h3 is complete with another protocol, over QUIC and without transport
parameters, and a server over QUIC goes on after a ClientHello without them. -/
theorem unoffered_protocol_is_agreed_on :
    let client := final (apply standin.primitives) h3_client
      (client_calls (rogue_flights (ascii "h9") (hello_of h3_client)))
    let server := final (apply standin.primitives) h3_server [.read_handshake .Initial plain_hello]
    client.complete = true ∧ client.negotiated_alpn = some (ascii "h9") ∧
      client.alpn_protocols = [ascii "h3"] ∧ ¬ Negotiated standin.primitives client ∧
      server.state = .SendServerFlightInitial ∧ ¬ Negotiated standin.primitives server := by
  have hclient : (fun e : TlsEngine => (e.role, e.state, e.complete, e.negotiated_alpn, e.alpn_protocols))
      (final (apply standin.primitives) h3_client
        (client_calls (rogue_flights (ascii "h9") (hello_of h3_client)))) =
      (.Client, .Complete, true, some (ascii "h9"), [ascii "h3"]) := by decide +kernel
  have hserver : (fun e : TlsEngine => (e.state, e.quic_mode, e.peer_transport_params))
      (final (apply standin.primitives) h3_server [.read_handshake .Initial plain_hello]) =
      (.SendServerFlightInitial, true, none) := by decide +kernel
  simp only [Prod.mk.injEq] at hclient hserver
  obtain ⟨hrole, hstate, hcomplete, halpn, hprotocols⟩ := hclient
  obtain ⟨hflight, hquic, hparams⟩ := hserver
  refine ⟨hcomplete, halpn, hprotocols, fun h => ?_, hflight, fun h => ?_⟩
  · obtain ⟨limit, -, hnames, -⟩ := h.client hrole (by rw [hstate]; nofun)
    rw [halpn, hprotocols] at hnames
    exact absurd (hnames _ rfl) (by decide)
  · have hinformed : Informed (final (apply standin.primitives) h3_server
        [.read_handshake .Initial plain_hello]).state := by
      rw [hflight]
      exact informed_of ⟨nofun, nofun, nofun, nofun⟩
    have hsome := h.params hinformed hquic
    rw [hparams] at hsome
    cases hsome

end milli_http.tls.offers
