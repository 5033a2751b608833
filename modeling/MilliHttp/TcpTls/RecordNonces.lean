-- A TLS connection seals no two records with one key and sequence number, and a closed one stays
-- closed. The handshake keys protect one flight only, and the sequence number of the application
-- keys starts over only when the handshake ends; but it starts over whenever keys are checked
-- with a complete engine and the connection is not active, and a closed connection is not.
import MilliHttp.TcpTls.Endpoints
import MilliHttp.Tls.Flights
import MilliHttp.Tls.Secrets

open bytes method
open method.Method (bind_run lift_run keeps_seq get_bind_run require_bind_run)

namespace milli_http.tcp_tls.nonces

open crypto tls TlsConnection

variable {X : Primitives} {BUF : Nat} {keys : DirectionalRecordKeys X} {c : TlsConnection X BUF}

/-! ## What is sealed -/

/-- The key and the sequence number of a record that is sealed. -/
def sealing : Record X → Option (X.C.Aead × Nat)
  | .plaintext _ _ => none
  | .sealed keys seq _ _ => some (keys.aead, seq)

/-- The keys and sequence numbers of all records that were sealed. -/
def sealings (c : TlsConnection X BUF) : List (X.C.Aead × Nat) := c.records.filterMap sealing

/-- The application data of a record. -/
def data_of : Record X → Option Bytes
  | .sealed _ _ .ApplicationData data => some data
  | _ => none

/-- The application data that was sealed. -/
def app_data (c : TlsConnection X BUF) : List Bytes := c.records.filterMap data_of

/-- The sequence number of a record under the handshake keys. -/
def hs_seq : Record X → Option Nat
  | .sealed _ seq .Handshake _ => some seq
  | _ => none

/-- The sequence number of a record under the application keys. -/
def app_seq : Record X → Option Nat
  | .sealed _ _ .Handshake _ => none
  | .sealed _ seq _ _ => some seq
  | _ => none

def hs_seqs (c : TlsConnection X BUF) : List Nat := c.records.filterMap hs_seq

def app_seqs (c : TlsConnection X BUF) : List Nat := c.records.filterMap app_seq

/-- The key of a record under the handshake keys. -/
def hs_key : Record X → Option X.C.Aead
  | .sealed keys _ .Handshake _ => some keys.aead
  | _ => none

/-- The key of a record under the application keys. -/
def app_key : Record X → Option X.C.Aead
  | .sealed _ _ .Handshake _ => none
  | .sealed keys _ _ _ => some keys.aead
  | _ => none

/-- The handshake keys and the application keys that were sealed with are different ones. -/
def KeysDiffer (c : TlsConnection X BUF) : Prop :=
  ∀ k ∈ c.records.filterMap hs_key, k ∉ c.records.filterMap app_key

/-! ## Where keys come from -/

/-- A record key of a traffic secret. -/
def RecordKey (X : Primitives) (secret : Bytes) (aead : X.C.Aead) : Prop :=
  ∃ len key, hkdf_expand_label X.C.hkdf secret (ascii "key") [] len = .ok key ∧
    X.C.aead key = .ok aead

/-- A record key of a handshake traffic secret. -/
def HandshakeKey (X : Primitives) (aead : X.C.Aead) : Prop :=
  ∃ secret, HandshakeSecret X secret ∧ RecordKey X secret aead

/-- A record key of an application traffic secret. -/
def ApplicationKey (X : Primitives) (aead : X.C.Aead) : Prop :=
  ∃ secret, ApplicationSecret X secret ∧ RecordKey X secret aead

theorem recordKey_of_derived {secret : Bytes} {suite : CipherSuite}
    (h : derive_record_keys X secret suite = .ok keys) : RecordKey X secret keys.aead := by
  unfold derive_record_keys at h
  obtain ⟨key, hkey, h⟩ := except_bind_eq_ok h
  obtain ⟨iv, -, h⟩ := except_bind_eq_ok h
  obtain ⟨aead, haead, h⟩ := except_bind_eq_ok h
  cases h
  exact ⟨_, key, hkey, haead⟩

/-- A record is sealed with a key of its kind. -/
def KeyedAs : Record X → Prop
  | .plaintext _ _ => True
  | .sealed keys _ .Handshake _ => HandshakeKey X keys.aead
  | .sealed keys _ _ _ => ApplicationKey X keys.aead

/-! ## The invariant -/

/-- What holds of every connection that is used in an orderly way. -/
structure Sound (c : TlsConnection X BUF) : Prop where
  prepared : c.engine.Prepared
  labelled : c.engine.Labelled X
  /-- The flight under the handshake keys is sent once. -/
  spent : hs_seqs c = [] ∨ c.engine.Spent
  /-- An active connection has installed all keys. -/
  active : c.state = .Active → c.engine.pending_keys = none
  /-- Before it is active it has sealed nothing with the application keys. -/
  handshaking : c.Handshaking → app_seqs c = []
  hs_send : ∀ k ∈ c.hs_send, HandshakeKey X k.aead
  app_send : ∀ k ∈ c.app_send, ApplicationKey X k.aead
  keyed : ∀ r ∈ c.records, KeyedAs r
  hs_rising : (hs_seqs c).Pairwise (· < ·)
  app_rising : (app_seqs c).Pairwise (· < ·)
  app_below : ∀ n ∈ app_seqs c, n < c.send_seq

/-- What the invariant is about. -/
def nonce_side (c : TlsConnection X BUF) :=
  (c.engine, c.state, c.hs_send, c.app_send, c.send_seq, c.records)

theorem Sound.of_side {c c' : TlsConnection X BUF} (h : Sound c) (hside : nonce_side c' = nonce_side c) :
    Sound c' := by
  simp only [nonce_side, Prod.mk.injEq] at hside
  obtain ⟨he, hs, hh, ha, hq, hr⟩ := hside
  have hhs : hs_seqs c' = hs_seqs c := by unfold hs_seqs; rw [hr]
  have happ : app_seqs c' = app_seqs c := by unfold app_seqs; rw [hr]
  refine ⟨he ▸ h.prepared, he ▸ h.labelled, ?_, ?_, ?_, hh ▸ h.hs_send, ha ▸ h.app_send,
    hr ▸ h.keyed, hhs ▸ h.hs_rising, happ ▸ h.app_rising, ?_⟩
  · rw [hhs, he]
    exact h.spent
  · rw [hs, he]
    exact h.active
  · intro hb
    rw [happ]
    exact h.handshaking (hb.of_state hs.symm)
  · rw [happ, hq]
    exact h.app_below

/-- A closed connection stays closed and neither accepts nor seals application data. -/
def Shut (c c' : TlsConnection X BUF) : Prop :=
  c.is_closed = true →
    c'.is_closed = true ∧ app_data c' = app_data c ∧ c'.app_send_buf = c.app_send_buf

/-- What every orderly call keeps. -/
def Lawful (c c' : TlsConnection X BUF) : Prop := (Sound c → Sound c') ∧ Shut c c'

instance : IsPreorder (TlsConnection X BUF) Lawful where
  refl _ := ⟨id, fun h => ⟨h, rfl, rfl⟩⟩
  trans _ _ _ h₁ h₂ := by
    refine ⟨fun h => h₂.1 (h₁.1 h), fun h => ?_⟩
    obtain ⟨hc₁, hd₁, hb₁⟩ := h₁.2 h
    obtain ⟨hc₂, hd₂, hb₂⟩ := h₂.2 hc₁
    exact ⟨hc₂, hd₂.trans hd₁, hb₂.trans hb₁⟩

theorem lawful_of_side {c c' : TlsConnection X BUF} (hside : nonce_side c' = nonce_side c)
    (hbuf : c'.app_send_buf = c.app_send_buf) : Lawful c c' := by
  refine ⟨fun h => h.of_side hside, fun hc => ?_⟩
  simp only [nonce_side, Prod.mk.injEq] at hside
  obtain ⟨-, hs, -, -, -, hr⟩ := hside
  exact ⟨by simpa only [is_closed, hs] using hc, by unfold app_data; rw [hr], hbuf⟩

/-- While the connection is open there is nothing to say about closed ones. -/
theorem lawful_of_open {c c' : TlsConnection X BUF} (hopen : c.Open) (h : Sound c → Sound c') :
    Lawful c c' := by
  refine ⟨h, fun hc => ?_⟩
  simp only [is_closed, decide_eq_true_eq] at hc
  rcases hc with hc | hc
  · exact absurd hc hopen.2
  · exact absurd hc hopen.1

/-! ## The engine -/

/-- What may be said of a new engine in place of the old one. -/
structure Carried (X : Primitives) (e e' : TlsEngine) : Prop where
  prepared : e.Prepared → e'.Prepared
  labelled : e.Labelled X → e'.Labelled X
  spent : e.Spent → e'.Spent

theorem Sound.of_engine (h : Sound c) {engine : TlsEngine} (he : Carried X c.engine engine)
    (hkeys : c.state = .Active → c.engine.pending_keys = none → engine.pending_keys = none) :
    Sound ({ c with engine } : TlsConnection X BUF) :=
  ⟨he.prepared h.prepared, he.labelled h.labelled, h.spent.imp_right he.spent,
    fun ha => hkeys ha (h.active ha), h.handshaking, h.hs_send, h.app_send, h.keyed, h.hs_rising,
    h.app_rising, h.app_below⟩

theorem carried_limit (e : TlsEngine) (limit : Nat) :
    Carried X e (e.set_local_record_size_limit limit) := ⟨id, id, id⟩

theorem carried_read (e : TlsEngine) (level : Level) (data : Bytes) :
    Carried X e (e.read_handshake X level data).2 :=
  ⟨TlsEngine.prepared_read_handshake level data e, TlsEngine.labels_read_handshake level data e,
    TlsEngine.spent_read_handshake level data e⟩

theorem carried_write (e : TlsEngine) (cap : Nat) :
    Carried X e (e.write_handshake X cap).2 :=
  ⟨(TlsEngine.write_handshake_writes cap e).prepared, TlsEngine.labels_write_handshake cap e,
    (TlsEngine.write_handshake_writes cap e).spent⟩

theorem carried_taken (e : TlsEngine) : Carried X e e.derived_keys.2 :=
  ⟨id, fun _ _ h => absurd h nofun, id⟩

theorem carried_shrink (e : TlsEngine) : Carried X e e.shrink_post_handshake := by
  refine ⟨fun _ _ => .inr (.inl rfl), id, ?_⟩
  rintro (⟨hrole, hstate, -⟩ | h)
  · exact .inl ⟨hrole, hstate, rfl⟩
  · exact .inr h

/-! ## Installing keys -/

/-- What installing keys leaves alone, and what keys it leaves. -/
structure Installed (c c' : TlsConnection X BUF) : Prop where
  engine : c'.engine = c.engine
  records : c'.records = c.records
  send_seq : c'.send_seq = c.send_seq
  state : c'.state = c.state ∨ c'.state = .HandshakeEncrypted
  hs_send : ∀ k ∈ c'.hs_send, k ∈ c.hs_send ∨ HandshakeKey X k.aead
  app_send : ∀ k ∈ c'.app_send, k ∈ c.app_send ∨ ApplicationKey X k.aead

theorem install_keys_installed {keys : DerivedKeys} (hsecret : TlsEngine.SecretOf X keys)
    (c : TlsConnection X BUF) : Installed c (install_keys keys c).2 := by
  have hsame : Installed c c := ⟨rfl, rfl, rfl, .inl rfl, fun _ => .inl, fun _ => .inl⟩
  unfold install_keys
  cases hlevel : keys.level with
  | Initial => exact hsame
  | Handshake =>
    have hkey : ∀ send, derive_record_keys X keys.send_secret keys.cipher_suite = .ok send →
        HandshakeKey X send.aead := fun send hsend => by
      refine ⟨keys.send_secret, ?_, recordKey_of_derived hsend⟩
      simpa only [TlsEngine.SecretOf, hlevel] using hsecret
    dsimp only
    rw [bind_run, lift_run]
    cases hsend : derive_record_keys X keys.send_secret keys.cipher_suite with
    | error _ => exact hsame
    | ok send =>
      dsimp only
      rw [Method.modify_bind_run]
      rw [bind_run, lift_run]
      have hsends : ∀ k ∈ some send, k ∈ c.hs_send ∨ HandshakeKey X k.aead := fun k hk => by
        cases hk
        exact .inr (hkey send hsend)
      cases derive_record_keys X keys.recv_secret keys.cipher_suite with
      | error _ => exact ⟨rfl, rfl, rfl, .inl rfl, hsends, fun _ => .inl⟩
      | ok recv => exact ⟨rfl, rfl, rfl, .inr rfl, hsends, fun _ => .inl⟩
  | Application =>
    have hkey : ∀ send, derive_record_keys X keys.send_secret keys.cipher_suite = .ok send →
        ApplicationKey X send.aead := fun send hsend => by
      refine ⟨keys.send_secret, ?_, recordKey_of_derived hsend⟩
      simpa only [TlsEngine.SecretOf, hlevel] using hsecret
    dsimp only
    rw [bind_run, lift_run]
    cases hsend : derive_record_keys X keys.send_secret keys.cipher_suite with
    | error _ => exact hsame
    | ok send =>
      dsimp only
      rw [Method.modify_bind_run]
      rw [bind_run, lift_run]
      have hsends : ∀ k ∈ some send, k ∈ c.app_send ∨ ApplicationKey X k.aead := fun k hk => by
        cases hk
        exact .inr (hkey send hsend)
      cases derive_record_keys X keys.recv_secret keys.cipher_suite with
      | error _ => exact ⟨rfl, rfl, rfl, .inl rfl, fun _ => .inl, hsends⟩
      | ok recv => exact ⟨rfl, rfl, rfl, .inl rfl, fun _ => .inl, hsends⟩

/-- Keys are installed before the connection is active. -/
theorem Sound.of_installed {c c' : TlsConnection X BUF} (h : Sound c) (hc : c.Handshaking)
    (hi : Installed c c') : Sound c' ∧ c'.Handshaking := by
  have hbusy : c'.Handshaking := by
    rcases hi.state with hs | hs
    · exact hc.of_state hs
    · exact .inr hs
  have hhs : hs_seqs c' = hs_seqs c := by unfold hs_seqs; rw [hi.records]
  have happ : app_seqs c' = app_seqs c := by unfold app_seqs; rw [hi.records]
  refine ⟨⟨hi.engine ▸ h.prepared, hi.engine ▸ h.labelled, ?_, fun ha => ?_, ?_, ?_, ?_,
    hi.records ▸ h.keyed, hhs ▸ h.hs_rising, happ ▸ h.app_rising, ?_⟩, hbusy⟩
  · rw [hhs, hi.engine]
    exact h.spent
  · rcases hbusy with hs | hs <;> exact absurd (hs.symm.trans ha) nofun
  · rw [happ]
    exact fun _ => h.handshaking hc
  · intro k hk
    rcases hi.hs_send k hk with hk | hk
    · exact h.hs_send k hk
    · exact hk
  · intro k hk
    rcases hi.app_send k hk with hk | hk
    · exact h.app_send k hk
    · exact hk
  · rw [happ, hi.send_seq]
    exact h.app_below

/-- Becoming active, with nothing sealed under the application keys so far. -/
theorem Sound.activate (h : Sound c) (hc : c.Handshaking)
    (hkeys : c.engine.pending_keys = none) : Sound c.activate := by
  have happ := h.handshaking hc
  refine Sound.of_side (c := { c with
    state := .Active
    send_seq := 0
    engine := c.engine.shrink_post_handshake
    hs_send := none }) ?_ ?_
  · have he := carried_shrink (X := X) c.engine
    refine ⟨he.prepared h.prepared, he.labelled h.labelled, h.spent.imp_right he.spent,
      fun _ => hkeys, fun _ => happ, nofun, h.app_send, h.keyed, h.hs_rising, h.app_rising, ?_⟩
    intro n hn
    exact absurd (happ ▸ hn : n ∈ []) List.not_mem_nil
  · unfold TlsConnection.activate push_event
    split <;> rfl

theorem Sound.check_keys (h : Sound c) (hc : c.Handshaking) : Sound (check_keys c).2 := by
  have hsettle : ∀ c : TlsConnection X BUF, Sound c → c.Handshaking →
      c.engine.pending_keys = none → Sound c.settle := by
    intro c h hc hkeys
    unfold settle
    split
    · exact h.activate hc hkeys
    · exact h
  have h₁ : Sound c.pick_up :=
    Sound.of_side (h.of_engine (carried_taken c.engine) fun _ _ => rfl) rfl
  rw [check_keys_run]
  cases hpending : c.engine.pending_keys with
  | none => exact hsettle _ h₁ hc rfl
  | some keys =>
    dsimp only
    have hi := install_keys_installed (h.labelled keys hpending) c.pick_up
    have h₂ := h₁.of_installed hc hi
    rcases hrun : install_keys keys c.pick_up with ⟨_ | _, c₂⟩
    · rw [hrun] at h₂
      exact h₂.1
    · rw [hrun] at h₂ hi
      refine hsettle c₂ h₂.1 h₂.2 ?_
      rw [hi.engine]
      rfl

theorem check_keys_of_idle (hkeys : c.engine.pending_keys = none)
    (hcomplete : c.engine.complete = true → c.state = .Active) :
    nonce_side (check_keys c).2 = nonce_side c ∧ (check_keys c).2.app_send_buf = c.app_send_buf := by
  rw [check_keys_run, hkeys]
  dsimp only
  unfold settle
  rw [if_neg]
  · refine ⟨?_, rfl⟩
    have hsame : c.engine.derived_keys.2 = c.engine := by
      unfold TlsEngine.derived_keys
      rw [← hkeys]
    simp only [nonce_side, pick_up, hsame]
  · rintro ⟨hc, hne⟩
    exact hne (hcomplete hc)

/-! ## Receiving -/

theorem lawful_recv : KeptByRecv (Lawful : TlsConnection X BUF → TlsConnection X BUF → Prop) where
  limit c limit := ⟨fun h => h.of_engine (carried_limit c.engine limit) fun _ => id,
    fun h => ⟨h, rfl, rfl⟩⟩
  buffer _ _ _ _ := lawful_of_side rfl rfl
  hs_opened _ := lawful_of_side rfl rfl
  opened _ := lawful_of_side rfl rfl
  read c origin level data hc _ _ := by
    refine lawful_of_open hc.open fun h => ?_
    have hsound := h.of_engine (carried_read c.engine level data) fun ha => by
      rcases hc with hs | hs <;> exact absurd (hs.symm.trans ha) nofun
    rw [read_handshake_snd]
    exact hsound.of_side rfl
  keys c hc := lawful_of_open hc.open fun h => h.check_keys hc
  alert c state hstate hopen := by
    refine lawful_of_open hopen fun h => ?_
    refine ⟨h.prepared, h.labelled, h.spent, fun ha => ?_, fun hb => ?_, h.hs_send, h.app_send,
      h.keyed, h.hs_rising, h.app_rising, h.app_below⟩
    · rcases hstate with rfl | rfl <;> cases ha
    · rcases hstate with rfl | rfl <;> rcases hb with hb | hb <;> cases hb

/-! ## Sealing -/

theorem hs_seqs_put (c : TlsConnection X BUF) (r : Record X) :
    hs_seqs (c.put r) = hs_seqs c ++ (hs_seq r).toList := by
  simp only [hs_seqs, put, List.filterMap_append]
  cases h : hs_seq r <;> simp [h]

theorem app_seqs_put (c : TlsConnection X BUF) (r : Record X) :
    app_seqs (c.put r) = app_seqs c ++ (app_seq r).toList := by
  simp only [app_seqs, put, List.filterMap_append]
  cases h : app_seq r <;> simp [h]

theorem app_data_put (c : TlsConnection X BUF) (r : Record X) :
    app_data (c.put r) = app_data c ++ (data_of r).toList := by
  simp only [app_data, put, List.filterMap_append]
  cases h : data_of r <;> simp [h]

/-- Numbers that go up still do with a larger one behind them. -/
theorem rising_concat {ns : List Nat} {n : Nat} (h : ns.Pairwise (· < ·)) (hn : ∀ m ∈ ns, m < n) :
    (ns ++ [n]).Pairwise (· < ·) := by
  rw [List.pairwise_append]
  refine ⟨h, List.pairwise_singleton _ _, fun a ha b hb => ?_⟩
  rw [List.mem_singleton.mp hb]
  exact hn a ha

theorem keyed_put {r : Record X} (h : Sound c) (hr : KeyedAs r) :
    ∀ r' ∈ (c.put r).records, KeyedAs r' := by
  intro r' hr'
  rcases List.mem_append.mp hr' with hr' | hr'
  · exact h.keyed r' hr'
  · rw [List.mem_singleton.mp hr']
    exact hr

/-- A record in the clear takes no sequence number. -/
theorem lawful_put_plaintext (c : TlsConnection X BUF) (ct : ContentType) (data : Bytes) :
    Lawful c (c.put (.plaintext ct data)) := by
  have hhs : hs_seqs (c.put (.plaintext ct data)) = hs_seqs c := by
    rw [hs_seqs_put]
    exact List.append_nil _
  have happ : app_seqs (c.put (.plaintext ct data)) = app_seqs c := by
    rw [app_seqs_put]
    exact List.append_nil _
  refine ⟨fun h => ?_, fun hc => ⟨hc, ?_, rfl⟩⟩
  · refine ⟨h.prepared, h.labelled, ?_, h.active, ?_, h.hs_send, h.app_send,
      keyed_put h trivial, ?_, ?_, ?_⟩
    · rw [hhs]
      exact h.spent
    · rw [happ]
      exact h.handshaking
    · rw [hhs]
      exact h.hs_rising
    · rw [happ]
      exact h.app_rising
    · rw [happ]
      exact h.app_below
  · rw [app_data_put]
    exact List.append_nil _

theorem lawful_queue_send (data : Bytes) :
    Method.Keeps Lawful (queue_send data : Method (TlsConnection X BUF) Error Unit) := by
  intro c
  rw [queue_send_run]
  split
  · exact lawful_of_side rfl rfl
  · exact refl c

theorem lawful_queue_record (ct : ContentType) (data : Bytes) :
    Method.Keeps Lawful (queue_record ct data : Method (TlsConnection X BUF) Error Unit) := by
  intro c
  rw [queue_record_run]
  split
  · exact lawful_put_plaintext c ct data
  · exact refl c

theorem lawful_wrap_plaintext_record (ct : ContentType) (data : Bytes) :
    Method.Keeps Lawful (wrap_plaintext_record ct data : Method (TlsConnection X BUF) Error Unit) := by
  refine keeps_seq (lawful_queue_send _) fun _ => ?_
  refine keeps_seq (lawful_queue_send _) fun _ => Method.keeps_modify fun c => ?_
  exact IsTrans.trans _ _ _ (lawful_put_plaintext c ct data) (lawful_of_side rfl rfl)

/-- A record under the application keys, of an active connection. -/
theorem Sound.seal_app (h : Sound c) (hc : c.state = .Active)
    (hkeys : c.app_send = some keys) (ct : ContentType)
    (hct : ct ≠ .Handshake) (data app_send_buf : Bytes) :
    Sound ({ c.put (.sealed keys c.send_seq ct data) with
      send_seq := c.send_seq + 1, app_send_buf } : TlsConnection X BUF) := by
  have hhs : hs_seqs (c.put (.sealed keys c.send_seq ct data)) = hs_seqs c := by
    rw [hs_seqs_put]
    cases ct <;> first | exact List.append_nil _ | exact absurd rfl hct
  have happ : app_seqs (c.put (.sealed keys c.send_seq ct data)) = app_seqs c ++ [c.send_seq] := by
    rw [app_seqs_put]
    cases ct <;> first | rfl | exact absurd rfl hct
  have hkeyed : KeyedAs (.sealed keys c.send_seq ct data) := by
    cases ct <;> first | exact h.app_send keys hkeys | exact absurd rfl hct
  refine ⟨h.prepared, h.labelled, ?_, h.active, fun hb => ?_, h.hs_send, h.app_send,
    keyed_put h hkeyed, ?_, ?_, ?_⟩
  · show hs_seqs (c.put (.sealed keys c.send_seq ct data)) = [] ∨ _
    rw [hhs]
    exact h.spent
  · rcases hb with hb | hb <;> exact absurd (hc.symm.trans hb) nofun
  · show (hs_seqs (c.put (.sealed keys c.send_seq ct data))).Pairwise _
    rw [hhs]
    exact h.hs_rising
  · show (app_seqs (c.put (.sealed keys c.send_seq ct data))).Pairwise _
    rw [happ]
    exact rising_concat h.app_rising h.app_below
  · show ∀ n ∈ app_seqs (c.put (.sealed keys c.send_seq ct data)), n < c.send_seq + 1
    rw [happ]
    intro n hn
    rcases List.mem_append.mp hn with hn | hn
    · exact Nat.lt_succ_of_lt (h.app_below n hn)
    · rw [List.mem_singleton.mp hn]
      exact Nat.lt_succ_self _

/-- While a flight is sealed with the handshake keys. -/
structure Flying (c : TlsConnection X BUF) : Prop where
  sound : Sound c
  spent : c.engine.Spent
  hs_below : ∀ n ∈ hs_seqs c, n < c.hs_send_seq

theorem Flying.seal_hs (h : Flying c) (hkeys : c.hs_send = some keys) (data : Bytes) :
    Flying ({ c.put (.sealed keys c.hs_send_seq .Handshake data) with
      hs_send_seq := c.hs_send_seq + 1 } : TlsConnection X BUF) := by
  have hhs : hs_seqs (c.put (.sealed keys c.hs_send_seq .Handshake data)) =
      hs_seqs c ++ [c.hs_send_seq] := by
    rw [hs_seqs_put]
    rfl
  have happ : app_seqs (c.put (.sealed keys c.hs_send_seq .Handshake data)) = app_seqs c := by
    rw [app_seqs_put]
    exact List.append_nil _
  refine ⟨⟨h.sound.prepared, h.sound.labelled, .inr h.spent, h.sound.active, fun hb => ?_,
    h.sound.hs_send, h.sound.app_send, keyed_put h.sound (h.sound.hs_send keys hkeys), ?_, ?_, ?_⟩,
    h.spent, ?_⟩
  · exact happ.trans (h.sound.handshaking hb)
  · show (hs_seqs (c.put (.sealed keys c.hs_send_seq .Handshake data))).Pairwise _
    rw [hhs]
    exact rising_concat h.sound.hs_rising h.hs_below
  · exact happ ▸ h.sound.app_rising
  · exact happ ▸ h.sound.app_below
  · show ∀ n ∈ hs_seqs (c.put (.sealed keys c.hs_send_seq .Handshake data)), n < c.hs_send_seq + 1
    rw [hhs]
    intro n hn
    rcases List.mem_append.mp hn with hn | hn
    · exact Nat.lt_succ_of_lt (h.hs_below n hn)
    · rw [List.mem_singleton.mp hn]
      exact Nat.lt_succ_self _

/-- What sending a flight keeps, beside what it seals. -/
structure Flown (c c' : TlsConnection X BUF) : Prop where
  engine : c'.engine = c.engine
  state : c'.state = c.state
  shut : Shut c c'

instance : IsPreorder (TlsConnection X BUF) Flown where
  refl _ := ⟨rfl, rfl, fun h => ⟨h, rfl, rfl⟩⟩
  trans _ _ _ h₁ h₂ := by
    refine ⟨h₂.engine.trans h₁.engine, h₂.state.trans h₁.state, fun h => ?_⟩
    obtain ⟨hc₁, hd₁, hb₁⟩ := h₁.shut h
    obtain ⟨hc₂, hd₂, hb₂⟩ := h₂.shut hc₁
    exact ⟨hc₂, hd₂.trans hd₁, hb₂.trans hb₁⟩

theorem send_fragments_flown (pieces : List Bytes) :
    Flown c (send_fragments pieces c).2 ∧ (Flying c → Flying (send_fragments pieces c).2) := by
  induction pieces generalizing c with
  | nil => exact ⟨refl c, id⟩
  | cons piece pieces ih =>
    have hrun : (send_fragments (piece :: pieces) c).2 =
        (send_fragments pieces (encrypt_and_send piece .Handshake true c).2).2 := rfl
    rw [hrun]
    rcases encrypt_hs_cases piece .Handshake c with ⟨e, he⟩ | ⟨keys, hkeys, -, he⟩
    · rw [he]
      exact ih
    · rw [he]
      have hfirst : Flown c ({ c.put (.sealed keys c.hs_send_seq .Handshake piece) with
          hs_send_seq := c.hs_send_seq + 1 } : TlsConnection X BUF) := by
        refine ⟨rfl, rfl, fun hc => ⟨hc, ?_, rfl⟩⟩
        exact (app_data_put c _).trans (List.append_nil _)
      exact ⟨IsTrans.trans _ _ _ hfirst ih.1, fun hf => ih.2 (hf.seal_hs hkeys piece)⟩

theorem ensure_ccs_flown (c : TlsConnection X BUF) :
    Flown c (ensure_ccs c).2 ∧ (Sound c → Sound (ensure_ccs c).2) ∧
      hs_seqs (ensure_ccs c).2 = hs_seqs c := by
  rw [ensure_ccs_run]
  split
  · exact ⟨refl c, id, rfl⟩
  · split
    · have hput := lawful_put_plaintext c .ChangeCipherSpec [0x01]
      refine ⟨⟨rfl, rfl, fun hc => ?_⟩, fun h => (hput.1 h).of_side rfl, ?_⟩
      · obtain ⟨hc', hd, hb⟩ := hput.2 hc
        exact ⟨hc', hd, hb⟩
      · exact (hs_seqs_put c _).trans (List.append_nil _)
    · exact ⟨⟨rfl, rfl, fun hc => ⟨hc, rfl, rfl⟩⟩, fun h => h.of_side rfl, rfl⟩

theorem send_flight_flown (level : Level) (flight : Bytes) (c : TlsConnection X BUF) :
    Flown c (send_flight level flight c).2 ∧
      (Sound c → (level = .Handshake → hs_seqs c = [] ∧ c.engine.Spent) →
        Sound (send_flight level flight c).2) := by
  cases level with
  | Initial =>
    have hlawful := lawful_wrap_plaintext_record .Handshake flight c
    have hsame : Method.Keeps (Method.Same fun c : TlsConnection X BUF => (c.engine, c.state))
        (wrap_plaintext_record .Handshake flight) := by
      have hqueue : ∀ data, Method.Keeps
          (Method.Same fun c : TlsConnection X BUF => (c.engine, c.state)) (queue_send data) := by
        intro data c
        rw [queue_send_run]
        split <;> rfl
      refine keeps_seq (hqueue _) fun _ => keeps_seq (hqueue _) fun _ => ?_
      exact Method.keeps_modify fun _ => rfl
    obtain ⟨hengine, hstate⟩ := Prod.mk.inj (hsame c)
    exact ⟨⟨hengine, hstate, hlawful.2⟩, fun h _ => hlawful.1 h⟩
  | Handshake =>
    rw [send_flight_handshake]
    obtain ⟨hflown, hsound, hseqs⟩ := ensure_ccs_flown c
    have hsend := send_fragments_flown
      (fragments (ensure_ccs c).2.peer_plaintext_cap flight.length flight) (c := (ensure_ccs c).2)
    refine ⟨IsTrans.trans _ _ _ hflown hsend.1, fun h hfresh => ?_⟩
    obtain ⟨hnone, hspent⟩ := hfresh rfl
    refine (hsend.2 ⟨hsound h, hflown.engine ▸ hspent, fun n hn => ?_⟩).sound
    rw [hseqs, hnone] at hn
    exact absurd hn List.not_mem_nil
  | Application => exact ⟨refl c, fun h _ => h⟩

/-! ## Flushing -/

/-- What taking flights from the engine and sending them keeps. -/
structure Flushed (c c' : TlsConnection X BUF) : Prop where
  state : c'.state = c.state
  pending_keys : c'.engine.pending_keys = c.engine.pending_keys
  complete : c'.engine.complete = true → c.engine.complete = true ∨ c.engine.state = .SendFinished
  finish : c'.engine.state = .SendFinished → c.engine.state = .SendFinished
  lawful : Lawful c c'

instance : IsPreorder (TlsConnection X BUF) Flushed where
  refl c := ⟨rfl, rfl, .inl, id, refl c⟩
  trans _ _ _ h₁ h₂ := by
    refine ⟨h₂.state.trans h₁.state, h₂.pending_keys.trans h₁.pending_keys, fun hc => ?_,
      fun hf => h₁.finish (h₂.finish hf), IsTrans.trans _ _ _ h₁.lawful h₂.lawful⟩
    rcases h₂.complete hc with hc | hf
    · exact h₁.complete hc
    · exact .inr (h₁.finish hf)

/-- Taking a flight. -/
theorem flushed_write (c : TlsConnection X BUF) :
    Flushed c { c with engine := (c.engine.write_handshake X 2048).2 } := by
  have hw := TlsEngine.write_handshake_writes (X := X) 2048 c.engine
  refine ⟨rfl, hw.pending_keys, fun hc => (hw.complete hc).imp_right And.right, hw.finish, ?_⟩
  refine ⟨fun h => h.of_engine (carried_write c.engine 2048) fun _ hk => hw.pending_keys.trans hk, ?_⟩
  exact fun hc => ⟨hc, rfl, rfl⟩

theorem flushed_flights (fuel : Nat) (c : TlsConnection X BUF) :
    Flushed c (flush_flights fuel c).2 := by
  induction fuel generalizing c with
  | zero => exact refl c
  | succ fuel ih =>
    rcases flush_flights_cases fuel c with ⟨hrun, -⟩ | ⟨level, flight, hwrite, hflight, hrun⟩
    · rw [hrun]
      exact flushed_write c
    · rw [hrun]
      have hwritten := flushed_write c
      obtain ⟨hflown, hsound⟩ := send_flight_flown level flight (c.take level flight)
      refine IsTrans.trans _ _ _ ?_ (ih _)
      refine ⟨hflown.state, ?_, fun hc => ?_, fun hf => ?_, fun h => ?_, fun hc => ?_⟩
      · rw [hflown.engine]
        exact hwritten.pending_keys
      · rw [hflown.engine] at hc
        exact hwritten.complete hc
      · rw [hflown.engine] at hf
        exact hwritten.finish hf
      · have htaken : Sound (c.take level flight) := (hwritten.lawful.1 h).of_side rfl
        refine hsound htaken fun hlevel => ?_
        -- A flight of the Handshake level is the first and the last one.
        have ht := (TlsEngine.write_handshake_writes 2048 c.engine).taken flight level hwrite hflight
        obtain ⟨hnot, hspent⟩ := ht.spent hlevel h.prepared
        exact ⟨h.spent.resolve_right hnot, hspent⟩
      · obtain ⟨hc₁, hd₁, hb₁⟩ := hwritten.lawful.2 hc
        obtain ⟨hc₂, hd₂, hb₂⟩ := hflown.shut hc₁
        exact ⟨hc₂, hd₂.trans hd₁, hb₂.trans hb₁⟩

/-! ## Orderly calls -/

/-- The engine has completed the handshake, or will with its next flight, or has keys ready. -/
def Unsettled (c : TlsConnection X BUF) : Prop :=
  c.engine.complete = true ∨ c.engine.state = .SendFinished ∨ c.engine.pending_keys ≠ none

instance (c : TlsConnection X BUF) : Decidable (Unsettled c) :=
  inferInstanceAs (Decidable (_ ∨ _ ∨ _))

/-- A closed connection is not asked for output while the engine still has something for it. -/
def Orderly (c : TlsConnection X BUF) : Op → Prop
  | .poll_output _ => ¬ (c.is_closed = true ∧ c.engine_output_pending = true ∧ Unsettled c)
  | _ => True

instance (c : TlsConnection X BUF) (op : Op) : Decidable (Orderly c op) := by
  cases op <;> unfold Orderly <;> infer_instance

/-- Looking for keys behind the flights. -/
theorem lawful_check_after {c c' : TlsConnection X BUF} (hf : Flushed c c')
    (hok : c.is_closed = true → ¬ Unsettled c) : Lawful c (check_keys c').2 := by
  rcases open_or_closed c with hopen | hclosed
  · refine lawful_of_open hopen fun h => ?_
    have h' := hf.lawful.1 h
    by_cases ha : c'.state = .Active
    · exact h'.of_side (check_keys_of_idle (h'.active ha) fun _ => ha).1
    · refine h'.check_keys ?_
      have hopen' := Open.of_state hopen hf.state
      unfold Handshaking
      cases hs : c'.state with
      | Handshake => exact .inl rfl
      | HandshakeEncrypted => exact .inr rfl
      | Active => exact absurd hs ha
      | Closing => exact absurd hs hopen'.1
      | Closed => exact absurd hs hopen'.2
  · have hidle := hok hclosed
    simp only [Unsettled, not_or, ne_eq, not_not] at hidle
    obtain ⟨hcomplete, hfinish, hkeys⟩ := hidle
    have hside := check_keys_of_idle (hf.pending_keys.trans hkeys) fun hc => by
      rcases hf.complete hc with hc | hc
      · exact absurd hc hcomplete
      · exact absurd hc hfinish
    exact IsTrans.trans _ _ _ hf.lawful (lawful_of_side hside.1 hside.2)

theorem lawful_flush_engine_output
    (hok : ¬ (c.is_closed = true ∧ c.engine_output_pending = true ∧ Unsettled c)) :
    Lawful c (flush_engine_output c).2 := by
  rw [flush_engine_output_run]
  split
  · rename_i hpending
    have hcheck := lawful_check_after (flushed_flights 3 c) fun hclosed hu => hok ⟨hclosed, hpending, hu⟩
    exact IsTrans.trans _ _ _ hcheck (lawful_of_side rfl rfl)
  · exact refl c

/-- Sealing the application data of an active connection. -/
theorem Sound.flush_app_records (cap fuel : Nat) (h : Sound c)
    (hc : c.state = .Active) : Sound (flush_app_records cap fuel c).2 := by
  induction fuel generalizing c with
  | zero => exact h
  | succ fuel ih =>
    rcases flush_app_cases cap fuel c with hrun | ⟨keys, hkeys, -, hrun⟩
    · rw [hrun]
      exact h
    · rw [hrun]
      exact ih (h.seal_app hc hkeys .ApplicationData nofun _ _) hc

theorem lawful_flush_app_send (c : TlsConnection X BUF) : Lawful c (flush_app_send c).2 := by
  unfold flush_app_send
  rw [get_bind_run]
  split
  · exact refl c
  · rename_i hne
    have hactive : c.state = .Active := by
      by_contra hs
      exact hne (.inr hs)
    refine lawful_of_open (by simp [Open, hactive]) fun h => ?_
    exact h.flush_app_records _ _ hactive

theorem lawful_poll_output (buf_len : Nat)
    (hok : Orderly c (.poll_output buf_len)) : Lawful c (c.poll_output buf_len).2 := by
  have hlimit : Lawful c c.limited := lawful_recv.limit c (local_record_size_limit BUF)
  have hengine : Lawful c.limited (flush_engine_output c.limited).2 := lawful_flush_engine_output hok
  have hflushed : Lawful c c.flushed :=
    IsTrans.trans _ _ _ (IsTrans.trans _ _ _ hlimit hengine) (lawful_flush_app_send _)
  rw [poll_output_eq]
  refine IsTrans.trans _ _ _ hflushed ?_
  unfold drain
  split
  · exact refl _
  · dsimp only
    split <;> exact lawful_of_side rfl rfl

/-! ## Every call -/

theorem lawful_close (c : TlsConnection X BUF) : Lawful c c.close.2 := by
  unfold TlsConnection.close
  rw [get_bind_run]
  split
  · exact refl c
  · rename_i hne
    have hopen : c.Open := ⟨fun h => hne (.inr h), fun h => hne (.inl h)⟩
    refine lawful_of_open hopen fun h => ?_
    have halert : Sound (send_alert 1 0 c).2 := by
      unfold send_alert
      rw [get_bind_run]
      split
      · rename_i hactive
        rcases encrypt_app_cases [1, 0] .Alert c with ⟨e, he⟩ | ⟨keys, hkeys, he⟩
        · rw [he]
          exact h
        · rw [he]
          exact h.seal_app hactive hkeys .Alert nofun _ c.app_send_buf
      · exact (lawful_queue_record _ _ c).1 h
    rw [bind_run]
    rcases hrun : send_alert 1 0 c with ⟨_ | _, c'⟩
    · rw [hrun] at halert
      exact halert
    · rw [hrun] at halert
      refine ⟨halert.prepared, halert.labelled, halert.spent, nofun, ?_, halert.hs_send,
        halert.app_send, halert.keyed, halert.hs_rising, halert.app_rising, halert.app_below⟩
      rintro (hb | hb) <;> cases hb

theorem lawful_send_app_data (data : Bytes) (c : TlsConnection X BUF) :
    Lawful c (c.send_app_data data).2 := by
  unfold send_app_data
  rw [get_bind_run]
  rw [require_bind_run]
  split
  · rename_i hactive
    refine lawful_of_open (by simp [Open, hactive]) fun h => ?_
    rw [require_bind_run]
    split
    · exact h.of_side rfl
    · exact h
  · exact refl c

theorem lawful_op {op : Op} (hok : Orderly c op) : Lawful c (op.apply c) := by
  cases op with
  | feed_data data => exact lawful_recv.feed_data data c
  | poll_output buf_len => exact lawful_poll_output buf_len hok
  | poll_event => exact lawful_of_side rfl rfl
  | recv_app_data buf_len =>
    show Lawful c (c.recv_app_data buf_len).2
    unfold recv_app_data
    rw [get_bind_run]
    rw [require_bind_run]
    split
    · exact lawful_of_side rfl rfl
    · exact refl c
  | send_app_data data => exact lawful_send_app_data data c
  | close => exact lawful_close c

/-! ## Whole runs -/

theorem sound_started (h : Started c) : Sound c := by
  have hnew : ∀ engine : TlsEngine, engine.pending_write = [] → engine.pending_keys = none →
      Sound (TlsConnection.new engine : TlsConnection X BUF) := by
    intro engine hwrite hkeys
    refine ⟨fun _ => .inr (.inl hwrite), fun k hk => ?_, .inl rfl, nofun, fun _ => rfl, nofun, nofun,
      nofun, .nil, .nil, nofun⟩
    exact absurd (hkeys.symm.trans hk) nofun
  cases h with
  | client config secret random => exact hnew _ rfl rfl
  | server config secret random => exact hnew _ rfl rfl

/-- Numbers that go up within a kind, and keys that differ between kinds. -/
theorem Sound.sealings_nodup (hdiffer : KeysDiffer c) (h : Sound c) : (sealings c).Nodup := by
  have hhs := List.pairwise_filterMap.mp h.hs_rising
  have happ := List.pairwise_filterMap.mp h.app_rising
  have hkeys : ∀ r ∈ c.records, ∀ r' ∈ c.records, ∀ k, hs_key r = some k → app_key r' ≠ some k :=
    fun r hr r' hr' k hk hk' => hdiffer k (List.mem_filterMap.mpr ⟨r, hr, hk⟩)
      (List.mem_filterMap.mpr ⟨r', hr', hk'⟩)
  unfold sealings List.Nodup
  rw [List.pairwise_filterMap]
  refine (hhs.and happ).imp_of_mem fun {r r'} hr hr' hrise a ha a' ha' heq => ?_
  subst heq
  have hk := hkeys r hr r' hr'
  have hk' := hkeys r' hr' r hr
  cases r with
  | plaintext ct data => cases ha
  | sealed keys seq ct data =>
    cases r' with
    | plaintext ct' data' => cases ha'
    | sealed keys' seq' ct' data' =>
      cases ha
      obtain ⟨haead, rfl⟩ := Prod.mk.inj (Option.some.inj ha')
      obtain ⟨hrise₁, hrise₂⟩ := hrise
      cases ct <;> cases ct' <;>
        simp only [hs_key, app_key, haead, hs_seq, app_seq] at hk hk' hrise₁ hrise₂
      all_goals first
        | exact hk _ rfl rfl
        | exact hk' _ rfl rfl
        | exact absurd (hrise₁ _ rfl _ rfl) (Nat.lt_irrefl _)
        | exact absurd (hrise₂ _ rfl _ rfl) (Nat.lt_irrefl _)

/-- In every run in which a closed connection is not asked for output while the engine still has
something for it, every record is sealed with a key of its kind, and no two with one key and
sequence number as long as the keys of the two kinds differ; and a connection that was closed stays
closed and neither accepts nor seals application data. -/
theorem nonces_are_used_once_and_closed_stays_closed {c : TlsConnection X BUF} (hstart : Started c)
    (ops : List Op) (hok : run.Along Op.apply Orderly c ops) :
    (∀ pre, pre <+: ops → (∀ r ∈ (c.after pre).records, KeyedAs r) ∧
      (KeysDiffer (c.after pre) → (sealings (c.after pre)).Nodup)) ∧
    ∀ pre mid, pre ++ mid <+: ops → (c.after pre).is_closed = true →
      (c.after (pre ++ mid)).is_closed = true ∧
      app_data (c.after (pre ++ mid)) = app_data (c.after pre) ∧
      (c.after (pre ++ mid)).app_send_buf = (c.after pre).app_send_buf ∧
      ∀ data, ((c.after (pre ++ mid)).send_app_data data).1 = .error .InvalidState := by
  have hlawful : ∀ {c : TlsConnection X BUF} {ops}, run.Along Op.apply Orderly c ops →
      Lawful c (c.after ops) := fun hok => run.related (fun c op => lawful_op) hok
  constructor
  · intro pre hpre
    have h := (hlawful (hok.upto hpre)).1 (sound_started hstart)
    exact ⟨h.keyed, fun hdiffer => h.sealings_nodup hdiffer⟩
  · intro pre mid hpre hclosed
    have hmid := (run.along_append.mp (hok.upto hpre)).2
    obtain ⟨hc, hd, hb⟩ := (hlawful (c := c.after pre) hmid).2 hclosed
    have hafter : c.after (pre ++ mid) = (c.after pre).after mid := run.final_append
    rw [hafter]
    refine ⟨hc, hd, hb, fun data => ?_⟩
    have hne : ((c.after pre).after mid).state ≠ .Active := by
      intro ha
      simp [is_closed, ha] at hc
    unfold send_app_data
    rw [get_bind_run]
    rw [require_bind_run, if_neg hne]

/-! ## A server that closes -/

/-- A server of the stand-in, and the handshake it completes. -/
def closing_server : TlsConnection standin.primitives 4096 :=
  endpoints.server standin.primitives 4096 standin.cert_der

def closing_ops : List Op :=
  endpoints.server_ops (endpoints.client standin.primitives 4096) closing_server

/-- It sends a byte, closes, and is asked for what it has to send. -/
def orderly_ops : List Op :=
  closing_ops ++ [.send_app_data [1], .poll_output 4096, .close, .poll_output 4096, .send_app_data [2]]

instance : DecidableEq standin.primitives.C.Aead := inferInstanceAs (DecidableEq Bytes)

instance (c : TlsConnection standin.primitives 4096) : Decidable (KeysDiffer c) :=
  inferInstanceAs (Decidable (∀ k ∈ c.records.filterMap hs_key, k ∉ c.records.filterMap app_key))

/-- The server has sealed its flight, a byte and an alert, and is closed. -/
theorem closed_server_has_sealed_three_records :
    (closing_server.after orderly_ops).is_closed = true ∧
    (sealings (closing_server.after orderly_ops)).map Prod.snd = [0, 0, 1] ∧
    KeysDiffer (closing_server.after orderly_ops) ∧
    (sealings (closing_server.after orderly_ops)).Nodup := by
  have hrun : run.Along Op.apply Orderly closing_server orderly_ops ∧
      (closing_server.after orderly_ops).is_closed = true ∧
      (sealings (closing_server.after orderly_ops)).map Prod.snd = [0, 0, 1] ∧
      KeysDiffer (closing_server.after orderly_ops) := by decide +kernel
  obtain ⟨hopen, hclosed, hseqs, hdiffer⟩ := hrun
  have h := nonces_are_used_once_and_closed_stays_closed
    (.server _ _ _ : Started closing_server) orderly_ops hopen
  exact ⟨hclosed, hseqs, hdiffer, (h.1 _ (List.prefix_refl _)).2 hdiffer⟩

/-- The server closes right behind the client's Finished. The next call for output makes it active
again, it accepts a byte, and seals it with the number the alert had. -/
theorem closed_server_seals_with_a_used_nonce :
    (closing_server.after (closing_ops ++ [.close])).is_closed = true ∧
    (closing_server.after (closing_ops ++ [.close, .poll_output 4096])).state = .Active ∧
    app_data (closing_server.after
      (closing_ops ++ [.close, .poll_output 4096, .send_app_data [1], .poll_output 4096])) = [[1]] ∧
    ¬ (sealings (closing_server.after
      (closing_ops ++ [.close, .poll_output 4096, .send_app_data [1], .poll_output 4096]))).Nodup := by
  decide +kernel

end milli_http.tcp_tls.nonces
