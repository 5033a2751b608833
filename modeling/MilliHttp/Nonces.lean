-- Packet protection never uses a nonce twice. Every packet that is sealed takes the number its
-- level counts next, and the count moves on with it: what the AEAD has sealed is always long
-- enough for header protection, so no builder fails between the two. The keys of different
-- levels come from secrets with different labels.
import MilliHttp.Connection.Updates
import MilliHttp.Tls.Secrets
import MilliHttp.Standin

open bytes method
open method.Method (kept_lift keeps_seq keeps_lift keeps_get)

namespace milli_http.connection.nonces

open crypto tls transport packet frame Connection

variable {B : Build} {level : Level} {c c' : Connection B}

/-! ## What is sealed -/

/-- An AEAD key. Initial packets have a provider of their own. -/
inductive Key (B : Build) where
  | initial (aead : B.Aes128GcmProvider.Aead)
  | negotiated (aead : B.C.Aead)

/-- The same key: one AEAD, or AEADs of both providers that the same bytes make. -/
def SameKey : Key B → Key B → Prop
  | .initial aead, .initial aead' => aead = aead'
  | .negotiated aead, .negotiated aead' => aead = aead'
  | .initial aead, .negotiated aead' | .negotiated aead', .initial aead =>
    ∃ key, B.Aes128GcmProvider.aead key = .ok aead ∧ B.C.aead key = .ok aead'

/-- One use of the AEAD: the level of the packet, the key and the packet number. -/
structure Sealing (B : Build) where
  level : Level
  key : Key B
  pn : Nat

/-- Whether sealing a packet gets as far as the AEAD. What comes after it may still fail. -/
def reaches_aead (cap : Nat) (header : Except Error Bytes) (payload : Bytes)
    (pn largest_acked : Nat) : Bool :=
  match header with
  | .error _ => false
  | .ok header =>
    match encode_pn pn largest_acked (cap - header.length) with
    | .error _ => false
    | .ok pn_bytes => header.length + pn_bytes.length + payload.length + tag_len ≤ cap

/-- What `seal_initial` seals. -/
def initial_sealings (cap : Nat) (pad_to_min : Bool) : Draft B → List (Sealing B)
  | (c, p) =>
    let pn_len := c.pn_len .Initial
    let (padding_needed, header_len) :=
      initial_padding c.initial_base_header pn_len p.bytes.length pad_to_min
    let payload := p.bytes ++ List.replicate padding_needed 0
    let payload_length := pn_len + payload.length + tag_len
    if header_len + payload_length > cap then []
    else
      match c.keys.initial_send with
      | none => []
      | some send =>
        let header := encode_initial_header c.remote_cid c.local_scid [] pn_len payload_length cap
        if reaches_aead cap header payload (c.next_pn.get .Initial) (c.largest_pn .Initial) then
          [{ level := .Initial, key := .initial send.aead, pn := c.next_pn.get .Initial }]
        else []

/-- What `seal_level` seals. -/
def level_sealings (level : Level) (cap padding_needed : Nat) : Draft B → List (Sealing B)
  | (c, p) =>
    let payload := p.bytes ++ List.replicate padding_needed 0
    match c.keys.send_keys level with
    | none => []
    | some send =>
      let (header, _) := c.header_of level cap payload.length
      if reaches_aead cap header payload (c.next_pn.get level) (c.largest_pn level) then
        [{ level, key := .negotiated send.aead, pn := c.next_pn.get level }]
      else []

/-- What `build_initial_packet` seals. -/
def build_initial_sealings (cap : Nat) (c : Connection B) : List (Sealing B) :=
  let max_header := 1 + 4 + 1 + c.remote_cid.length + 1 + c.local_scid.length + 1 + 8
  let reserve := max_header + c.pn_len .Initial
  if cap < reserve + 32 then []
  else
    let room := cap - reserve
    let d := put_ack .Initial room (c, .empty)
    let d := if cap ≥ MIN_INITIAL_PACKET_SIZE then write_tls_crypto_data .Initial room d else d
    if d.2.bytes = [] then []
    else initial_sealings cap (c.role = .Client || d.2.ack_eliciting) d

/-- What `build_handshake_packet` seals. -/
def build_handshake_sealings (cap : Nat) (c : Connection B) : List (Sealing B) :=
  let max_header := 1 + 4 + 1 + c.remote_cid.length + 1 + c.local_scid.length + 8
  let reserve := max_header + c.pn_len .Handshake
  if cap < reserve + 32 then []
  else
    let room := cap - reserve
    let d := write_tls_crypto_data .Handshake room (put_ack .Handshake room (c, .empty))
    if d.2.bytes = [] then [] else level_sealings .Handshake cap 0 d

/-- What `build_short_packet` seals. -/
def build_short_sealings (cap : Nat) (c : Connection B) : List (Sealing B) :=
  let payload_start := 1 + c.remote_cid.length + c.pn_len .Application
  if cap < payload_start + 32 then []
  else
    let d := c.drain_short (cap - payload_start)
    if d.2.bytes = [] then []
    else
      level_sealings .Application cap (sample_padding (c.pn_len .Application) d.2.bytes.length) d

/-- What `build_close_packet` seals. -/
def build_close_sealings (level : Level) (frame : Frame) (buf_len : Nat) (c : Connection B) :
    List (Sealing B) :=
  match Payload.push 128 frame .empty with
  | none => []
  | some p =>
    match level with
    | .Initial => initial_sealings buf_len (c.role = .Client) (c, p)
    | level => level_sealings level buf_len (sample_padding (c.pn_len level) p.bytes.length) (c, p)

/-- What a builder seals if there are send keys of its level. -/
def sealings_with_keys (level : Level) (build : Connection B → List (Sealing B)) (c : Connection B) :
    List (Sealing B) :=
  if c.keys.has_send_keys level then build c else []

/-- What `build_packets` seals. -/
def build_sealings (buf_len : Nat) (now : Instant) (c : Connection B) : List (Sealing B) :=
  let (initial, c₁) := c.build_with_keys .Initial (build_initial_packet buf_len now)
  let (handshake, c₂) := c₁.build_with_keys .Handshake
    (build_handshake_packet (buf_len - packet_length initial) now)
  let c₃ := c₂.maybe_release_handshake_slot
  sealings_with_keys .Initial (build_initial_sealings buf_len) c ++
    sealings_with_keys .Handshake (build_handshake_sealings (buf_len - packet_length initial)) c₁ ++
    sealings_with_keys .Application
      (build_short_sealings (buf_len - packet_length initial - packet_length handshake)) c₃

/-- What the part of `poll_transmit` behind its checks seals. -/
def transmit_sealings (buf_len : Nat) (now : Instant) (c : Connection B) : List (Sealing B) :=
  match c.close_frame with
  | some (error_code, reason) =>
    match c.close_level with
    | none => []
    | some level => build_close_sealings level (.ConnectionClose
        { is_application := false, error_code, frame_type := 0, reason }) buf_len c
  | none => build_sealings buf_len now c

/-- What `poll_transmit` seals. -/
def poll_sealings (buf_len : Nat) (now : Instant) (c : Connection B) : List (Sealing B) :=
  if c.state = .Closed then []
  else if c.amplification_allows 1 = false then []
  else
    match auto_key_update c with
    | (.error _, _) => []
    | (.ok _, c) => transmit_sealings buf_len now c.rewind_crypto

/-- What a step seals. -/
def sealings (c : Connection B) : Step → List (Sealing B)
  | .op (.poll_transmit buf_len now) => poll_sealings buf_len now c
  | _ => []

/-- What is sealed in a run. -/
def sealed (c : Connection B) (steps : List Step) : List (Sealing B) :=
  (run.trace Step.apply c steps).flatMap fun x => sealings x.1 x.2

/-- The datagram a step returns. -/
def datagram (c : Connection B) : Step → Option Transmit
  | .op (.poll_transmit buf_len now) => (c.poll_transmit buf_len now).1
  | _ => none

/-- What a step seals into a datagram it returns. -/
def returned_sealings (c : Connection B) (s : Step) : List (Sealing B) :=
  if (datagram c s).isSome then sealings c s else []

/-- What is sealed into the datagrams a run returns. -/
def returned (c : Connection B) (steps : List Step) : List (Sealing B) :=
  (run.trace Step.apply c steps).flatMap fun x => returned_sealings x.1 x.2

/-- The packets of the datagrams a run returns. -/
def packets (c : Connection B) (steps : List Step) : List Packet :=
  (run.trace Step.apply c steps).flatMap fun x => ((datagram x.1 x.2).map (·.packets)).getD []

/-- The packet numbers of a level. -/
def numbers (level : Level) (ss : List (Sealing B)) : List Nat :=
  (ss.filter fun s => decide (s.level = level)).map (·.pn)

/-- The packet is what the key and the packet number of a sealing made of it. -/
def Carries (s : Sealing B) (pkt : Packet) : Prop :=
  pkt.level = s.level ∧
  match s.key with
  | .initial aead => ∃ send bits cap header payload largest_acked, send.aead = aead ∧
      seal_packet (P := B.Aes128GcmProvider) send bits cap header payload s.pn largest_acked =
        .ok pkt.data
  | .negotiated aead => ∃ send bits cap header payload largest_acked, send.aead = aead ∧
      seal_packet (P := B.C) send bits cap header payload s.pn largest_acked = .ok pkt.data

/-! ## Sealing and protecting -/

theorem seal_packet_error {P : CryptoProvider} (send : DirectionalKeys P) (bits : UInt8) {cap : Nat}
    {header : Except Error Bytes} {payload : Bytes} {pn largest_acked : Nat}
    (h : reaches_aead cap header payload pn largest_acked = false) :
    ∃ e, seal_packet send bits cap header payload pn largest_acked = .error e := by
  unfold reaches_aead at h
  unfold seal_packet
  cases header with
  | error e => exact ⟨e, rfl⟩
  | ok header =>
    simp only [except_ok_bind]
    cases hpn : encode_pn pn largest_acked (cap - header.length) with
    | error e => exact ⟨e, rfl⟩
    | ok pn_bytes =>
      simp only [hpn, decide_eq_false_iff_not, Nat.not_le] at h
      simp only [except_ok_bind]
      unfold encrypt_and_protect
      dsimp only
      rw [if_pos h]
      exact ⟨_, rfl⟩

/-- What gets to the AEAD has its sample of ciphertext, if its number and payload are four bytes
together. -/
theorem seal_packet_ok {P : CryptoProvider} (send : DirectionalKeys P) (bits : UInt8) {cap : Nat}
    {header : Except Error Bytes} {payload : Bytes} {pn largest_acked : Nat}
    (h : reaches_aead cap header payload pn largest_acked = true)
    (hlen : 4 ≤ pn_length pn largest_acked + payload.length) :
    ∃ data, seal_packet send bits cap header payload pn largest_acked = .ok data := by
  unfold reaches_aead at h
  unfold seal_packet
  cases header with
  | error e => cases h
  | ok header =>
    simp only [except_ok_bind]
    cases hpn : encode_pn pn largest_acked (cap - header.length) with
    | error e => simp [hpn] at h
    | ok pn_bytes =>
      have hpn_len : pn_bytes.length = pn_length pn largest_acked := by
        unfold encode_pn at hpn
        dsimp only at hpn
        split at hpn
        · cases hpn
        · cases hpn
          exact toBe_length _ _
      simp only [hpn, decide_eq_true_eq] at h
      simp only [except_ok_bind]
      unfold encrypt_and_protect
      dsimp only
      rw [if_neg (by omega), if_neg]
      · exact ⟨_, rfl⟩
      · simp only [List.length_append, P.seal_length, TAG_LEN]
        omega

theorem pn_length_pos (pn largest_acked : Nat) : 1 ≤ pn_length pn largest_acked := by
  unfold pn_length
  dsimp only
  split <;> split <;> first | omega | (split <;> first | omega | (split <;> omega))

/-! ## Sealing a draft -/

/-- The key is the one the connection seals packets of the level with. -/
def SendKey (c : Connection B) : Level → Key B → Prop
  | .Initial, .initial aead => ∃ send, c.keys.initial_send = some send ∧ send.aead = aead
  | .Handshake, .negotiated aead => ∃ send, c.keys.handshake_send = some send ∧ send.aead = aead
  | .Application, .negotiated aead => ∃ send, c.keys.app_send = some send ∧ send.aead = aead
  | _, _ => False

theorem sendKey_of_level {c : Connection B} {send : DirectionalKeys B.C}
    (h : c.keys.send_keys level = some send) : SendKey c level (.negotiated send.aead) := by
  cases level with
  | Initial => cases h
  | Handshake => exact ⟨send, h, rfl⟩
  | Application => exact ⟨send, h, rfl⟩

/-- Sealing uses the number that is next, once, and yields a packet; or it does neither. -/
def SealsOnce (level : Level) (c : Connection B) (pkt : Option Packet) (ss : List (Sealing B)) :
    Prop :=
  (pkt = none ∧ ss = []) ∨
  ∃ p key, pkt = some p ∧ ss = [{ level, key, pn := c.next_pn.get level }] ∧ SendKey c level key ∧
    Carries { level, key, pn := c.next_pn.get level } p

theorem seal_initial_once (cap : Nat) (pad_to_min : Bool) {d : Draft B}
    (hbytes : 3 ≤ d.2.bytes.length) :
    SealsOnce .Initial d.1 ((seal_initial cap pad_to_min d).map Prod.fst)
      (initial_sealings cap pad_to_min d) := by
  obtain ⟨c, p⟩ := d
  unfold seal_initial initial_sealings
  dsimp only at hbytes ⊢
  split
  · exact .inl ⟨rfl, rfl⟩
  · cases hkeys : c.keys.initial_send with
    | none => exact .inl ⟨rfl, rfl⟩
    | some send =>
      dsimp only
      generalize hpayload : p.bytes ++ List.replicate _ 0 = payload
      generalize encode_initial_header _ _ _ _ _ _ = header
      have hlen : 4 ≤ pn_length (c.next_pn.get .Initial) (c.largest_pn .Initial) + payload.length := by
        have := pn_length_pos (c.next_pn.get .Initial) (c.largest_pn .Initial)
        rw [← hpayload, List.length_append]
        omega
      cases hreach : reaches_aead cap header payload (c.next_pn.get .Initial) (c.largest_pn .Initial) with
      | true =>
        obtain ⟨data, hdata⟩ := seal_packet_ok send 0x0f hreach hlen
        rw [hdata]
        exact .inr ⟨_, _, rfl, rfl, ⟨send, hkeys, rfl⟩, rfl, send, _, _, _, _, _, rfl, hdata⟩
      | false =>
        obtain ⟨e, he⟩ := seal_packet_error send 0x0f hreach
        rw [he]
        exact .inl ⟨rfl, rfl⟩

theorem seal_level_once {cap padding_needed : Nat} {d : Draft B}
    (hlen : 4 ≤ d.1.pn_len level + (d.2.bytes.length + padding_needed)) :
    SealsOnce level d.1 (seal_level level cap padding_needed d)
      (level_sealings level cap padding_needed d) := by
  obtain ⟨c, p⟩ := d
  unfold seal_level level_sealings
  dsimp only
  cases hkeys : c.keys.send_keys level with
  | none => exact .inl ⟨rfl, rfl⟩
  | some send =>
    dsimp only
    generalize hpayload : p.bytes ++ List.replicate padding_needed 0 = payload
    have hlen : 4 ≤ pn_length (c.next_pn.get level) (c.largest_pn level) + payload.length := by
      rw [← hpayload, List.length_append, List.length_replicate]
      exact hlen
    generalize c.header_of level cap payload.length = header
    obtain ⟨header, bits⟩ := header
    dsimp only
    cases hreach : reaches_aead cap header payload (c.next_pn.get level) (c.largest_pn level) with
    | true =>
      obtain ⟨data, hdata⟩ := seal_packet_ok send bits hreach hlen
      rw [hdata]
      exact .inr ⟨_, _, rfl, rfl, sendKey_of_level hkeys, rfl, send, _, _, _, _, _, rfl, hdata⟩
    | false =>
      obtain ⟨e, he⟩ := seal_packet_error send bits hreach
      rw [he]
      exact .inl ⟨rfl, rfl⟩

/-! ## What a draft holds -/

/-- A payload is empty, or it has the three bytes that every frame of a long packet has. -/
def Filled (p : Payload) : Prop := p.bytes = [] ∨ 3 ≤ p.bytes.length

theorem Filled.of_push {room : Nat} {frame : Frame} {p p' : Payload}
    (hframe : ∀ cap, Adds 3 (write_frame cap frame)) (h : p.push room frame = some p') :
    3 ≤ p'.bytes.length := by
  unfold Payload.push at h
  split at h
  · rename_i b hb
    cases h
    have := encode_length (hframe _) hb
    rw [List.length_append]
    omega
  · cases h

theorem filled_put_ack (level : Level) (room : Nat) {d : Draft B} (h : Filled d.2) :
    Filled (put_ack level room d).2 := by
  obtain ⟨c, p⟩ := d
  simp only [put_ack]
  split
  · split
    · rename_i p' hpush
      obtain ⟨ack, -, hpush⟩ := Option.bind_eq_some_iff.mp hpush
      exact .inr (Filled.of_push (fun cap => adds_ack cap ack) hpush)
    · exact h
  · exact h

theorem filled_write_tls_crypto_data (level : Level) (room : Nat) {d : Draft B} (h : Filled d.2) :
    Filled (write_tls_crypto_data level room d).2 := by
  obtain ⟨c, p⟩ := d
  simp only [write_tls_crypto_data]
  split
  · exact h
  · split
    · exact h
    · split
      · exact h
      · rename_i p' hpush
        exact .inr (Filled.of_push (fun cap => adds_crypto cap _) hpush)

/-! ## Where keys come from -/

/-- The key comes from a secret of its level. -/
def Derived : Level → Key B → Prop
  | .Initial, .initial _ => True
  | .Handshake, .negotiated aead => ∃ secret, HandshakeSecret B.toPrimitives secret ∧
      TrafficKey B.toPrimitives secret aead
  | .Application, .negotiated aead => ∃ secret, ApplicationSecret B.toPrimitives secret ∧
      TrafficKey B.toPrimitives secret aead
  | _, _ => False

/-- The send keys come from secrets of their level, and so will those of the next generation. -/
structure KeysDerived {X : Primitives} (k : ConnectionKeys X) : Prop where
  handshake : ∀ send ∈ k.handshake_send, ∃ secret, HandshakeSecret X secret ∧
    TrafficKey X secret send.aead
  application : ∀ send ∈ k.app_send, ∃ secret, ApplicationSecret X secret ∧
    TrafficKey X secret send.aead
  secret : k.key_update.send_secret = [] ∨ ApplicationSecret X k.key_update.send_secret

/-- So do the keys the engine has ready. -/
structure Provenance (c : Connection B) : Prop where
  keys : KeysDerived c.keys
  engine : ∀ e ∈ c.engine, e.Labelled B.toPrimitives

section Keys

variable {X : Primitives}

/-- There is no generation behind an empty secret. -/
theorem applicationSecret_next {secret next : Bytes}
    (h : secret = [] ∨ ApplicationSecret X secret)
    (hnext : derive_next_application_secret X.C.hkdf secret = .ok next) : ApplicationSecret X next := by
  rcases h with rfl | h
  · have herror : derive_next_application_secret X.C.hkdf [] = .error .Crypto := by
      unfold derive_next_application_secret hkdf_expand_label Hkdf.expand
      simp
    rw [herror] at hnext
    cases hnext
  · exact .next h hnext

theorem trafficKey_of_update {k : ConnectionKeys X} {secret hp_key : Bytes}
    {keys : DirectionalKeys X.C} (h : k.derive_key_update_keys secret hp_key = .ok keys) :
    TrafficKey X secret keys.aead := by
  unfold ConnectionKeys.derive_key_update_keys at h
  obtain ⟨key, hkey, h⟩ := except_bind_eq_ok h
  obtain ⟨iv, -, h⟩ := except_bind_eq_ok h
  obtain ⟨aead, haead, h⟩ := except_bind_eq_ok h
  obtain ⟨header_protection, -, h⟩ := except_bind_eq_ok h
  cases h
  exact ⟨_, key, hkey, haead⟩

theorem KeysDerived.rotate {k : ConnectionKeys X} (h : KeysDerived k)
    {send recv : DirectionalKeys X.C} {send_secret recv_secret : Bytes} {confirmed : Bool}
    {decrypted : Nat} (hsecret : ApplicationSecret X send_secret)
    (hsend : TrafficKey X send_secret send.aead) :
    KeysDerived (k.rotate send recv send_secret recv_secret confirmed decrypted) where
  handshake := h.handshake
  application := by
    rintro _ ⟨⟩
    exact ⟨send_secret, hsecret, hsend⟩
  secret := .inr hsecret

theorem derived_perform_key_update :
    Method.Keeps (Method.Preserves KeysDerived) (ConnectionKeys.perform_key_update (X := X)) := by
  intro k
  refine Method.kept_require fun _ => ?_
  refine kept_lift fun send_secret hsecret => kept_lift fun recv_secret _ => ?_
  refine kept_lift fun send hsend => kept_lift fun recv _ => ?_
  exact fun h => h.rotate (applicationSecret_next h.secret hsecret) (trafficKey_of_update hsend)

theorem derived_confirm_peer_key_update (new_recv_keys : DirectionalKeys X.C) :
    Method.Keeps (Method.Preserves KeysDerived)
      (ConnectionKeys.confirm_peer_key_update new_recv_keys) := by
  intro k
  refine kept_lift fun send_secret hsecret => kept_lift fun recv_secret _ => ?_
  refine kept_lift fun send hsend => ?_
  exact fun h => h.rotate (applicationSecret_next h.secret hsecret) (trafficKey_of_update hsend)

theorem derived_install {derived : DerivedKeys} (hsecret : TlsEngine.SecretOf X derived) :
    Method.Keeps (Method.Preserves KeysDerived) (ConnectionKeys.install_derived (X := X) derived) := by
  intro k
  refine kept_lift fun send hsend => kept_lift fun recv _ => ?_
  have hkey := trafficKey_of_derived hsend
  cases hlevel : derived.level with
  | Initial => exact id
  | Handshake =>
    simp only [TlsEngine.SecretOf, hlevel] at hsecret
    refine fun h => ⟨?_, h.application, h.secret⟩
    rintro _ ⟨⟩
    exact ⟨_, hsecret, hkey⟩
  | Application =>
    simp only [TlsEngine.SecretOf, hlevel] at hsecret
    refine Method.kept_bind (R := Method.Preserves KeysDerived) ?_ fun _ k' _ => ?_
    · refine fun h => ⟨h.handshake, ?_, .inr hsecret⟩
      rintro _ ⟨⟩
      exact ⟨_, hsecret, hkey⟩
    · refine kept_lift fun send_hp _ => kept_lift fun recv_hp _ => ?_
      exact fun h => ⟨h.handshake, h.application, h.secret⟩

end Keys

/-! ## Keys keep their provenance -/

/-- What every step keeps. -/
abbrev Traced : Connection B → Connection B → Prop := Method.Preserves Provenance

theorem traced_of_keys (hkeys : KeysDerived c.keys → KeysDerived c'.keys)
    (hengine : c'.engine = c.engine) : Traced c c' := by
  intro h
  refine ⟨hkeys h.keys, ?_⟩
  rw [hengine]
  exact h.engine

theorem traced_plain : KeptByPlain (B := B) Traced where
  state _ _ _ h := ⟨h.keys, h.engine⟩
  events _ _ h := ⟨h.keys, h.engine⟩
  remote_cid _ _ h := ⟨h.keys, h.engine⟩
  streams _ _ h := ⟨h.keys, h.engine⟩
  flow_control _ _ h := ⟨h.keys, h.engine⟩
  sio _ _ h := ⟨h.keys, h.engine⟩
  path_response _ _ h := ⟨h.keys, h.engine⟩

theorem traced_on_keys {α : Type} {m : Method (ConnectionKeys B.toPrimitives) Error α}
    (hm : Method.Keeps (Method.Preserves KeysDerived) m) :
    Method.Keeps Traced
      (Method.on (σ := Connection B) Connection.keys (fun keys c => { c with keys }) m) :=
  Method.keeps_on fun c => traced_of_keys (hm c.keys) rfl

theorem traced_ops : KeptByOps (B := B) Traced where
  toKeptByPlain := traced_plain
  closed _ h := ⟨h.keys, h.engine⟩
  pto _ _ h := ⟨h.keys, h.engine⟩
  close _ _ h := ⟨h.keys, h.engine⟩
  key_update := traced_on_keys derived_perform_key_update

theorem traced_map_tls {f : TlsEngine → TlsEngine}
    (hf : ∀ e, TlsEngine.Labelled B.toPrimitives e → TlsEngine.Labelled B.toPrimitives (f e))
    (c : Connection B) : Traced c (c.map_tls f) := by
  intro h
  refine ⟨h.keys, fun e he => ?_⟩
  rw [engine_map_tls] at he
  obtain ⟨e₀, he₀, rfl⟩ := Option.map_eq_some_iff.mp he
  exact hf e₀ (h.engine e₀ he₀)

theorem traced_on_tls {m : Method TlsEngine Error Unit}
    (hm : Method.Keeps (TlsEngine.Labels B.toPrimitives) m) : Method.Keeps Traced (on_tls (B := B) m) := by
  intro c
  rw [on_tls_run]
  exact traced_map_tls hm c

theorem traced_release (c : Connection B) : Traced c c.maybe_release_handshake_slot := by
  rcases maybe_release_cases c with heq | ⟨ctx, -, -, heq⟩
  · rw [heq]
    exact id
  · rw [heq]
    refine fun h => ⟨h.keys, ?_⟩
    rintro e ⟨⟩

theorem traced_discard_initial (c : Connection B) : Traced c c.discard_initial :=
  traced_of_keys (fun h => ⟨h.handshake, h.application, h.secret⟩) rfl

theorem traced_discard_handshake (c : Connection B) : Traced c c.discard_handshake := by
  refine traced_of_keys (fun h => ⟨?_, h.application, h.secret⟩) rfl
  rintro send ⟨⟩

theorem traced_connected (c : Connection B) :
    Traced c (push_event { c with state := .Active, address_validated := true } .Connected) := by
  have hactive : Traced c ({ c with state := .Active, address_validated := true } : Connection B) :=
    traced_of_keys id rfl
  exact IsTrans.trans _ _ _ hactive (traced_plain.push_event _ _)

theorem traced_keys_installed (level : Level) (c : Connection B) : Traced c (keys_installed level c) := by
  unfold keys_installed
  split
  · exact id
  · split
    · exact traced_discard_initial c
    · exact id
  · split
    · exact IsTrans.trans _ _ _ (traced_connected c) (traced_discard_handshake _)
    · exact id

theorem traced_keys_taken {c : Connection B} {ctx : HandshakeContext} {derived : DerivedKeys}
    (hslot : c.handshake_slot = some ctx) (hpending : ctx.tls.pending_keys = some derived) :
    Traced c (c.keys_taken ctx derived) := by
  intro h
  have hlabel := h.engine ctx.tls (by simp [engine, hslot])
  refine ⟨derived_install (hlabel derived hpending) c.keys h.keys, ?_⟩
  rintro e ⟨⟩ keys ⟨⟩

theorem traced_learn_params (c : Connection B) : Traced c c.learn_params := by
  unfold learn_params
  split
  · exact fun h => ⟨h.keys, h.engine⟩
  · exact id

theorem traced_check_tls_keys : Method.Keeps Traced (check_tls_keys (B := B)) := by
  intro c
  rcases check_tls_keys_cases c with heq | ⟨ctx, derived, hslot, hpending, heq | ⟨-, heq⟩⟩
  · rw [heq]
    exact traced_release c
  · rw [heq]
    exact traced_keys_taken hslot hpending
  · rw [heq]
    refine IsTrans.trans _ _ _ (traced_keys_taken hslot hpending) ?_
    refine IsTrans.trans _ _ _ (traced_keys_installed derived.level _) ?_
    exact IsTrans.trans _ _ _ (traced_learn_params _) (traced_release _)

theorem traced_handshake_done (c : Connection B) : Traced c c.handshake_done := by
  unfold handshake_done
  split
  · exact id
  · refine IsTrans.trans _ _ _ ?_ (traced_discard_handshake _)
    split
    · exact traced_connected c
    · exact id

theorem traced_dispatch_frame (level : Level) (now : Instant) (frame : Frame) :
    Method.Keeps Traced (dispatch_frame (B := B) level now frame) := by
  cases frame with
  | Ack ack =>
    exact keeps_seq (keeps_lift _) fun _ => Method.keeps_modify fun c h => ⟨h.keys, h.engine⟩
  | Crypto crypto =>
    refine handle_crypto_frame_keeps (fun level f c => ?_)
      (fun level msg => traced_on_tls (TlsEngine.labels_read_handshake level msg))
      traced_check_tls_keys level _ _
    exact traced_of_keys id (calm_map_reasm level f c).engine
  | HandshakeDone => exact Method.keeps_modify traced_handshake_done
  | _ => exact traced_plain.plain_frame rfl (fun _ => by simp) level now

theorem traced_learn_initial (hdr : InitialHeader) : Method.Keeps Traced (learn_initial (B := B) hdr) := by
  intro c
  have hcid : ∀ c : Connection B, Traced c (learn_remote_cid hdr c) := by
    intro c
    unfold learn_remote_cid
    split
    · exact traced_plain.remote_cid _ c
    · exact id
  have hrecord : ∀ c : Connection B, Traced c (record_cids hdr c) := by
    intro c
    unfold record_cids
    split
    · refine traced_map_tls (fun e he => ?_) c
      exact he
    · exact id
  rcases learn_initial_cases hdr c with ⟨-, heq⟩ | ⟨-, send, recv, heq⟩
  · rw [heq]
    exact hcid c
  · rw [heq]
    refine IsTrans.trans _ _ _ ?_ (hcid _)
    refine IsTrans.trans _ _ _ ?_ (hrecord _)
    exact traced_of_keys (fun h => ⟨h.handshake, h.application, h.secret⟩) rfl

theorem traced_open_phase (u : Unprotected) : Method.Keeps Traced (open_phase (B := B) u) := by
  refine keeps_seq keeps_get fun c => keeps_seq (Method.keeps_okOr _ _) ?_
  refine fun recv => Method.keeps_ite (fun c => ?_) ?_
  · unfold open_current
    split
    · exact traced_of_keys (fun h => ⟨h.handshake, h.application, h.secret⟩) rfl
    · split <;> exact id
  · refine keeps_seq keeps_get fun c => keeps_seq (keeps_lift _) ?_
    refine fun next => keeps_seq (keeps_lift _) fun payload => ?_
    exact keeps_seq (traced_on_keys (derived_confirm_peer_key_update _)) fun _ =>
      Method.keeps_pure _

theorem traced_transmit : KeptByTransmit (B := B) Traced := by
  refine .of_quiet (fun c c' _ hkeys hengine _ => ?_) ?_ (fun c => ?_) (fun frames c => ?_) traced_release
  · exact traced_of_keys (fun h => hkeys ▸ h) hengine
  · exact keeps_seq keeps_get fun _ =>
      Method.keeps_ite (traced_on_keys derived_perform_key_update) (Method.keeps_pure _)
  · exact traced_map_tls (TlsEngine.labels_write_handshake 2048) c
  · exact traced_of_keys (fun h => ⟨h.handshake, h.application, h.secret⟩) rfl

/-- No step leaves a key behind whose secret is not of its level. -/
theorem traced_step (s : Step) (c : Connection B) : Traced c (s.apply c) := by
  cases s with
  | arrive len now =>
    simp only [Step.apply, arrive]
    split <;> exact fun h => ⟨h.keys, h.engine⟩
  | open_packet kind pkt_data scratch_len =>
    exact open_kind_keeps traced_learn_initial traced_open_phase kind pkt_data scratch_len c
  | dispatch level now frame => exact traced_dispatch_frame level now frame c
  | initial_done =>
    simp only [Step.apply, initial_done]
    split
    · exact traced_discard_initial c
    · exact id
  | record pr =>
    simp only [Step.apply, record_packet]
    split <;> exact fun h => ⟨h.keys, h.engine⟩
  | check_tls_keys => exact traced_check_tls_keys c
  | op o =>
    by_cases ho : ∃ buf_len now, o = .poll_transmit buf_len now
    · obtain ⟨buf_len, now, rfl⟩ := ho
      exact traced_transmit.poll_transmit buf_len now c
    · exact traced_ops.op (fun buf_len now heq => ho ⟨buf_len, now, heq⟩) c

theorem provenance_started {c : Connection B} (h : Started c) : Provenance c := by
  cases hrole : c.role with
  | Client =>
    obtain ⟨⟨send, recv, hkeys⟩, config, secret_bytes, random, hengine⟩ := h.of_client hrole
    refine ⟨?_, ?_⟩
    · rw [hkeys]
      exact ⟨nofun, nofun, .inl rfl⟩
    · rw [hengine]
      rintro e ⟨⟩ keys ⟨⟩
  | Server =>
    obtain ⟨hkeys, config, secret_bytes, random, hengine⟩ := h.of_server hrole
    refine ⟨?_, ?_⟩
    · rw [hkeys]
      exact ⟨nofun, nofun, .inl rfl⟩
    · rw [hengine]
      rintro e ⟨⟩ keys ⟨⟩

/-! ## Counting -/

/-- What the number of a packet and its length depend on. -/
def pn_side (c : Connection B) : PerLevel Nat × PerLevel (Option Nat) :=
  (c.next_pn, c.largest_recv_pn)

theorem pn_side_fields : KeptByFields (B := B) (Method.Same pn_side) where
  keys _ _ := rfl
  slot _ _ := rfl
  state _ _ _ := rfl
  events _ _ := rfl
  remote_cid _ _ := rfl
  streams _ _ := rfl
  flow_control _ _ := rfl
  sio _ _ := rfl
  path_response _ _ := rfl

/-- Nothing is counted, and the keys keep their provenance. -/
def Idle (c c' : Connection B) : Prop := Method.Same pn_side c c' ∧ Traced c c'

instance : IsPreorder (Connection B) Idle where
  refl _ := ⟨rfl, id⟩
  trans _ _ _ h₁ h₂ := ⟨Eq.trans h₂.1 h₁.1, fun h => h₂.2 (h₁.2 h)⟩

theorem idle_drain : KeptByDrain (B := B) Idle :=
  .and (.of_fields pn_side_fields (fun _ => rfl) (fun _ _ => rfl) (fun _ _ => rfl) fun _ _ => rfl)
    traced_transmit.toKeptByDrain

theorem Idle.next_pn (h : Idle c c') : c'.next_pn = c.next_pn :=
  (Prod.mk.inj h.1).1

theorem Idle.pn_len (h : Idle c c') (level : Level) : c'.pn_len level = c.pn_len level := by
  unfold Connection.pn_len largest_pn
  rw [h.next_pn, (Prod.mk.inj h.1).2]

/-- The sealings of each level take the numbers from the next one on, with a key of the level. -/
structure Uses (c : Connection B) (ss : List (Sealing B)) (c' : Connection B) : Prop where
  numbers : ∀ level,
    numbers level ss = List.range' (c.next_pn.get level) (numbers level ss).length
  next : ∀ level, c'.next_pn.get level = c.next_pn.get level + (nonces.numbers level ss).length
  traced : Provenance c → Provenance c' ∧ ∀ s ∈ ss, Derived s.level s.key

theorem numbers_append (level : Level) (ss ss' : List (Sealing B)) :
    numbers level (ss ++ ss') = numbers level ss ++ numbers level ss' := by
  simp [numbers]

theorem uses_of_idle (h : Idle c c') : Uses c [] c' := by
  refine ⟨fun level => rfl, fun level => ?_, fun hc => ⟨h.2 hc, nofun⟩⟩
  rw [h.next_pn]
  rfl

theorem Uses.trans {c c' c'' : Connection B} {ss ss' : List (Sealing B)} (h₁ : Uses c ss c')
    (h₂ : Uses c' ss' c'') : Uses c (ss ++ ss') c'' := by
  refine ⟨fun level => ?_, fun level => ?_, fun hc => ?_⟩
  · rw [numbers_append, List.length_append, ← List.range'_append_1, ← h₁.next level,
      ← h₁.numbers level, ← h₂.numbers level]
  · rw [numbers_append, List.length_append, h₂.next level, h₁.next level]
    omega
  · obtain ⟨hc', hss⟩ := h₁.traced hc
    obtain ⟨hc'', hss'⟩ := h₂.traced hc'
    exact ⟨hc'', fun s hs => (List.mem_append.mp hs).elim (hss s) (hss' s)⟩

theorem Uses.idle {c c' c'' : Connection B} {ss : List (Sealing B)} (h : Uses c ss c')
    (hidle : Idle c' c'') : Uses c ss c'' := by
  have htrans := h.trans (uses_of_idle hidle)
  rwa [List.append_nil] at htrans

theorem Provenance.derived {c : Connection B} (h : Provenance c) {key : Key B}
    (hkey : SendKey c level key) : Derived level key := by
  cases level <;> cases key
  · trivial
  · cases hkey
  · cases hkey
  · obtain ⟨send, hsend, rfl⟩ := hkey
    exact h.keys.handshake send hsend
  · cases hkey
  · obtain ⟨send, hsend, rfl⟩ := hkey
    exact h.keys.application send hsend

/-- A number is used and the count moves on. -/
theorem uses_once {c d c' : Connection B} {key : Key B} {size : Nat}
    {ack_eliciting in_flight : Bool} {now : Instant} (hd : Idle c d) (hkey : SendKey d level key)
    (hc' : Idle (d.packet_sent level size ack_eliciting in_flight now) c') :
    Uses c [{ level, key, pn := d.next_pn.get level }] c' := by
  refine ⟨fun l => ?_, fun l => ?_, fun hc => ?_⟩
  · by_cases hl : level = l
    · subst hl
      simp [numbers, hd.next_pn]
    · simp [numbers, hl]
  · rw [hc'.next_pn]
    show (d.next_pn.set level (d.next_pn.get level + 1)).get l = _
    by_cases hl : level = l
    · subst hl
      simp [numbers, hd.next_pn]
    · simp [numbers, hl, hd.next_pn, Ne.symm hl]
  · have hd' := hd.2 hc
    refine ⟨hc'.2 ⟨hd'.keys, hd'.engine⟩, fun s hs => ?_⟩
    cases List.mem_singleton.mp hs
    exact hd'.derived hkey

/-- A builder's result beside what it seals. -/
def Accounts (c : Connection B) (ss : List (Sealing B)) (r : Option Packet × Connection B) : Prop :=
  Uses c ss r.2 ∧ List.Forall₂ Carries ss r.1.toList

theorem accounts_of_idle (h : Idle c c') : Accounts c [] (none, c') :=
  ⟨uses_of_idle h, .nil⟩

theorem accounts_of_seals {c d : Connection B} {pkt : Option Packet}
    {ss : List (Sealing B)} {r : Option Packet × Connection B} (hd : Idle c d)
    (hseals : SealsOnce level d pkt ss) (hnone : pkt = none → r = (none, d))
    (hsome : ∀ p, pkt = some p → r.1 = some p ∧ ∃ size ack_eliciting in_flight now,
      Idle (d.packet_sent level size ack_eliciting in_flight now) r.2) : Accounts c ss r := by
  rcases hseals with ⟨hpkt, rfl⟩ | ⟨p, key, hpkt, rfl, hkey, hcarries⟩
  · rw [hnone hpkt]
    exact accounts_of_idle hd
  · obtain ⟨hr, size, ack_eliciting, in_flight, now, hidle⟩ := hsome p hpkt
    refine ⟨uses_once hd hkey hidle, ?_⟩
    rw [hr]
    exact .cons hcarries .nil

/-! ## Builders -/

theorem accounts_build_initial (cap : Nat) (now : Instant) (c : Connection B) :
    Accounts c (build_initial_sealings cap c) (c.build_initial_packet cap now) := by
  unfold build_initial_packet build_initial_sealings
  dsimp only
  split
  · exact accounts_of_idle (refl c)
  · have hack := fun room => idle_drain.ack .Initial room (c, .empty)
    have hempty : Filled Payload.empty := .inl rfl
    generalize hd : (if cap ≥ MIN_INITIAL_PACKET_SIZE then
      write_tls_crypto_data .Initial _ (put_ack .Initial _ (c, .empty))
      else put_ack .Initial _ (c, .empty)) = d
    have hdrain : Idle c d.1 ∧ Filled d.2 := by
      rw [← hd]
      split
      · exact ⟨IsTrans.trans _ _ _ (hack _) (idle_drain.crypto .Initial _ _),
          filled_write_tls_crypto_data _ _ (filled_put_ack _ _ hempty)⟩
      · exact ⟨hack _, filled_put_ack _ _ hempty⟩
    split
    · exact accounts_of_idle hdrain.1
    · rename_i hbytes
      refine accounts_of_seals hdrain.1
        (seal_initial_once cap _ (hdrain.2.resolve_left hbytes)) (fun hnone => ?_) fun p hp => ?_
      · rw [Option.map_eq_none_iff.mp hnone]
      · obtain ⟨⟨pkt, padding_needed⟩, hseal, rfl⟩ := Option.map_eq_some_iff.mp hp
        rw [hseal]
        exact ⟨rfl, _, _, _, now, refl _⟩

theorem accounts_build_handshake (cap : Nat) (now : Instant) (c : Connection B) :
    Accounts c (build_handshake_sealings cap c) (c.build_handshake_packet cap now) := by
  unfold build_handshake_packet build_handshake_sealings
  dsimp only
  split
  · exact accounts_of_idle (refl c)
  · have hdrain := fun room => IsTrans.trans _ _ _ (idle_drain.ack .Handshake room (c, .empty))
      (idle_drain.crypto .Handshake room _)
    have hfilled := fun room => filled_write_tls_crypto_data .Handshake room
      (filled_put_ack .Handshake room (d := (c, .empty)) (.inl rfl))
    split
    · exact accounts_of_idle (hdrain _)
    · rename_i hbytes
      have hlen := (hfilled _).resolve_left hbytes
      refine accounts_of_seals (hdrain _) (seal_level_once ?_) (fun hnone => ?_) fun p hp => ?_
      · have hpos : 1 ≤ c.pn_len .Handshake := pn_length_pos _ _
        rw [(hdrain _).pn_len]
        dsimp only
        omega
      · rw [hnone]
      · rw [hp]
        exact ⟨rfl, _, _, _, now, refl _⟩

theorem accounts_build_short (cap : Nat) (now : Instant) (c : Connection B) :
    Accounts c (build_short_sealings cap c) (c.build_short_packet cap now) := by
  unfold build_short_packet build_short_sealings
  dsimp only
  split
  · exact accounts_of_idle (refl c)
  · have hdrain := idle_drain.drain_short (cap - (1 + c.remote_cid.length + c.pn_len .Application)) c
    split
    · exact accounts_of_idle hdrain
    · refine accounts_of_seals hdrain (seal_level_once ?_) (fun hnone => ?_) fun p hp => ?_
      · rw [hdrain.pn_len]
        unfold sample_padding tag_len
        omega
      · rw [hnone]
      · rw [hp]
        exact ⟨rfl, _, _, _, now, idle_drain.short_sent _ _⟩

theorem accounts_build_close (level : Level) (close : ConnectionCloseFrame) (buf_len : Nat)
    (now : Instant) (c : Connection B) :
    Accounts c (build_close_sealings level (.ConnectionClose close) buf_len c)
      (c.build_close_packet level (.ConnectionClose close) buf_len now) := by
  unfold build_close_packet build_close_sealings
  cases hpush : Payload.push 128 (.ConnectionClose close) .empty with
  | none => exact accounts_of_idle (refl c)
  | some p =>
    dsimp only
    have hbytes : 3 ≤ p.bytes.length := Filled.of_push (fun cap => adds_connection_close cap close) hpush
    have hpadded : 4 ≤ c.pn_len level +
        (p.bytes.length + sample_padding (c.pn_len level) p.bytes.length) := by
      have hpos : 1 ≤ c.pn_len level := pn_length_pos _ _
      omega
    cases level with
    | Initial =>
      refine accounts_of_seals (d := c) (refl c) (seal_initial_once buf_len _ (d := (c, p)) hbytes)
        (fun hnone => ?_) fun pkt hp => ?_
      · rw [hnone]
      · rw [hp]
        exact ⟨rfl, _, _, _, now, refl _⟩
    | Handshake =>
      dsimp only
      refine accounts_of_seals (d := c) (refl c) (seal_level_once (d := (c, p)) hpadded)
        (fun hnone => ?_) fun pkt hp => ?_
      · rw [hnone]
      · rw [hp]
        exact ⟨rfl, _, _, _, now, refl _⟩
    | Application =>
      dsimp only
      refine accounts_of_seals (d := c) (refl c) (seal_level_once (d := (c, p)) hpadded)
        (fun hnone => ?_) fun pkt hp => ?_
      · rw [hnone]
      · rw [hp]
        exact ⟨rfl, _, _, _, now, idle_drain.short_sent _ _⟩

theorem accounts_with_keys (level : Level) {build : Connection B → Option Packet × Connection B}
    {ss : Connection B → List (Sealing B)} (h : ∀ c, Accounts c (ss c) (build c)) (c : Connection B) :
    Accounts c (sealings_with_keys level ss c) (c.build_with_keys level build) := by
  unfold sealings_with_keys build_with_keys
  split
  · exact h c
  · exact accounts_of_idle (refl c)

theorem build_packets_uses (buf_len : Nat) (now : Instant) (c : Connection B) :
    Uses c (build_sealings buf_len now c) (c.build_packets buf_len now).2 ∧
      List.Forall₂ Carries (build_sealings buf_len now c) (c.build_packets buf_len now).1 := by
  unfold build_packets build_long_packets build_sealings
  dsimp only
  have h₁ := accounts_with_keys .Initial (accounts_build_initial buf_len now) c
  generalize c.build_with_keys .Initial _ = r₁ at h₁ ⊢
  have h₂ := accounts_with_keys .Handshake
    (accounts_build_handshake (buf_len - packet_length r₁.1) now) r₁.2
  generalize r₁.2.build_with_keys .Handshake _ = r₂ at h₂ ⊢
  have h₃ := accounts_with_keys .Application
    (accounts_build_short (buf_len - packet_length r₁.1 - packet_length r₂.1) now)
    r₂.2.maybe_release_handshake_slot
  have hrelease := uses_of_idle (idle_drain.release r₂.2)
  refine ⟨(h₁.1.trans h₂.1).trans (hrelease.trans h₃.1), ?_⟩
  exact List.rel_append (List.rel_append h₁.2 h₂.2) h₃.2

/-! ## Transmitting -/

/-- What a call of `poll_transmit` uses, and what the datagram it returns carries. -/
def Transmits (c : Connection B) (ss : List (Sealing B)) (r : Option Transmit × Connection B) :
    Prop :=
  Uses c ss r.2 ∧ ∀ t, r.1 = some t → List.Forall₂ Carries ss t.packets

theorem transmits_emit {ss : List (Sealing B)} {packets : List Packet}
    (huses : Uses c ss c') (hcarries : List.Forall₂ Carries ss packets) :
    Transmits c ss (c'.emit packets) := by
  unfold emit
  dsimp only
  split
  · exact ⟨huses, nofun⟩
  · split
    · refine ⟨huses, ?_⟩
      rintro t ⟨⟩
      exact hcarries
    · split
      · refine ⟨huses.idle ⟨rfl, traced_transmit.emitted _ c'⟩, ?_⟩
        rintro t ⟨⟩
        exact hcarries
      · exact ⟨huses, nofun⟩

theorem transmits_transmit (buf_len : Nat) (now : Instant) (c : Connection B) :
    Transmits c (transmit_sealings buf_len now c) (c.transmit buf_len now) := by
  unfold transmit transmit_sealings
  cases c.close_frame with
  | none =>
    have h := build_packets_uses buf_len now c
    exact transmits_emit h.1 h.2
  | some close =>
    obtain ⟨error_code, reason⟩ := close
    dsimp only
    unfold transmit_close
    cases c.close_level with
    | none => exact ⟨uses_of_idle (refl c), nofun⟩
    | some level =>
      dsimp only
      have h := accounts_build_close level
        { is_application := false, error_code, frame_type := 0, reason } buf_len now c
      refine ⟨h.1.idle (idle_drain.closed _), fun t ht => ?_⟩
      obtain ⟨pkt, hpkt, rfl⟩ := Option.map_eq_some_iff.mp ht
      have hcarries := h.2
      rw [hpkt] at hcarries
      exact hcarries

theorem poll_transmit_uses (buf_len : Nat) (now : Instant) (c : Connection B) :
    Transmits c (poll_sealings buf_len now c) (c.poll_transmit buf_len now) := by
  unfold poll_transmit poll_sealings
  have hkeys := idle_drain.key_update c
  split
  · exact ⟨uses_of_idle (refl c), nofun⟩
  · split
    · exact ⟨uses_of_idle (refl c), nofun⟩
    · rcases hrun : auto_key_update c with ⟨e | u, c₁⟩
      · rw [hrun] at hkeys
        exact ⟨uses_of_idle (IsTrans.trans _ _ _ hkeys (idle_drain.closed c₁)), nofun⟩
      · rw [hrun] at hkeys
        have h := transmits_transmit buf_len now c₁.rewind_crypto
        have hidle := uses_of_idle (IsTrans.trans _ _ _ hkeys (idle_drain.rewind c₁))
        exact ⟨hidle.trans h.1, h.2⟩

/-! ## Runs -/

theorem next_pn_updates : KeptByUpdates (B := B) (Method.Same Connection.next_pn) where
  keys _ _ := rfl
  slot _ _ := rfl
  state _ _ _ := rfl
  events _ _ := rfl
  remote_cid _ _ := rfl
  streams _ _ := rfl
  flow_control _ _ := rfl
  sio _ _ := rfl
  path_response _ _ := rfl
  record pr c := by
    unfold record_packet
    split <;> rfl
  validated _ := rfl
  drop_space _ _ := rfl
  peer_params _ _ _ _ := rfl
  ack _ _ _ _ _ := rfl
  closed _ := rfl
  pto _ _ := rfl
  close _ _ := rfl
  key_update := Method.keeps_on fun _ => rfl

/-- A step other than `poll_transmit` seals nothing and counts nothing. -/
theorem next_pn_step {s : Step} (htransmit : ∀ buf_len now, s ≠ .op (.poll_transmit buf_len now))
    (c : Connection B) : (s.apply c).next_pn = c.next_pn := by
  by_cases harrive : ∃ len now, s = .arrive len now
  · obtain ⟨len, now, rfl⟩ := harrive
    simp only [Step.apply, arrive]
    split <;> rfl
  · exact next_pn_updates.step (fun len now heq => harrive ⟨len, now, heq⟩) htransmit c

theorem uses_step (s : Step) (c : Connection B) : Uses c (sealings c s) (s.apply c) := by
  by_cases hpoll : ∃ buf_len now, s = .op (.poll_transmit buf_len now)
  · obtain ⟨buf_len, now, rfl⟩ := hpoll
    exact (poll_transmit_uses buf_len now c).1
  · have hnothing : sealings c s = [] := by
      unfold sealings
      split
      · exact absurd ⟨_, _, rfl⟩ hpoll
      · rfl
    have hnext := next_pn_step (fun buf_len now heq => hpoll ⟨buf_len, now, heq⟩) c
    rw [hnothing]
    refine ⟨fun level => rfl, fun level => ?_, fun hc => ⟨traced_step s c hc, nofun⟩⟩
    rw [hnext]
    rfl

theorem carries_step (s : Step) (c : Connection B) :
    List.Forall₂ Carries (returned_sealings c s) (((datagram c s).map (·.packets)).getD []) := by
  unfold returned_sealings
  cases hdatagram : datagram c s with
  | none => exact .nil
  | some t =>
    unfold datagram at hdatagram
    split at hdatagram
    · rename_i buf_len now
      exact (poll_transmit_uses buf_len now c).2 t hdatagram
    · cases hdatagram

theorem uses_run (c : Connection B) (steps : List Step) : Uses c (sealed c steps) (c.after steps) := by
  induction steps generalizing c with
  | nil => exact uses_of_idle (refl c)
  | cons s steps ih => exact (uses_step s c).trans (ih (s.apply c))

/-- The packets of the datagrams a run returns are what was sealed for them. -/
theorem carries_run (c : Connection B) (steps : List Step) :
    List.Forall₂ Carries (returned c steps) (packets c steps) := by
  induction steps generalizing c with
  | nil => exact .nil
  | cons s steps ih => exact List.rel_append (carries_step s c) (ih (s.apply c))

theorem returned_sublist (c : Connection B) (steps : List Step) :
    (returned c steps).Sublist (sealed c steps) := by
  induction steps generalizing c with
  | nil => exact .slnil
  | cons s steps ih =>
    refine List.Sublist.append ?_ (ih (s.apply c))
    dsimp only [returned_sealings]
    split
    · exact List.Sublist.refl _
    · exact List.nil_sublist _

/-! ## Nonces -/

/-- No two levels were given the same key. -/
def KeysDiffer (ss : List (Sealing B)) : Prop :=
  ∀ a ∈ ss, ∀ b ∈ ss, a.level ≠ b.level → ¬ SameKey a.key b.key

theorem Uses.increasing {ss : List (Sealing B)} (h : Uses c ss c')
    (level : Level) : (nonces.numbers level ss).Pairwise (· < ·) := by
  rw [h.numbers level]
  exact List.pairwise_lt_range'

/-- All packets a connection seals have different pairs of key and packet number, also those that
are never sent, if the keys its levels were given are different ones. They are keys of secrets of
their level, and the packet numbers of the datagrams it returns go up within a level. -/
theorem no_nonce_is_used_twice {c : Connection B} (h : Started c) (cs : List Call)
    (hdiffer : KeysDiffer (sealed c (c.steps cs))) :
    (sealed c (c.steps cs)).Pairwise (fun a b => ¬ (SameKey a.key b.key ∧ a.pn = b.pn)) ∧
    (∀ s ∈ sealed c (c.steps cs), Derived s.level s.key) ∧
    List.Forall₂ Carries (returned c (c.steps cs)) (packets c (c.steps cs)) ∧
    ∀ level, (numbers level (returned c (c.steps cs))).Pairwise (· < ·) := by
  have huses := uses_run c (c.steps cs)
  refine ⟨?_, (huses.traced (provenance_started h)).2, carries_run c _, fun level => ?_⟩
  · rw [List.pairwise_iff_getElem]
    rintro i j hi hj hij ⟨hkey, hpn⟩
    by_cases hlevel : (sealed c (c.steps cs))[i].level = (sealed c (c.steps cs))[j].level
    · -- Within a level the numbers go up.
      have hup := huses.increasing (sealed c (c.steps cs))[i].level
      simp only [numbers, List.pairwise_map, List.pairwise_filter, decide_eq_true_eq] at hup
      have hlt := List.pairwise_iff_getElem.mp hup i j hi hj hij rfl hlevel.symm
      omega
    · exact hdiffer _ (List.getElem_mem hi) _ (List.getElem_mem hj) hlevel hkey
  · refine (huses.increasing level).sublist ?_
    exact ((returned_sublist c _).filter _).map _

/-! ## A first flight -/

/-- The bytes of a key of the stand-in. -/
def key_bytes : Key standin.build → Bytes
  | .initial aead => aead
  | .negotiated aead => aead

theorem key_bytes_of_same {a b : Key standin.build} (h : SameKey a b) : key_bytes a = key_bytes b := by
  have hbytes : ∀ {key aead : Bytes}, standin.key_of 16 key = .ok aead → aead = key := by
    intro key aead hkey
    unfold standin.key_of at hkey
    split at hkey
    · cases hkey
      rfl
    · cases hkey
  cases a <;> cases b
  · exact h
  · obtain ⟨key, ha, hb⟩ := h
    exact (hbytes ha).trans (hbytes hb).symm
  · obtain ⟨key, hb, ha⟩ := h
    exact (hbytes ha).trans (hbytes hb).symm
  · exact h

def answering_server : Connection standin.build := standin.server .default_params

/-- A ClientHello arrives and the server answers it. -/
def answering_calls : List Call :=
  [(standin.deliver (standin.client .default_params) answering_server).2.1,
    .op (.poll_transmit 1500 0)]

/-- The first flight of a server has two packets with the number 0, under different keys. -/
theorem first_flight_has_two_nonces :
    let ss := sealed answering_server (answering_server.steps answering_calls)
    ss.map (fun s => (s.level, s.pn)) = [(.Initial, 0), (.Handshake, 0)] ∧
    ss.Pairwise (fun a b => ¬ (SameKey a.key b.key ∧ a.pn = b.pn)) ∧
    (∀ s ∈ ss, Derived s.level s.key) ∧
    List.Forall₂ Carries (returned answering_server (answering_server.steps answering_calls))
      (packets answering_server (answering_server.steps answering_calls)) ∧
    ∀ level, (numbers level
      (returned answering_server (answering_server.steps answering_calls))).Pairwise (· < ·) := by
  have hrun : ((sealed answering_server (answering_server.steps answering_calls)).map
        fun s => key_bytes s.key).Nodup ∧
      (sealed answering_server (answering_server.steps answering_calls)).map
        (fun s => (s.level, s.pn)) = [(.Initial, 0), (.Handshake, 0)] := by decide +kernel
  obtain ⟨hkeys, hnumbers⟩ := hrun
  refine ⟨hnumbers, no_nonce_is_used_twice (.server _ _ _ _ _) answering_calls ?_⟩
  intro a ha b hb hlevel hsame
  exact hlevel (congrArg _ (List.inj_on_of_nodup_map hkeys ha hb (key_bytes_of_same hsame)))

end milli_http.connection.nonces
