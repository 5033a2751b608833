-- Which parts of a connection a step can touch. The laws that follow look only at the
-- steps that touch their part.
import MilliHttp.Connection.Steps

open bytes method
open method.Method (bind_run keeps_seq keeps_modify keeps_get keeps_pure keeps_ite keeps_require
  keeps_lift keeps_on)

namespace milli_http.connection

open crypto tls transport packet frame

variable {B : Build} {cap padding_needed : Nat} {pad_to_min : Bool} {pkt : Packet} {level : Level}

namespace Connection

/-! ## Installing keys -/

/-- All that looking for keys can do: there are none, or the engine hands them out. -/
theorem install_ready_keys_cases (c : Connection B) :
    (c.handshake_slot.bind (·.tls.pending_keys) = none ∧ install_ready_keys c = (.ok (), c)) ∨
    ∃ ctx derived, c.handshake_slot = some ctx ∧ ctx.tls.pending_keys = some derived ∧
      install_ready_keys c = install_keys derived { c with
        handshake_slot := some { ctx with tls := { ctx.tls with pending_keys := none } } } := by
  unfold install_ready_keys
  rw [Method.get_bind_run]
  cases hp : c.handshake_slot.bind (·.tls.pending_keys) with
  | none => exact .inl ⟨rfl, rfl⟩
  | some derived =>
    obtain ⟨ctx, hctx, hderived⟩ := Option.bind_eq_some_iff.mp hp
    refine .inr ⟨ctx, derived, hctx, hderived, ?_⟩
    dsimp only
    rw [bind_run, Method.modify_run]
    simp only [map_tls, hctx, Option.map_some, TlsEngine.derived_keys]

/-- The check for keys ends with the release of the slot, unless the keys do not install. -/
theorem check_tls_keys_run (c : Connection B) :
    check_tls_keys c = match install_ready_keys c with
      | (.ok _, c) => (.ok (), c.maybe_release_handshake_slot)
      | (.error e, c) => (.error e, c) := by
  unfold check_tls_keys
  rw [bind_run]
  rcases install_ready_keys c with ⟨_ | _, c'⟩ <;> rfl

theorem maybe_release_cases (c : Connection B) :
    c.maybe_release_handshake_slot = c ∨
    ∃ ctx, c.handshake_slot = some ctx ∧ c.can_release ctx = true ∧
      c.maybe_release_handshake_slot = { c with handshake_slot := none } := by
  unfold maybe_release_handshake_slot
  cases hs : c.handshake_slot with
  | none => exact .inl rfl
  | some ctx =>
    dsimp only
    split
    · exact .inr ⟨ctx, rfl, ‹_›, rfl⟩
    · exact .inl rfl

/-! ## The CRYPTO loop -/

section CryptoLoop

variable {R : Connection B → Connection B → Prop} [IsPreorder (Connection B) R]

theorem check_tls_keys_keeps (hready : Method.Keeps R (install_ready_keys (B := B)))
    (hrelease : ∀ c, R c c.maybe_release_handshake_slot) :
    Method.Keeps R (check_tls_keys (B := B)) :=
  keeps_seq hready fun _ => keeps_modify hrelease

/-- A CRYPTO frame is a round of reassembling, reading messages and checking for keys. -/
theorem handle_crypto_frame_keeps (hreasm : ∀ level f c, R c (map_reasm level f c))
    (hread : ∀ level msg,
      Method.Keeps R (on_tls (B := B) (TlsEngine.read_handshake B.toPrimitives level msg)))
    (hcheck : Method.Keeps R (check_tls_keys (B := B))) (level : Level) (offset : Nat)
    (data : Bytes) : Method.Keeps R (handle_crypto_frame (B := B) level offset data) := by
  have hmessage : Method.Keeps R (deliver_message (B := B) level) := by
    refine keeps_seq keeps_get fun c => ?_
    split
    · exact keeps_pure _
    · refine keeps_seq (hread _ _) fun _ => ?_
      refine keeps_seq (keeps_modify (hreasm _ _)) fun _ => ?_
      exact keeps_seq hcheck fun _ => keeps_pure _
  have hmessages : ∀ fuel, Method.Keeps R (deliver_messages (B := B) level fuel) := by
    intro fuel
    induction fuel with
    | zero => exact keeps_pure _
    | succ fuel ih =>
      exact keeps_seq hmessage fun _ => keeps_ite ih (keeps_pure _)
  refine keeps_seq keeps_get fun c => ?_
  split
  · exact keeps_pure _
  · refine keeps_seq (keeps_require _ _) fun _ => ?_
    refine keeps_seq (keeps_lift _) fun reasm => ?_
    exact keeps_seq (keeps_modify (hreasm _ _)) fun _ => hmessages _

end CryptoLoop

/-! ## Opening packets -/

section Opening

variable {R : Connection B → Connection B → Prop} [IsPreorder (Connection B) R]

theorem learn_initial_keeps {hdr : InitialHeader}
    (hkeys : Method.Keeps R (learn_initial_keys (B := B) hdr))
    (hcid : ∀ c, R c (learn_remote_cid hdr c)) : Method.Keeps R (learn_initial (B := B) hdr) :=
  keeps_seq hkeys fun _ => keeps_modify hcid

/-- A server records the ids its transport parameters have to carry. -/
def record_cids (hdr : InitialHeader) (c : Connection B) : Connection B :=
  if c.role = .Server then c.map_tls (·.set_transport_param_cids hdr.dcid c.local_scid) else c

/-- All that an Initial header can teach: the peer's id, and keys if there are none. -/
theorem learn_initial_cases (hdr : InitialHeader) (c : Connection B) :
    (c.keys.initial_recv.isSome ∧ learn_initial hdr c = (.ok (), learn_remote_cid hdr c)) ∨
    (c.keys.initial_recv = none ∧ ∃ send recv,
      learn_initial hdr c = (.ok (), learn_remote_cid hdr (record_cids hdr { c with
        keys := { c.keys with initial_send := some send, initial_recv := some recv } }))) := by
  have hrun : learn_initial hdr c = ((if c.keys.has_recv_keys .Initial then pure () else do
      Method.on Connection.keys (fun keys c => { c with keys })
        (ConnectionKeys.derive_initial hdr.dcid (decide (c.role = Role.Client)))
      Method.modify (record_cids hdr)) >>= fun _ => Method.modify (learn_remote_cid hdr)) c := rfl
  rw [hrun]
  cases hrecv : c.keys.initial_recv with
  | some recv =>
    left
    simp [ConnectionKeys.has_recv_keys, hrecv, bind_run]
  | none =>
    obtain ⟨client_keys, server_keys, hkeys⟩ := ConnectionKeys.initial_keys_ok B.toPrimitives hdr.dcid
    right
    refine ⟨rfl, ?_⟩
    by_cases hrole : c.role = .Client
    · refine ⟨client_keys, server_keys, ?_⟩
      simp [ConnectionKeys.has_recv_keys, hrecv, bind_run, ConnectionKeys.derive_initial, hkeys,
        hrole]
    · refine ⟨server_keys, client_keys, ?_⟩
      simp [ConnectionKeys.has_recv_keys, hrecv, bind_run, ConnectionKeys.derive_initial, hkeys,
        hrole]

/-- Opening a packet changes what an Initial header teaches and what opening a 1-RTT payload
does to the keys. -/
theorem open_kind_keeps (hinitial : ∀ hdr, Method.Keeps R (learn_initial (B := B) hdr))
    (hphase : ∀ u, Method.Keeps R (open_phase (B := B) u)) (kind : PacketKind) (pkt_data : Bytes)
    (scratch_len : Nat) (c : Connection B) : R c (c.open_kind kind pkt_data scratch_len).2 := by
  cases kind with
  | Initial =>
    simp only [open_kind, open_initial]
    split
    · exact refl c
    · exact refl c
    · rename_i hdr _
      have h := hinitial hdr c
      split
      · rename_i heq
        rwa [heq] at h
      · rename_i heq
        rw [heq] at h
        split <;> exact h
  | Handshake =>
    simp only [open_kind, open_handshake]
    split
    · exact refl c
    · exact refl c
    · split <;> exact refl c
  | Short =>
    simp only [open_kind, open_short]
    split
    · exact refl c
    · exact refl c
    · rename_i u _
      have h := hphase u c
      split
      · exact refl c
      · split <;> rename_i heq <;> rwa [heq] at h

end Opening

/-! ## Sizes -/

/-- A sealed packet fits its buffer. -/
theorem encrypt_and_protect_fits {P : CryptoProvider} {send : DirectionalKeys P} {bits : UInt8}
    {cap pn : Nat} {header pn_bytes payload data : Bytes}
    (h : encrypt_and_protect send bits cap header pn_bytes payload pn = .ok data) :
    data.length ≤ cap := by
  unfold encrypt_and_protect at h
  dsimp only at h
  split at h
  · cases h
  · rename_i hcap
    split at h
    · cases h
    · cases h
      simp only [tag_len, List.length_append, List.length_modifyHead, List.length_zipWith,
        P.seal_length, TAG_LEN] at hcap ⊢
      omega

theorem seal_packet_fits {P : CryptoProvider} {send : DirectionalKeys P} {bits : UInt8}
    {cap pn largest_acked : Nat} {header : Except Error Bytes} {payload data : Bytes}
    (h : seal_packet send bits cap header payload pn largest_acked = .ok data) :
    data.length ≤ cap := by
  unfold seal_packet at h
  obtain ⟨hdr, -, h⟩ := except_bind_eq_ok h
  obtain ⟨pn_bytes, -, h⟩ := except_bind_eq_ok h
  exact encrypt_and_protect_fits h

theorem seal_initial_fits {d : Draft B}
    (h : seal_initial cap pad_to_min d = some (pkt, padding_needed)) : pkt.data.length ≤ cap := by
  unfold seal_initial at h
  dsimp only at h
  split at h
  · cases h
  · split at h
    · cases h
    · split at h
      · cases h
      · rename_i hseal
        cases h
        exact seal_packet_fits hseal

theorem seal_level_fits {d : Draft B}
    (h : seal_level level cap padding_needed d = some pkt) : pkt.data.length ≤ cap := by
  unfold seal_level at h
  dsimp only at h
  split at h
  · cases h
  · split at h
    · cases h
    · rename_i hseal
      cases h
      exact seal_packet_fits hseal

/-! ## Building packets -/

/-- The relation is kept by everything that happens to a connection before a packet is sealed,
and by what follows its booking. -/
structure KeptByPackets (R : Connection B → Connection B → Prop) : Prop where
  key_update : Method.Keeps R (auto_key_update (B := B))
  rewind : ∀ c, R c c.rewind_crypto
  ack : ∀ level room d, R d.1 (put_ack level room d).1
  crypto : ∀ level room d, R d.1 (write_tls_crypto_data level room d).1
  path_response : ∀ room d, R d.1 (put_path_response room d).1
  max_data : ∀ room d, R d.1 (put_max_data room d).1
  max_stream_data : ∀ stream_id c,
    R c { c with streams := c.streams.mark_max_stream_data_sent stream_id }
  streams : ∀ room d, R d.1 (put_streams room d).1
  short_sent : ∀ frames c, R c (short_sent frames c)
  release : ∀ c, R c c.maybe_release_handshake_slot

/-- And by closing the connection. -/
structure KeptByDrain (R : Connection B → Connection B → Prop) : Prop extends KeptByPackets R where
  closed : ∀ c, R c { c with state := .Closed }

/-- The packet is what sealing the draft yields. -/
def Sealed (cap : Nat) (d : Draft B) (pkt : Packet) : Prop :=
  match pkt.level with
  | .Initial => ∃ pad_to_min padding, seal_initial cap pad_to_min d = some (pkt, padding)
  | level => ∃ padding, seal_level level cap padding d = some pkt

/-- The packet is counted as in flight: it asks for an acknowledgement, or it is one of the
Initial packets a client pads. -/
def Flies (c : Connection B) (pkt : Packet) : Prop :=
  pkt.frames.any is_ack_eliciting = true ∨ pkt.level = .Initial ∧ c.role = .Client

instance (c : Connection B) (pkt : Packet) : Decidable (Flies c pkt) :=
  inferInstanceAs (Decidable (_ ∨ _))

/-- All that building a packet can do: frames are drained, and then a packet is sealed and
booked, or none is. -/
def Builds (R : Connection B → Connection B → Prop) (level : Level) (cap : Nat) (now : Instant)
    (c : Connection B) (r : Option Packet × Connection B) : Prop :=
  (r.1 = none ∧ R c r.2) ∨
  ∃ d p pkt ack_eliciting in_flight, R c d ∧ r.1 = some pkt ∧ pkt.level = level ∧
    Sealed cap (d, p) pkt ∧ (in_flight = true → Flies c pkt) ∧
    R (d.packet_sent level pkt.data.length ack_eliciting in_flight now) r.2

theorem initial_padding_of_not {base_header pn_len frame_len : Nat} :
    (initial_padding base_header pn_len frame_len false).1 = 0 := by
  simp [initial_padding]

/-- A sealed Initial packet has the frames of its draft, and is padded only if it has to be. -/
theorem seal_initial_packet {d : Draft B}
    (h : seal_initial cap pad_to_min d = some (pkt, padding_needed)) :
    pkt.level = .Initial ∧ pkt.frames = d.2.frames ∧ (padding_needed > 0 → pad_to_min = true) := by
  unfold seal_initial at h
  dsimp only at h
  split at h
  · cases h
  · split at h
    · cases h
    · split at h
      · cases h
      · cases h
        refine ⟨rfl, rfl, fun hpad => ?_⟩
        cases pad_to_min with
        | true => rfl
        | false =>
          rw [initial_padding_of_not] at hpad
          omega

theorem seal_level_packet {d : Draft B} (h : seal_level level cap padding_needed d = some pkt) :
    pkt.level = level ∧ pkt.frames = d.2.frames := by
  unfold seal_level at h
  dsimp only at h
  split at h
  · cases h
  · split at h
    · cases h
    · cases h
      exact ⟨rfl, rfl⟩

theorem sealed_of_level {d : Draft B}
    (h : seal_level level cap padding_needed d = some pkt) (hlevel : level ≠ .Initial) :
    Sealed cap d pkt := by
  unfold Sealed
  rw [(seal_level_packet h).1]
  cases level with
  | Initial => exact absurd rfl hlevel
  | Handshake => exact ⟨_, h⟩
  | Application => exact ⟨_, h⟩

theorem sealed_of_initial {d : Draft B}
    (h : seal_initial cap pad_to_min d = some (pkt, padding_needed)) : Sealed cap d pkt := by
  unfold Sealed
  rw [(seal_initial_packet h).1]
  exact ⟨_, _, h⟩

theorem build_with_keys_keeps {R : Connection B → Connection B → Prop}
    [IsPreorder (Connection B) R] {build : Connection B → Option Packet × Connection B}
    (hbuild : ∀ c, R c (build c).2) (c : Connection B) : R c (c.build_with_keys level build).2 := by
  unfold Connection.build_with_keys
  split
  · exact hbuild c
  · exact refl c

namespace KeptByPackets

variable {R : Connection B → Connection B → Prop} [IsPreorder (Connection B) R]
  (h : KeptByPackets R)

include h

theorem put_max_stream_data (room fuel : Nat) (d : Draft B) :
    R d.1 (Connection.put_max_stream_data room fuel d).1 := by
  induction fuel generalizing d with
  | zero => exact refl d.1
  | succ fuel ih =>
    obtain ⟨c, p⟩ := d
    simp only [Connection.put_max_stream_data]
    cases c.streams.should_send_max_stream_data with
    | none => exact refl c
    | some due =>
      obtain ⟨stream_id, max_data⟩ := due
      dsimp only
      cases Payload.push room (.MaxStreamData { stream_id, max_data }) p with
      | none => exact refl c
      | some p' =>
        exact IsTrans.trans _ _ _ (h.max_stream_data stream_id c)
          (ih ({ c with streams := c.streams.mark_max_stream_data_sent stream_id }, p'))

theorem drain_short (room : Nat) (c : Connection B) : R c (c.drain_short room).1 := by
  have hdone : (put_handshake_done room (c, .empty)).1 = c := by
    simp only [put_handshake_done]
    split <;> rfl
  refine IsTrans.trans _ _ _ ?_ (h.streams _ _)
  refine IsTrans.trans _ _ _ ?_ (h.put_max_stream_data _ _ _)
  refine IsTrans.trans _ _ _ ?_ (h.max_data _ _)
  refine IsTrans.trans _ _ _ ?_ (h.ack _ _ _)
  have hpath := h.path_response room (put_handshake_done room (c, .empty))
  rwa [hdone] at hpath

theorem build_initial_packet (cap : Nat) (now : Instant) (c : Connection B) :
    Builds R .Initial cap now c (c.build_initial_packet cap now) := by
  unfold Connection.build_initial_packet
  dsimp only
  split
  · exact .inl ⟨rfl, refl c⟩
  · have hack := fun room => h.ack .Initial room (c, .empty)
    generalize hd : (if cap ≥ MIN_INITIAL_PACKET_SIZE then
      write_tls_crypto_data .Initial _ (put_ack .Initial _ (c, .empty))
      else put_ack .Initial _ (c, .empty)) = d
    have hdrain : R c d.1 := by
      rw [← hd]
      split
      · exact IsTrans.trans _ _ _ (hack _) (h.crypto .Initial _ _)
      · exact hack _
    split
    · exact .inl ⟨rfl, hdrain⟩
    · split
      · exact .inl ⟨rfl, hdrain⟩
      · rename_i pkt padding_needed hseal
        obtain ⟨hlevel, hframes, hpad⟩ := seal_initial_packet hseal
        refine .inr ⟨d.1, d.2, pkt, _, _, hdrain, rfl, hlevel, sealed_of_initial hseal, ?_, refl _⟩
        intro hflies
        have hpads : d.2.ack_eliciting = true ∨ c.role = .Client := by
          rcases (Bool.or_eq_true _ _).mp hflies with hcrypto | hpadded
          · exact .inl hcrypto
          · simpa [or_comm] using hpad (of_decide_eq_true hpadded)
        unfold Flies
        rw [hframes]
        exact hpads.imp_right fun hclient => ⟨hlevel, hclient⟩

theorem build_handshake_packet (cap : Nat) (now : Instant) (c : Connection B) :
    Builds R .Handshake cap now c (c.build_handshake_packet cap now) := by
  unfold Connection.build_handshake_packet
  dsimp only
  split
  · exact .inl ⟨rfl, refl c⟩
  · have hdrain := fun room => IsTrans.trans _ _ _ (h.ack .Handshake room (c, .empty))
      (h.crypto .Handshake room _)
    split
    · exact .inl ⟨rfl, hdrain _⟩
    · split
      · exact .inl ⟨rfl, hdrain _⟩
      · rename_i pkt hseal
        obtain ⟨hlevel, hframes⟩ := seal_level_packet hseal
        refine .inr ⟨_, _, pkt, _, _, hdrain _, rfl, hlevel, sealed_of_level hseal nofun, ?_, refl _⟩
        exact fun hflies => .inl (hframes ▸ hflies)

theorem build_short_packet (cap : Nat) (now : Instant) (c : Connection B) :
    Builds R .Application cap now c (c.build_short_packet cap now) := by
  unfold Connection.build_short_packet
  dsimp only
  split
  · exact .inl ⟨rfl, refl c⟩
  · have hdrain := h.drain_short (cap - (1 + c.remote_cid.length + c.pn_len .Application)) c
    split
    · exact .inl ⟨rfl, hdrain⟩
    · split
      · exact .inl ⟨rfl, hdrain⟩
      · rename_i pkt hseal
        obtain ⟨hlevel, hframes⟩ := seal_level_packet hseal
        refine .inr ⟨_, _, pkt, _, _, hdrain, rfl, hlevel, sealed_of_level hseal nofun, ?_,
          h.short_sent _ _⟩
        exact fun hflies => .inl (hframes ▸ hflies)

theorem build_close_packet (level : Level) (frame : Frame) (buf_len : Nat) (now : Instant)
    (c : Connection B) :
    (c.build_close_packet level frame buf_len now).1 = none ∧
      R c (c.build_close_packet level frame buf_len now).2 ∨
    ∃ p pkt, (c.build_close_packet level frame buf_len now).1 = some pkt ∧ pkt.level = level ∧
      Sealed buf_len (c, p) pkt ∧
      R (c.packet_sent level pkt.data.length false false now)
        (c.build_close_packet level frame buf_len now).2 := by
  unfold Connection.build_close_packet
  split
  · exact .inl ⟨rfl, refl c⟩
  · rename_i p _
    dsimp only
    split
    · exact .inl ⟨rfl, refl c⟩
    · rename_i pkt hsealed
      have hpkt : pkt.level = level ∧ Sealed buf_len (c, p) pkt := by
        cases level with
        | Initial =>
          obtain ⟨⟨_, padding⟩, hseal, rfl⟩ := Option.map_eq_some_iff.mp hsealed
          exact ⟨(seal_initial_packet hseal).1, sealed_of_initial hseal⟩
        | Handshake => exact ⟨(seal_level_packet hsealed).1, sealed_of_level hsealed nofun⟩
        | Application => exact ⟨(seal_level_packet hsealed).1, sealed_of_level hsealed nofun⟩
      refine .inr ⟨p, pkt, rfl, hpkt.1, hpkt.2, ?_⟩
      split
      · exact h.short_sent _ _
      · exact refl _

theorem build_packets {now : Instant}
    (hsent : ∀ level size ack_eliciting in_flight c,
      R c (packet_sent level size ack_eliciting in_flight now c))
    (buf_len : Nat) (c : Connection B) : R c (c.build_packets buf_len now).2 := by
  have hbuilt : ∀ {level : Level} {cap : Nat} {c : Connection B}
      {r : Option Packet × Connection B}, Builds R level cap now c r → R c r.2 := by
    intro level cap c r hr
    rcases hr with ⟨-, hr⟩ | ⟨d, p, pkt, ack_eliciting, in_flight, hd, -, -, -, -, hr⟩
    · exact hr
    · exact IsTrans.trans _ _ _ hd (IsTrans.trans _ _ _ (hsent ..) hr)
  unfold Connection.build_packets build_long_packets
  dsimp only
  refine IsTrans.trans _ _ _ ?_
    (build_with_keys_keeps (fun c => hbuilt (h.build_short_packet _ now c)) _)
  refine IsTrans.trans _ _ _ ?_ (h.release _)
  refine IsTrans.trans _ _ _ ?_
    (build_with_keys_keeps (fun c => hbuilt (h.build_handshake_packet _ now c)) _)
  exact build_with_keys_keeps (fun c => hbuilt (h.build_initial_packet _ now c)) _

end KeptByPackets

theorem KeptByDrain.and {R S : Connection B → Connection B → Prop} (h₁ : KeptByDrain R)
    (h₂ : KeptByDrain S) : KeptByDrain fun c c' => R c c' ∧ S c c' where
  key_update c := ⟨h₁.key_update c, h₂.key_update c⟩
  rewind c := ⟨h₁.rewind c, h₂.rewind c⟩
  ack level room d := ⟨h₁.ack level room d, h₂.ack level room d⟩
  crypto level room d := ⟨h₁.crypto level room d, h₂.crypto level room d⟩
  path_response room d := ⟨h₁.path_response room d, h₂.path_response room d⟩
  max_data room d := ⟨h₁.max_data room d, h₂.max_data room d⟩
  max_stream_data stream_id c := ⟨h₁.max_stream_data stream_id c, h₂.max_stream_data stream_id c⟩
  streams room d := ⟨h₁.streams room d, h₂.streams room d⟩
  short_sent frames c := ⟨h₁.short_sent frames c, h₂.short_sent frames c⟩
  release c := ⟨h₁.release c, h₂.release c⟩
  closed c := ⟨h₁.closed c, h₂.closed c⟩

/-! ## Transmitting -/

/-- The relation is kept by everything the packets of a datagram are built from. -/
structure KeptByBuild (R : Connection B → Connection B → Prop) : Prop extends KeptByDrain R where
  sent : ∀ level size ack_eliciting in_flight now c,
    R c (packet_sent level size ack_eliciting in_flight now c)

/-- The relation is kept by everything `poll_transmit` is made of. -/
structure KeptByTransmit (R : Connection B → Connection B → Prop) : Prop extends KeptByBuild R where
  emitted : ∀ n c, R c { c with anti_amplification_bytes_sent := n }

/-- The relation is kept by everything the packets of a datagram are built from at one time. -/
structure KeptByBuildAt (now : Instant) (R : Connection B → Connection B → Prop) : Prop
  extends KeptByDrain R where
  sent_at : ∀ level size ack_eliciting in_flight c,
    R c (packet_sent level size ack_eliciting in_flight now c)

/-- The relation is kept by everything a `poll_transmit` is made of at one time. -/
structure KeptByTransmitAt (now : Instant) (R : Connection B → Connection B → Prop) : Prop
  extends KeptByBuildAt now R where
  emitted_at : ∀ n c, R c { c with anti_amplification_bytes_sent := n }

namespace KeptByBuildAt

variable {R : Connection B → Connection B → Prop} [IsPreorder (Connection B) R] {now : Instant}
  (h : KeptByBuildAt now R)

include h

theorem build_packets (buf_len : Nat) (c : Connection B) :
    R c (c.build_packets buf_len now).2 :=
  h.toKeptByPackets.build_packets h.sent_at buf_len c

theorem transmit_close (error_code : Nat) (reason : Bytes) (buf_len : Nat) (c : Connection B) :
    R c (c.transmit_close error_code reason buf_len now).2 := by
  unfold Connection.transmit_close
  split
  · exact refl c
  · refine IsTrans.trans _ _ _ ?_ (h.closed _)
    rcases h.build_close_packet _ _ buf_len now c with ⟨-, hr⟩ | ⟨p, pkt, -, -, -, hr⟩
    · exact hr
    · exact IsTrans.trans _ _ _ (h.sent_at ..) hr

end KeptByBuildAt

namespace KeptByTransmitAt

variable {R : Connection B → Connection B → Prop} [IsPreorder (Connection B) R] {now : Instant}
  (h : KeptByTransmitAt now R)

include h

theorem emit (packets : List Packet) (c : Connection B) : R c (c.emit packets).2 := by
  unfold Connection.emit
  dsimp only
  split
  · exact refl c
  · split
    · exact refl c
    · split
      · exact h.emitted_at _ c
      · exact refl c

/-- A call of `poll_transmit` keeps what its parts keep. -/
theorem poll_transmit (buf_len : Nat) (c : Connection B) :
    R c (c.poll_transmit buf_len now).2 := by
  unfold Connection.poll_transmit
  have hkeys := h.key_update c
  split
  · exact refl c
  · split
    · exact refl c
    · split
      · rename_i heq
        rw [heq] at hkeys
        exact IsTrans.trans _ _ _ hkeys (h.closed _)
      · rename_i heq
        rw [heq] at hkeys
        refine IsTrans.trans _ _ _ hkeys (IsTrans.trans _ _ _ (h.rewind _) ?_)
        unfold transmit
        split
        · exact h.transmit_close ..
        · exact IsTrans.trans _ _ _ (h.build_packets _ _) (h.emit _ _)

end KeptByTransmitAt

namespace KeptByBuild

variable {R : Connection B → Connection B → Prop} [IsPreorder (Connection B) R]
  (h : KeptByBuild R)

include h

omit [IsPreorder (Connection B) R] in
theorem at_time (now : Instant) : KeptByBuildAt now R :=
  { h with sent_at := fun _ _ _ _ c => h.sent _ _ _ _ now c }

theorem build_packets (buf_len : Nat) (now : Instant) (c : Connection B) :
    R c (c.build_packets buf_len now).2 :=
  (h.at_time now).build_packets buf_len c

theorem transmit_close (error_code : Nat) (reason : Bytes) (buf_len : Nat) (now : Instant)
    (c : Connection B) : R c (c.transmit_close error_code reason buf_len now).2 :=
  (h.at_time now).transmit_close error_code reason buf_len c

end KeptByBuild

namespace KeptByTransmit

variable {R : Connection B → Connection B → Prop} [IsPreorder (Connection B) R]
  (h : KeptByTransmit R)

include h

omit [IsPreorder (Connection B) R] in
theorem at_time (now : Instant) : KeptByTransmitAt now R :=
  { h.toKeptByBuild.at_time now with emitted_at := h.emitted }

/-- A call of `poll_transmit` keeps what its parts keep. -/
theorem poll_transmit (buf_len : Nat) (now : Instant) (c : Connection B) :
    R c (c.poll_transmit buf_len now).2 :=
  (h.at_time now).poll_transmit buf_len c

end KeptByTransmit

/-! ## Opening streams and sending -/

section Calls

variable {R : Connection B → Connection B → Prop} [IsPreorder (Connection B) R]

/-- Opening a stream adds it to the table and sets its windows. -/
theorem open_stream_keeps
    (hopen : ∀ c : Connection B, R c { c with
      streams := (StreamMap.open_bidi B.MAX_STREAMS (c.role = .Client) c.streams).2 })
    (hwindows : ∀ stream_id send_max recv_max (c : Connection B), R c { c with
      streams := c.streams.set_stream_windows stream_id send_max recv_max }) :
    Method.Keeps R (open_stream (B := B)) := by
  intro c
  rw [open_stream, Method.get_bind_run]
  exact Method.kept_require fun _ => Method.kept_bind (hopen c) fun id c' _ => hwindows id _ _ c'

theorem open_uni_stream_keeps
    (hopen : ∀ c : Connection B, R c { c with
      streams := (StreamMap.open_uni B.MAX_STREAMS (c.role = .Client) c.streams).2 })
    (hwindows : ∀ stream_id send_max recv_max (c : Connection B), R c { c with
      streams := c.streams.set_stream_windows stream_id send_max recv_max }) :
    Method.Keeps R (open_uni_stream (B := B)) := by
  intro c
  rw [open_uni_stream, Method.get_bind_run]
  exact Method.kept_require fun _ => Method.kept_bind (hopen c) fun id c' _ => hwindows id _ _ c'

/-- Queueing data touches the send queue only. -/
theorem enqueue_recv_bufs (N : Nat) (sio : QuicStreamIo) (stream_id offset : Nat) (data : Bytes)
    (fin : Bool) : (sio.enqueue N stream_id offset data fin).recv_bufs = sio.recv_bufs := by
  unfold QuicStreamIo.enqueue
  split <;> rfl

theorem stream_send_keeps (hmark : ∀ stream_id len fin,
      Method.Keeps R (on_streams (B := B) (StreamMap.mark_send stream_id len fin)))
    (hqueue : ∀ (c : Connection B) sio, sio.recv_bufs = c.sio.recv_bufs → R c { c with sio })
    (stream_id : Nat) (data : Bytes) (fin : Bool) :
    Method.Keeps R (stream_send (B := B) stream_id data fin) := by
  refine keeps_seq keeps_get fun c => ?_
  refine keeps_seq (keeps_require _ _) fun _ => ?_
  refine keeps_seq (Method.keeps_okOr _ _) fun _ => ?_
  refine keeps_seq (Method.keeps_okOr _ _) fun _ => ?_
  refine keeps_ite (keeps_pure _) ?_
  refine keeps_seq (keeps_require _ _) fun _ => ?_
  refine keeps_seq (hmark _ _ _) fun _ => ?_
  refine keeps_seq (keeps_modify fun c => ?_) fun _ => keeps_pure _
  exact hqueue c _ (enqueue_recv_bufs _ _ _ _ _ _)

end Calls

/-! ## STREAM frames -/

/-- The stream table once the stream of a frame was looked up or created. -/
def with_stream (c : Connection B) (stream_id : Nat) : StreamMap :=
  (StreamMap.get_or_create B.MAX_STREAMS stream_id (c.role = .Client)
    c.local_params.initial_max_stream_data_bidi_remote c.streams).2

/-- The connection after the data of a frame was accepted: charged, stored and announced. -/
def stream_stored (c : Connection B) (stream : StreamFrame) (streams : StreamMap)
    (new_bytes : Nat) : Connection B :=
  push_event
    { c with
      streams
      flow_control := { c.flow_control with
        recv_data_offset := c.flow_control.recv_data_offset + new_bytes }
      sio := c.sio.store_stream_data B.MAX_STREAMS B.STREAM_BUF stream.stream_id stream.offset
        stream.data stream.fin }
    (.StreamReadable stream.stream_id)

theorem handle_stream_cases (stream : StreamFrame) (c : Connection B) :
    ((c.with_stream stream.stream_id).get stream.stream_id = none ∧
      handle_stream stream c = (.ok (), { c with streams := c.with_stream stream.stream_id })) ∨
    (∃ e streams,
      StreamMap.mark_recv stream.stream_id stream.offset stream.data.length stream.fin
        (c.with_stream stream.stream_id) = (.error e, streams) ∧
      handle_stream stream c = (.error e, { c with streams })) ∨
    (∃ n streams,
      StreamMap.mark_recv stream.stream_id stream.offset stream.data.length stream.fin
        (c.with_stream stream.stream_id) = (.ok n, streams) ∧
      c.flow_control.recv_data_offset + n > c.flow_control.recv_max_data ∧
      handle_stream stream c = (.error (.Transport .FlowControlError), { c with streams })) ∨
    (∃ n streams,
      StreamMap.mark_recv stream.stream_id stream.offset stream.data.length stream.fin
        (c.with_stream stream.stream_id) = (.ok n, streams) ∧
      c.flow_control.recv_data_offset + n ≤ c.flow_control.recv_max_data ∧
      handle_stream stream c = (.ok (), c.stream_stored stream streams n)) := by
  have hget : handle_stream stream c =
      (if ((c.with_stream stream.stream_id).get stream.stream_id).isSome then do
        let new_bytes ← on_streams
          (StreamMap.mark_recv stream.stream_id stream.offset stream.data.length stream.fin)
        Method.on Connection.flow_control (fun flow_control c => { c with flow_control })
          (FlowController.on_recv new_bytes)
        Method.modify fun c => { c with
          sio := c.sio.store_stream_data B.MAX_STREAMS B.STREAM_BUF stream.stream_id stream.offset
            stream.data stream.fin }
        Method.modify (push_event · (.StreamReadable stream.stream_id))
      else pure ()) { c with streams := c.with_stream stream.stream_id } := rfl
  rw [hget]
  cases hs : (c.with_stream stream.stream_id).get stream.stream_id with
  | none => exact .inl ⟨rfl, rfl⟩
  | some st =>
    right
    simp only [Option.isSome_some, if_true, bind_run, on_streams, Method.on_run]
    rcases hm : StreamMap.mark_recv stream.stream_id stream.offset stream.data.length stream.fin
      (c.with_stream stream.stream_id) with ⟨e | n, streams⟩
    · exact .inl ⟨e, streams, rfl, rfl⟩
    · right
      by_cases hfc : c.flow_control.recv_data_offset + n > c.flow_control.recv_max_data
      · exact .inl ⟨n, streams, rfl, hfc, by simp [FlowController.on_recv, hfc]⟩
      · refine .inr ⟨n, streams, rfl, by omega, ?_⟩
        simp [FlowController.on_recv, hfc, stream_stored]

/-! ## The stream side -/

/-- What stream data passes through: the stream table, the stream buffers, the connection's
receive window, and the fixed values they are set up from. -/
structure StreamSide where
  role : Role
  local_params : TransportParams
  streams : StreamMap
  sio : QuicStreamIo
  recv_max_data : Nat
  recv_data_offset : Nat

def stream_side (c : Connection B) : StreamSide where
  role := c.role
  local_params := c.local_params
  streams := c.streams
  sio := c.sio
  recv_max_data := c.flow_control.recv_max_data
  recv_data_offset := c.flow_control.recv_data_offset

/-- The stream side together with what the peer has told us of its own limits. -/
def data_side (c : Connection B) : StreamSide × FlowController × Option TransportParams :=
  (c.stream_side, c.flow_control, c.peer_params)

/-- Of the parts of `poll_transmit`, three reach the stream side. -/
theorem KeptByTransmit.of_data_side {R : Connection B → Connection B → Prop}
    (hside : ∀ c c', c'.data_side = c.data_side → R c c')
    (hmax_data : ∀ room d, R d.1 (put_max_data room d).1)
    (hmax_stream_data : ∀ stream_id c,
      R c { c with streams := c.streams.mark_max_stream_data_sent stream_id })
    (hstreams : ∀ room d, R d.1 (put_streams room d).1) : KeptByTransmit R where
  key_update c := by
    refine hside _ _ (keeps_seq (R := Method.Same data_side) keeps_get (fun _ => ?_) c)
    exact keeps_ite (keeps_on fun _ => rfl) (keeps_pure _)
  rewind c := by
    refine hside _ _ ?_
    unfold rewind_crypto
    split <;> rfl
  ack level room d := by
    refine hside _ _ ?_
    simp only [put_ack]
    split
    · split <;> rfl
    · rfl
  crypto level room d := by
    refine hside _ _ ?_
    simp only [write_tls_crypto_data]
    split
    · rfl
    · split
      · rfl
      · split <;> rfl
  path_response room d := by
    refine hside _ _ ?_
    simp only [put_path_response]
    split
    · rfl
    · split <;> rfl
  max_data := hmax_data
  max_stream_data := hmax_stream_data
  streams := hstreams
  sent _ _ _ _ _ _ := hside _ _ rfl
  short_sent _ _ := hside _ _ rfl
  release c := by
    refine hside _ _ ?_
    unfold maybe_release_handshake_slot
    split
    · rfl
    · split <;> rfl
  closed _ := hside _ _ rfl
  emitted _ _ := hside _ _ rfl

@[simp] theorem push_event_stream_side (c : Connection B) (e : Event) :
    (c.push_event e).stream_side = c.stream_side := by
  unfold push_event
  split <;> rfl

@[simp] theorem keys_installed_stream_side (level : Level) (c : Connection B) :
    (keys_installed level c).stream_side = c.stream_side := by
  cases level with
  | Initial => rfl
  | Handshake =>
    simp only [keys_installed]
    split <;> rfl
  | Application =>
    simp only [keys_installed]
    split
    · exact push_event_stream_side _ _
    · rfl

@[simp] theorem learn_peer_params_stream_side (params : TransportParams) (c : Connection B) :
    (c.learn_peer_params params).stream_side = c.stream_side := by
  simp [stream_side, learn_peer_params]

@[simp] theorem maybe_release_stream_side (c : Connection B) :
    c.maybe_release_handshake_slot.stream_side = c.stream_side := by
  unfold maybe_release_handshake_slot
  split
  · rfl
  · split <;> rfl

theorem install_keys_stream_side (derived : DerivedKeys) :
    Method.Keeps (Method.Same stream_side) (install_keys (B := B) derived) := by
  refine keeps_seq (keeps_on fun _ => rfl) fun _ => ?_
  refine keeps_seq (keeps_modify fun c => keys_installed_stream_side _ c) fun _ => ?_
  refine keeps_modify fun c => ?_
  split
  · exact learn_peer_params_stream_side _ c
  · rfl

theorem install_ready_keys_stream_side :
    Method.Keeps (Method.Same stream_side) (install_ready_keys (B := B)) := by
  refine keeps_seq keeps_get fun c => ?_
  split
  · exact keeps_pure _
  · exact keeps_seq (keeps_modify fun _ => rfl) fun _ => install_keys_stream_side _

theorem check_tls_keys_stream_side :
    Method.Keeps (Method.Same stream_side) (check_tls_keys (B := B)) :=
  check_tls_keys_keeps install_ready_keys_stream_side maybe_release_stream_side

theorem on_tls_stream_side (m : Method TlsEngine Error Unit) :
    Method.Keeps (Method.Same stream_side) (on_tls (B := B) m) := by
  intro c
  unfold on_tls
  split <;> rfl

theorem handle_crypto_frame_stream_side (level : Level) (offset : Nat) (data : Bytes) :
    Method.Keeps (Method.Same stream_side) (handle_crypto_frame (B := B) level offset data) :=
  handle_crypto_frame_keeps (fun _ _ _ => rfl) (fun _ _ => on_tls_stream_side _)
    check_tls_keys_stream_side level offset data

theorem learn_initial_stream_side (hdr : InitialHeader) :
    Method.Keeps (Method.Same stream_side) (learn_initial (B := B) hdr) := by
  refine learn_initial_keeps (keeps_seq keeps_get fun c => ?_) fun c => ?_
  · refine keeps_ite (keeps_pure _) ?_
    refine keeps_seq (keeps_on fun _ => rfl) fun _ => keeps_modify fun c => ?_
    split <;> rfl
  · unfold learn_remote_cid
    split <;> rfl

theorem open_phase_stream_side (u : Unprotected) :
    Method.Keeps (Method.Same stream_side) (open_phase (B := B) u) := by
  refine keeps_seq keeps_get fun c => keeps_seq (Method.keeps_okOr _ _) ?_
  refine fun recv => keeps_ite (fun c => ?_) ?_
  · unfold open_current
    split
    · rfl
    · split <;> rfl
  · refine keeps_seq keeps_get fun c => keeps_seq (keeps_lift _) ?_
    refine fun next => keeps_seq (keeps_lift _) fun payload => ?_
    exact keeps_seq (keeps_on fun _ => rfl) fun _ => keeps_pure _

/-- The frames that reach the stream side. -/
def is_stream_frame : Frame → Bool
  | .Stream _ | .MaxStreamData _ | .ResetStream _ | .StopSending _ => true
  | _ => false

theorem dispatch_frame_stream_side {frame : Frame} (hf : is_stream_frame frame = false)
    (level : Level) (now : Instant) :
    Method.Keeps (Method.Same stream_side) (dispatch_frame (B := B) level now frame) := by
  cases frame with
  | Padding | Ping | NewToken | NewConnectionId | RetireConnectionId | PathResponse | DataBlocked
  | StreamDataBlocked | StreamsBlocked => exact keeps_pure _
  | Ack ack => exact keeps_seq (keeps_lift _) fun _ => keeps_modify fun _ => rfl
  | Crypto crypto => exact handle_crypto_frame_stream_side level _ _
  | MaxData n => exact keeps_modify fun c => by simp [Method.Same, stream_side]
  | MaxStreams ms => exact keeps_modify fun c => by simp [Method.Same, stream_side]
  | ConnectionClose cc => exact keeps_modify fun c => push_event_stream_side _ _
  | HandshakeDone =>
    refine keeps_modify fun c => ?_
    unfold handshake_done
    split
    · rfl
    · split
      · exact push_event_stream_side _ _
      · rfl
  | PathChallenge data => exact keeps_modify fun _ => rfl
  | Stream | MaxStreamData | ResetStream | StopSending => cases hf

/-- The steps that reach the stream side. -/
def touches_streams : Step → Bool
  | .dispatch _ _ frame => is_stream_frame frame
  | .op (.poll_transmit ..) | .op .open_stream | .op .open_uni_stream | .op (.stream_send ..)
  | .op (.stream_recv ..) | .op (.stream_reset _) | .op (.stream_stop_sending _) => true
  | _ => false

theorem apply_stream_side {s : Step} (hs : touches_streams s = false) (c : Connection B) :
    (s.apply c).stream_side = c.stream_side := by
  cases s with
  | arrive len now =>
    simp only [Step.apply, arrive]
    split <;> rfl
  | open_packet kind pkt_data scratch_len =>
    exact open_kind_keeps (R := Method.Same stream_side) learn_initial_stream_side
      open_phase_stream_side kind pkt_data scratch_len c
  | dispatch level now frame => exact dispatch_frame_stream_side hs level now c
  | initial_done =>
    simp only [Step.apply, initial_done]
    split <;> rfl
  | record pr =>
    simp only [Step.apply, record_packet]
    split <;> rfl
  | check_tls_keys => exact check_tls_keys_stream_side c
  | op o =>
    cases o with
    | handle_timeout now =>
      simp only [Step.apply, Op.apply, handle_timeout]
      split
      · split <;> rfl
      · split
        · exact push_event_stream_side _ _
        · split <;> rfl
    | poll_event => rfl
    | close error_code reason =>
      simp only [Step.apply, Op.apply, close]
      split <;> rfl
    | initiate_key_update =>
      refine keeps_seq (R := Method.Same stream_side) keeps_get (fun c => ?_) c
      exact keeps_seq (keeps_require _ _) fun _ => keeps_on fun _ => rfl
    | _ => cases hs

end Connection

end milli_http.connection
