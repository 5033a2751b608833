-- The size of Initial packets (connection/transmit.rs). An Initial that has to be padded is
-- 1200 bytes, unless its Length fits one byte before the padding: the padding then grows the
-- Length by a byte that is not taken off again, and a buffer of 1200 bytes gets no packet.
import MilliHttp.AckFrames
import MilliHttp.Nonces
import MilliHttp.PacketCodec

open bytes method

namespace milli_http.connection.initial_size

open crypto tls transport packet frame varint Connection
open nonces (reaches_aead seal_packet_ok)

variable {B : Build} {pad_to_min : Bool} {d : Draft B}

/-! ## What there is to send -/

/-- The ACK owed at the Initial level, in a buffer of `room` bytes. -/
def ack_due (room : Nat) (c : Connection B) : Bytes :=
  if c.ack_eliciting_received.get .Initial then
    match build_ack_frame (c.recv_pn_tracker.get .Initial) with
    | some ack => (encode (.Ack ack) room).toOption.getD []
    | none => []
  else []

/-- The CRYPTO frame of what the Initial stream has left to send, once the engine has been
asked for its next flight. -/
def crypto_due (room : Nat) (c : Connection B) : Bytes :=
  match c.handshake_slot with
  | none => []
  | some ctx =>
    match next_crypto_frame .Initial room (stage_flight B.toPrimitives .Initial ctx) with
    | some crypto => (encode (.Crypto crypto) room).toOption.getD []
    | none => []

/-- What a packet keeps free for the longest header it may have. -/
def reserve (c : Connection B) : Nat :=
  1 + 4 + 1 + c.remote_cid.length + 1 + c.local_scid.length + 1 + 8 + c.pn_len .Initial

/-- How long the two frames of an Initial packet are, in a buffer of `cap` bytes. -/
def ack_len (cap : Nat) (c : Connection B) : Nat := (ack_due (cap - reserve c) c).length

def crypto_len (cap : Nat) (c : Connection B) : Nat :=
  (crypto_due (cap - reserve c - ack_len cap c) c).length

/-- A client pads every Initial, a server one that carries CRYPTO data. -/
def Padded (cap : Nat) (c : Connection B) : Prop := c.role = .Client ∨ crypto_len cap c ≠ 0

/-- What the Length field counts before any padding. -/
def unpadded_length (cap : Nat) (c : Connection B) : Nat :=
  c.pn_len .Initial + (ack_len cap c + crypto_len cap c) + tag_len

/-- The packet without padding. -/
def unpadded_size (cap : Nat) (c : Connection B) : Nat :=
  c.initial_base_header + varint_len (unpadded_length cap c) + unpadded_length cap c

/-- The packet fits the buffer, is 1200 bytes if it had to be padded, and its Length counts the
packet number, the frames with their padding and the tag, which is all there is behind it. -/
structure WellSized (cap : Nat) (c : Connection B) (pkt : Packet) : Prop where
  fits : pkt.data.length ≤ cap
  padded : Padded cap c → unpadded_size cap c < MIN_INITIAL_PACKET_SIZE →
    pkt.data.length = MIN_INITIAL_PACKET_SIZE
  length_field : ∃ hdr padding, parse_initial_header pkt.data = .ok hdr ∧
    hdr.payload_length =
      c.pn_len .Initial + (ack_len cap c + crypto_len cap c + padding) + tag_len ∧
    hdr.pn_offset + hdr.payload_length = pkt.data.length

/-- If there is a frame to write, the packet is built and well sized. -/
def Sized (cap : Nat) (now : Instant) (c : Connection B) : Prop :=
  ack_len cap c + crypto_len cap c ≠ 0 →
    ∃ pkt, (c.build_initial_packet cap now).1 = some pkt ∧ WellSized cap c pkt

/-! ## The frames -/

/-- Writers add at most so many bytes. -/
def AddsAtMost {α : Type} (n : Nat) (w : Method Bytes Error α) : Prop :=
  ∀ out a out', w out = (.ok a, out') → out'.length ≤ out.length + n

theorem addsAtMost_seq {α β : Type} {m n : Nat} {w : Method Bytes Error α}
    {f : α → Method Bytes Error β} (hw : AddsAtMost m w) (hf : ∀ a, AddsAtMost n (f a)) :
    AddsAtMost (m + n) (w >>= f) := by
  intro out b out'' h
  obtain ⟨a, out', h₁, h₂⟩ := Method.bind_eq_ok h
  have := hw out a out' h₁
  have := hf a out' b out'' h₂
  omega

theorem addsAtMost_varint (cap value : Nat) :
    AddsAtMost (varint_len value) (write_varint cap value) := by
  intro out a out' h
  unfold write_varint at h
  split at h
  · rename_i b hb
    obtain ⟨rfl, -⟩ := h3.encode_varint_eq hb
    cases h
    exact Nat.le_of_eq (by rw [List.length_append, varint_bytes_length])
  · cases h

theorem addsAtMost_bytes (cap : Nat) (data : Bytes) :
    AddsAtMost data.length (write_bytes cap data) := by
  intro out a out' h
  unfold write_bytes at h
  split at h
  · cases h
  · cases h
    exact Nat.le_of_eq List.length_append

theorem addsAtMost_pure {α : Type} (a : α) : AddsAtMost 0 (pure a : Method Bytes Error α) := by
  intro out b out' h
  cases h
  exact Nat.le_refl _

theorem addsAtMost_lift {α : Type} (r : Except Error α) :
    AddsAtMost 0 (Method.lift r : Method Bytes Error α) := by
  intro out b out' h
  cases h
  exact Nat.le_refl _

theorem AddsAtMost.mono {α : Type} {m n : Nat} {w : Method Bytes Error α} (hw : AddsAtMost m w)
    (h : m ≤ n) : AddsAtMost n w := by
  intro out a out' hrun
  have := hw out a out' hrun
  omega

theorem addsAtMost_varint_seq {β : Type} {cap value n : Nat} {f : Unit → Method Bytes Error β}
    (hf : ∀ a, AddsAtMost n (f a)) : AddsAtMost (8 + n) (write_varint cap value >>= f) :=
  (addsAtMost_seq (addsAtMost_varint cap value) hf).mono (by
    have := varint_len_le value
    omega)

theorem encode_length_le {frame : Frame} {cap n : Nat} {b : Bytes}
    (h : AddsAtMost n (write_frame cap frame)) (hencode : encode frame cap = .ok b) :
    b.length ≤ n := by
  unfold encode at hencode
  split at hencode
  · rename_i heq
    cases hencode
    simpa using h [] _ _ heq
  · cases hencode

theorem addsAtMost_ack (cap : Nat) {ack : AckFrame} (hecn : ack.ecn = none) :
    AddsAtMost (40 + ack.ack_ranges.length) (write_frame cap (.Ack ack)) := by
  obtain ⟨largest_ack, ack_delay, first_ack_range, ack_ranges, ecn⟩ := ack
  obtain rfl : ecn = none := hecn
  have hall : AddsAtMost (8 + (8 + (8 + (0 + (8 + (8 + (ack_ranges.length + 0)))))))
      (write_frame cap (.Ack ⟨largest_ack, ack_delay, first_ack_range, ack_ranges, none⟩)) :=
    addsAtMost_varint_seq fun _ => addsAtMost_varint_seq fun _ => addsAtMost_varint_seq fun _ =>
      addsAtMost_seq (addsAtMost_lift _) fun _ => addsAtMost_varint_seq fun _ =>
        addsAtMost_varint_seq fun _ => addsAtMost_seq (addsAtMost_bytes _ _) fun _ =>
          addsAtMost_pure ()
  exact hall.mono (by dsimp only; omega)

theorem addsAtMost_crypto (cap : Nat) (f : CryptoFrame) :
    AddsAtMost (17 + f.data.length) (write_frame cap (.Crypto f)) := by
  have htype : AddsAtMost 1 (write_varint cap 0x06) :=
    (addsAtMost_varint cap 0x06).mono (by decide)
  have hall : AddsAtMost (1 + (8 + (8 + f.data.length))) (write_frame cap (.Crypto f)) :=
    addsAtMost_seq htype fun _ => addsAtMost_varint_seq fun _ => addsAtMost_varint_seq fun _ =>
      addsAtMost_bytes _ _
  exact hall.mono (by omega)

/-- An ACK never takes more than its header fields and the buffer of its ranges. -/
theorem ack_due_le (room : Nat) (c : Connection B) : (ack_due room c).length ≤ 296 := by
  unfold ack_due
  split
  · split
    · rename_i ack hack
      unfold build_ack_frame at hack
      split at hack
      · cases hack
      · cases hack
        rename_i highest_start highest_end rest _
        have hranges : (ack_range_bytes highest_start rest []).length ≤ 256 :=
          ack_frames.ack_range_bytes_length (Nat.zero_le _)
        cases henc : encode _ room with
        | error e => exact Nat.zero_le _
        | ok b =>
          have hle := encode_length_le (addsAtMost_ack room rfl) henc
          simp only [Except.toOption, Option.getD_some]
          dsimp only at hle
          omega
    · simp
  · simp

theorem ack_due_ge (room : Nat) (c : Connection B) :
    (ack_due room c).length = 0 ∨ 3 ≤ (ack_due room c).length := by
  unfold ack_due
  split
  · split
    · rename_i ack _
      cases henc : encode (.Ack ack) room with
      | error e => exact .inl rfl
      | ok b => exact .inr (encode_length (adds_ack room ack) henc)
    · exact .inl rfl
  · exact .inl rfl

/-- A CRYPTO frame leaves room for the tag, and is no longer than the stream it is cut from. -/
theorem crypto_due_le (room : Nat) (c : Connection B) :
    crypto_due room c = [] ∨ 33 < room ∧ (crypto_due room c).length + 16 ≤ room ∧
      3 ≤ (crypto_due room c).length ∧ ∃ ctx, c.handshake_slot = some ctx ∧
        (crypto_due room c).length ≤
          17 + ((stage_flight B.toPrimitives .Initial ctx).pending_crypto.get .Initial).length := by
  unfold crypto_due
  cases hslot : c.handshake_slot with
  | none => exact .inl rfl
  | some ctx =>
    dsimp only
    cases hnext : next_crypto_frame .Initial room (stage_flight B.toPrimitives .Initial ctx) with
    | none => exact .inl rfl
    | some f =>
      dsimp only
      cases henc : encode (.Crypto f) room with
      | error e => exact .inl rfl
      | ok b =>
        have hle := encode_length_le (addsAtMost_crypto room f) henc
        have hge := encode_length (adds_crypto room f) henc
        unfold next_crypto_frame at hnext
        dsimp only at hnext
        split at hnext
        · cases hnext
        · rename_i hroom
          cases hnext
          simp only [FRAME_OVERHEAD, List.length_take, List.length_drop] at hle hroom
          simp only [Except.toOption, Option.getD_some]
          exact .inr ⟨by omega, by omega, hge, ctx, rfl, by omega⟩

/-- The staged stream is still in its buffer. -/
theorem staged_le {X : Primitives} {ctx : HandshakeContext}
    (h : (ctx.pending_crypto.get .Initial).length ≤ 2048) :
    ((stage_flight X .Initial ctx).pending_crypto.get .Initial).length ≤ 2048 := by
  unfold stage_flight
  split
  · split
    · rename_i flight tls_level tls _
      dsimp only
      split
      · rename_i hfits
        cases tls_level with
        | Initial => exact hfits
        | Handshake => exact h
        | Application => exact h
      · exact h
    · exact h
  · exact h

/-- What a header is made from is the same. -/
structure SameHeader (c c' : Connection B) : Prop where
  keys : c'.keys = c.keys
  remote_cid : c'.remote_cid = c.remote_cid
  local_cids : c'.local_cids = c.local_cids
  next_pn : c'.next_pn = c.next_pn
  largest_recv_pn : c'.largest_recv_pn = c.largest_recv_pn

theorem SameHeader.refl (c : Connection B) : SameHeader c c := ⟨rfl, rfl, rfl, rfl, rfl⟩

theorem SameHeader.trans {c c' c'' : Connection B} (h : SameHeader c c') (h' : SameHeader c' c'') :
    SameHeader c c'' where
  keys := h'.keys.trans h.keys
  remote_cid := h'.remote_cid.trans h.remote_cid
  local_cids := h'.local_cids.trans h.local_cids
  next_pn := h'.next_pn.trans h.next_pn
  largest_recv_pn := h'.largest_recv_pn.trans h.largest_recv_pn

theorem put_ack_writes (room : Nat) (c : Connection B) : ∃ c' frames,
    put_ack .Initial room (c, .empty) = (c', { frames, bytes := ack_due room c }) ∧
      SameHeader c c' ∧ c'.handshake_slot = c.handshake_slot ∧
      frames.any is_ack_eliciting = false := by
  unfold put_ack ack_due
  dsimp only
  cases hflag : c.ack_eliciting_received.get .Initial with
  | false => exact ⟨c, [], rfl, .refl c, rfl, rfl⟩
  | true =>
    simp only [if_true]
    cases build_ack_frame (c.recv_pn_tracker.get .Initial) with
    | none => exact ⟨c, [], rfl, .refl c, rfl, rfl⟩
    | some ack =>
      rw [Option.bind_some]
      unfold Payload.push Payload.empty
      dsimp only
      cases henc : encode (.Ack ack) room with
      | error e => exact ⟨c, [], rfl, .refl c, rfl, rfl⟩
      | ok b => exact ⟨_, [.Ack ack], rfl, ⟨rfl, rfl, rfl, rfl, rfl⟩, rfl, rfl⟩

theorem write_tls_writes (room : Nat) (c : Connection B) (p : Payload) : ∃ c' frames,
    write_tls_crypto_data .Initial room (c, p) =
        (c', { frames := p.frames ++ frames,
               bytes := p.bytes ++ crypto_due (room - p.bytes.length) c }) ∧
      SameHeader c c' ∧
      frames.any is_ack_eliciting = decide (crypto_due (room - p.bytes.length) c ≠ []) := by
  unfold write_tls_crypto_data
  dsimp only
  cases hslot : c.handshake_slot with
  | none =>
    have hdue : crypto_due (room - p.bytes.length) c = [] := by rw [crypto_due, hslot]
    exact ⟨c, [], by rw [hdue, List.append_nil, List.append_nil], .refl c, by rw [hdue]; rfl⟩
  | some ctx =>
    dsimp only
    cases hnext : next_crypto_frame .Initial (room - p.bytes.length)
        (stage_flight B.toPrimitives .Initial ctx) with
    | none =>
      have hdue : crypto_due (room - p.bytes.length) c = [] := by
        rw [crypto_due, hslot]
        dsimp only
        rw [hnext]
      refine ⟨{ c with handshake_slot := some (stage_flight B.toPrimitives .Initial ctx) }, [], ?_,
        ⟨rfl, rfl, rfl, rfl, rfl⟩, by rw [hdue]; rfl⟩
      rw [hdue, List.append_nil, List.append_nil]
    | some f =>
      have hdue : crypto_due (room - p.bytes.length) c =
          (encode (.Crypto f) (room - p.bytes.length)).toOption.getD [] := by
        rw [crypto_due, hslot]
        dsimp only
        rw [hnext]
      rw [hdue]
      unfold Payload.push
      dsimp only
      cases henc : encode (.Crypto f) (room - p.bytes.length) with
      | error e =>
        refine ⟨{ c with handshake_slot := some (stage_flight B.toPrimitives .Initial ctx) }, [],
          ?_, ⟨rfl, rfl, rfl, rfl, rfl⟩, rfl⟩
        simp only [Except.toOption, Option.getD_none, List.append_nil]
      | ok b =>
        have hge := encode_length (adds_crypto _ f) henc
        have hne : b ≠ [] := List.ne_nil_of_length_pos (by omega)
        exact ⟨_, [.Crypto f], rfl, ⟨rfl, rfl, rfl, rfl, rfl⟩, (decide_eq_true (id hne)).symm⟩

/-! ## Padding -/

theorem varint_len_one {n : Nat} (h : n ≤ 63) : varint_len n = 1 := by
  rw [varint_len, if_pos h]

theorem varint_len_two {n : Nat} (h : 63 < n) (hle : n ≤ 16383) : varint_len n = 2 := by
  rw [varint_len, if_neg (by omega), if_pos hle]

theorem initial_padding_none (base_header pn_len frame_len : Nat)
    (h : pad_to_min = true → MIN_INITIAL_PACKET_SIZE ≤
      base_header + varint_len (pn_len + frame_len + tag_len) + (pn_len + frame_len + tag_len)) :
    initial_padding base_header pn_len frame_len pad_to_min =
      (0, base_header + varint_len (pn_len + frame_len + tag_len)) := by
  have hnot : ¬(pad_to_min = true ∧ base_header + varint_len (pn_len + frame_len + tag_len) +
      (pn_len + frame_len + tag_len) < MIN_INITIAL_PACKET_SIZE) := by
    rintro ⟨hpad, hlt⟩
    exact absurd (h hpad) (by omega)
  unfold initial_padding
  dsimp only
  rw [if_neg hnot, Nat.add_zero, if_neg (by simp)]

/-- Where the Length takes two bytes before and after, the padding comes out right. -/
theorem initial_padding_exact {base_header : Nat} (pn_len frame_len : Nat)
    (hbase : base_header ≤ 48)
    (hlen : 63 < pn_len + frame_len + tag_len)
    (hsize : base_header + varint_len (pn_len + frame_len + tag_len) +
      (pn_len + frame_len + tag_len) < MIN_INITIAL_PACKET_SIZE) :
    ∃ padding, initial_padding base_header pn_len frame_len true = (padding, base_header + 2) ∧
      base_header + 2 + (pn_len + frame_len + tag_len + padding) = MIN_INITIAL_PACKET_SIZE := by
  have hpad : true = true ∧ base_header + varint_len (pn_len + frame_len + tag_len) +
    (pn_len + frame_len + tag_len) < MIN_INITIAL_PACKET_SIZE := ⟨rfl, hsize⟩
  unfold initial_padding
  dsimp only
  rw [if_pos hpad]
  unfold MIN_INITIAL_PACKET_SIZE at hsize ⊢
  have hvi : varint_len (pn_len + frame_len + tag_len) = 2 := varint_len_two hlen (by omega)
  rw [hvi] at hsize ⊢
  have hvi' : varint_len (pn_len + frame_len + tag_len +
      (1200 - (base_header + 2 + (pn_len + frame_len + tag_len)))) = 2 :=
    varint_len_two (by omega) (by omega)
  rw [hvi', if_neg (by simp)]
  exact ⟨_, rfl, by omega⟩

/-- Where the padding grows the Length, the packet is a byte longer than it should be. -/
theorem initial_padding_grown {base_header : Nat} (pn_len frame_len : Nat)
    (hbase : base_header ≤ 48)
    (hlen : pn_len + frame_len + tag_len ≤ 63) :
    ∃ padding, initial_padding base_header pn_len frame_len true = (padding, base_header + 2) ∧
      base_header + 2 + (pn_len + frame_len + tag_len + padding) = MIN_INITIAL_PACKET_SIZE + 1 := by
  have hvi : varint_len (pn_len + frame_len + tag_len) = 1 := varint_len_one hlen
  have hpad : true = true ∧ base_header + 1 + (pn_len + frame_len + tag_len) < 1200 :=
    ⟨rfl, by omega⟩
  unfold initial_padding MIN_INITIAL_PACKET_SIZE
  dsimp only
  rw [hvi, if_pos hpad]
  have hvi' : varint_len (pn_len + frame_len + tag_len +
      (1200 - (base_header + 1 + (pn_len + frame_len + tag_len)))) = 2 :=
    varint_len_two (by omega) (by omega)
  rw [hvi', if_pos (by decide), if_neg (by omega)]
  exact ⟨_, rfl, by omega⟩

/-! ## Sealing -/

theorem encode_initial_header_ok (dcid scid : Bytes) {payload_len cap : Nat} (pn_len : Nat)
    (hcap : 1 + 4 + 1 + dcid.length + 1 + scid.length + varint_len 0 + varint_len payload_len ≤ cap)
    (hlen : payload_len ≤ MAX_VARINT) : ∃ header,
      encode_initial_header dcid scid [] pn_len payload_len cap = .ok header ∧
      header.length = 1 + 4 + 1 + dcid.length + 1 + scid.length + varint_len 0 +
        varint_len payload_len := by
  have hzero : varint_len 0 = 1 := rfl
  unfold encode_initial_header
  simp only [List.length_nil, Nat.add_zero]
  rw [if_neg (by omega), ack_frames.encode_varint_of_le (by decide)
      (by rw [long_header_start_length]; omega), except_ok_bind,
    ack_frames.encode_varint_of_le hlen
      (by rw [long_header_start_length, varint_bytes_length]; omega), except_ok_bind]
  refine ⟨_, rfl, ?_⟩
  simp only [List.length_append, long_header_start_length, varint_bytes_length, List.length_nil]
  omega

/-- A draft whose padded packet fits is sealed, and its header reads back. -/
theorem seal_initial_built {cap padding header_len : Nat}
    {send : DirectionalKeys B.Aes128GcmProvider} (hsend : d.1.keys.initial_send = some send)
    (hdcid : d.1.remote_cid.length ≤ 20) (hscid : d.1.local_scid.length ≤ 20)
    (hbytes : 3 ≤ d.2.bytes.length)
    (hpadding : initial_padding d.1.initial_base_header (d.1.pn_len .Initial) d.2.bytes.length
      pad_to_min = (padding, header_len))
    {payload_length : Nat}
    (hlength : payload_length = d.1.pn_len .Initial + (d.2.bytes.length + padding) + tag_len)
    (hheader : header_len = d.1.initial_base_header + varint_len payload_length)
    (hmax : payload_length ≤ MAX_VARINT) (hfits : header_len + payload_length ≤ cap) :
    ∃ pkt, seal_initial cap pad_to_min d = some (pkt, padding) ∧
      pkt.data.length = header_len + payload_length ∧
      ∃ hdr, parse_initial_header pkt.data = .ok hdr ∧ hdr.payload_length = payload_length ∧
        hdr.pn_offset + hdr.payload_length = pkt.data.length := by
  obtain ⟨c, p⟩ := d
  dsimp only at hsend hdcid hscid hbytes hpadding hlength hheader hfits
  have hpayload : (p.bytes ++ List.replicate padding (0 : UInt8)).length =
      p.bytes.length + padding := by
    rw [List.length_append, List.length_replicate]
  unfold initial_base_header at hheader
  obtain ⟨header, hencode, hheader_len⟩ := encode_initial_header_ok c.remote_cid
    c.local_scid (c.pn_len .Initial) (show _ ≤ cap by omega) hmax
  have hpn := pn_length_bounds (c.next_pn.get .Initial) (c.largest_pn .Initial)
  have hencode_pn : encode_pn (c.next_pn.get .Initial) (c.largest_pn .Initial)
      (cap - header.length) = .ok (toBe (c.pn_len .Initial) (c.next_pn.get .Initial)) := by
    unfold encode_pn
    dsimp only
    rw [if_neg]
    · rfl
    · rw [← pn_len]
      omega
  have hreach : reaches_aead cap (.ok header) (p.bytes ++ List.replicate padding 0)
      (c.next_pn.get .Initial) (c.largest_pn .Initial) = true := by
    unfold reaches_aead
    dsimp only
    rw [hencode_pn]
    simp only [toBe_length, hpayload, decide_eq_true_eq]
    omega
  obtain ⟨data, hseal⟩ := seal_packet_ok send 0x0f hreach (by omega)
  rw [← hencode] at hseal
  have hsealed : seal_packet send 0x0f cap ((LongKind.Initial []).header c.remote_cid c.local_scid
      (pn_length (c.next_pn.get .Initial) (c.largest_pn .Initial))
      (pn_length (c.next_pn.get .Initial) (c.largest_pn .Initial) +
        (p.bytes ++ List.replicate padding 0).length + tag_len) cap)
      (p.bytes ++ List.replicate padding 0) (c.next_pn.get .Initial) (c.largest_pn .Initial) =
        .ok data := by
    rw [hpayload, ← pn_len, ← hlength]
    exact hseal
  obtain ⟨q, hkind, hqd, hqs, hqlen, hq⟩ := seal_packet_is_encoded hdcid hscid hsealed
  rw [hpayload, ← pn_len, ← hlength] at hqlen
  obtain ⟨pn_offset, -, hoffset, hread⟩ := LongPacket.reads_encode hq
  rw [hkind] at hread
  have hdata : data.length = header_len + payload_length := by
    have heq := (LongPacket.encode_eq hq).1
    rw [hkind, hqlen] at heq
    rw [heq]
    simp only [List.length_append, LongPacket.start_length, LongPacket.covered_length, hqd, hqs,
      hqlen, varint_bytes_length, LongKind.token_field, List.length_nil]
    omega
  refine ⟨{ level := .Initial, frames := p.frames, data }, ?_, hdata, _, hread, hqlen, hoffset⟩
  unfold seal_initial
  dsimp only
  rw [hpadding]
  dsimp only
  rw [hpayload, ← hlength, if_neg (by omega), hsend]
  dsimp only
  rw [hseal]

/-- A padded packet that does not fit is not built. -/
theorem seal_initial_none {cap padding header_len : Nat}
    (hpadding : initial_padding d.1.initial_base_header (d.1.pn_len .Initial) d.2.bytes.length
      pad_to_min = (padding, header_len))
    (h : cap < header_len + (d.1.pn_len .Initial + (d.2.bytes.length + padding) + tag_len)) :
    seal_initial cap pad_to_min d = none := by
  obtain ⟨c, p⟩ := d
  dsimp only at hpadding h
  unfold seal_initial
  dsimp only
  rw [hpadding]
  dsimp only
  rw [List.length_append, List.length_replicate, if_pos h]

/-! ## Whole packets -/

/-- An Initial packet is sealed from what is due, under the connection's own header. -/
structure Drafted (cap : Nat) (now : Instant) (c : Connection B) (d : Draft B) (pad_to_min : Bool) :
    Prop where
  header : SameHeader c d.1
  bytes_len : d.2.bytes.length = ack_len cap c + crypto_len cap c
  padded : pad_to_min = true ↔ Padded cap c
  built : ack_len cap c + crypto_len cap c ≠ 0 →
    (c.build_initial_packet cap now).1 = (seal_initial cap pad_to_min d).map Prod.fst

theorem build_initial_packet_drafted {cap : Nat} {c : Connection B} (now : Instant)
    (hdcid : c.remote_cid.length ≤ 20) (hscid : c.local_scid.length ≤ 20) (hcap : 1200 ≤ cap) :
    ∃ d pad_to_min, Drafted cap now c d pad_to_min := by
  obtain ⟨c', acks, hput, hsame, hslot, hacks⟩ := put_ack_writes (cap - reserve c) c
  obtain ⟨c'', cryptos, hwrite, hsame', hcryptos⟩ := write_tls_writes (cap - reserve c) c'
    { frames := acks, bytes := ack_due (cap - reserve c) c }
  have hdue : crypto_due (cap - reserve c - (ack_due (cap - reserve c) c).length) c' =
      crypto_due (cap - reserve c - ack_len cap c) c := by
    unfold crypto_due
    rw [hslot, ack_len]
  rw [hdue] at hwrite hcryptos
  have hreserve : reserve c ≤ 60 := by
    have := (pn_length_bounds (c.next_pn.get .Initial) (c.largest_pn .Initial)).2
    unfold reserve Connection.pn_len
    omega
  have hpad : (Payload.mk (acks ++ cryptos) (ack_due (cap - reserve c) c ++
      crypto_due (cap - reserve c - ack_len cap c) c)).ack_eliciting =
        decide (crypto_len cap c ≠ 0) := by
    unfold Payload.ack_eliciting
    dsimp only
    rw [List.any_append, hacks, hcryptos, Bool.false_or, crypto_len]
    simp only [ne_eq, List.length_eq_zero_iff]
  have hlen : (ack_due (cap - reserve c) c ++
      crypto_due (cap - reserve c - ack_len cap c) c).length = ack_len cap c + crypto_len cap c :=
    List.length_append
  refine ⟨(c'', ⟨acks ++ cryptos, ack_due (cap - reserve c) c ++
    crypto_due (cap - reserve c - ack_len cap c) c⟩),
    decide (c.role = .Client) || decide (crypto_len cap c ≠ 0), hsame.trans hsame', hlen,
    ?_, fun hne => ?_⟩
  · rw [Bool.or_eq_true, decide_eq_true_eq, decide_eq_true_eq]
    rfl
  · have hmin : cap ≥ MIN_INITIAL_PACKET_SIZE := hcap
    unfold build_initial_packet
    dsimp only
    rw [← reserve, if_neg (by omega), if_pos hmin, hput, hwrite]
    dsimp only
    rw [if_neg (List.ne_nil_of_length_pos (by omega)), hpad]
    split
    · rename_i hseal
      rw [hseal]
      rfl
    · rename_i hseal
      rw [hseal]
      rfl

section Sizes

variable {cap : Nat} {c : Connection B}

theorem base_header_le (hdcid : c.remote_cid.length ≤ 20) (hscid : c.local_scid.length ≤ 20) :
    c.initial_base_header ≤ 48 := by
  have hzero : varint_len 0 = 1 := rfl
  unfold initial_base_header
  omega

/-- What is due leaves room for the header and the tag. -/
theorem unpadded_fits (hdcid : c.remote_cid.length ≤ 20) (hscid : c.local_scid.length ≤ 20)
    (hcap : 1200 ≤ cap) : unpadded_size cap c ≤ cap := by
  have hzero : varint_len 0 = 1 := rfl
  have hvi := varint_len_le (unpadded_length cap c)
  have hpn := (pn_length_bounds (c.next_pn.get .Initial) (c.largest_pn .Initial)).2
  have hack : ack_len cap c ≤ 296 := ack_due_le _ c
  rw [← pn_len] at hpn
  have hreserve : reserve c = c.initial_base_header + 8 + c.pn_len .Initial := by
    unfold reserve initial_base_header
    omega
  have hbase := base_header_le hdcid hscid
  have hcrypto : ack_len cap c + crypto_len cap c + 16 ≤ cap - reserve c := by
    rcases crypto_due_le (cap - reserve c - ack_len cap c) c with hnone | ⟨-, hroom, -, -⟩
    · rw [crypto_len, hnone, List.length_nil]
      omega
    · rw [crypto_len]
      omega
  have hlen : unpadded_length cap c = c.pn_len .Initial + (ack_len cap c + crypto_len cap c) + 16 :=
    rfl
  unfold unpadded_size
  omega

/-- What is due is far below what a Length can say. -/
theorem unpadded_length_le (hstream : ∀ ctx ∈ c.handshake_slot,
    (ctx.pending_crypto.get .Initial).length ≤ 2048) : unpadded_length cap c ≤ 4000 := by
  have hpn := (pn_length_bounds (c.next_pn.get .Initial) (c.largest_pn .Initial)).2
  have hack : ack_len cap c ≤ 296 := ack_due_le _ c
  have hcrypto : crypto_len cap c ≤ 17 + 2048 := by
    rcases crypto_due_le (cap - reserve c - ack_len cap c) c with hnone | ⟨-, -, -, ctx, hslot, hle⟩
    · rw [crypto_len, hnone]
      exact Nat.zero_le _
    · have hstaged := staged_le (X := B.toPrimitives) (hstream ctx hslot)
      rw [crypto_len]
      omega
  unfold unpadded_length pn_len tag_len
  omega

/-- A frame that is due has three bytes. -/
theorem due_len (hne : ack_len cap c + crypto_len cap c ≠ 0) :
    3 ≤ ack_len cap c + crypto_len cap c := by
  have hack := ack_due_ge (cap - reserve c) c
  rcases crypto_due_le (cap - reserve c - ack_len cap c) c with hnone | ⟨-, -, hge, -⟩
  · have hzero : crypto_len cap c = 0 := by rw [crypto_len, hnone, List.length_nil]
    unfold ack_len at hne ⊢
    omega
  · unfold crypto_len
    omega

theorem SameHeader.pn_len_eq (h : SameHeader c d.1) : d.1.pn_len .Initial = c.pn_len .Initial := by
  unfold Connection.pn_len largest_pn
  rw [h.next_pn, h.largest_recv_pn]

theorem SameHeader.local_scid_eq (h : SameHeader c d.1) : d.1.local_scid = c.local_scid := by
  unfold local_scid
  rw [h.local_cids]

theorem SameHeader.base_eq (h : SameHeader c d.1) :
    d.1.initial_base_header = c.initial_base_header := by
  unfold initial_base_header
  rw [h.remote_cid, h.local_scid_eq]

/-- What is sealed counts in its Length the padding beside what is due. -/
theorem padded_length (padding : Nat) : unpadded_length cap c + padding =
    c.pn_len .Initial + (ack_len cap c + crypto_len cap c + padding) + tag_len := by
  unfold unpadded_length
  omega

/-- The padding decides the size: a packet whose padded size fits is built with that size. -/
theorem built_with_padding {now : Instant} {send : DirectionalKeys B.Aes128GcmProvider}
    (hsend : c.keys.initial_send = some send)
    (hdrafted : Drafted cap now c d pad_to_min) (hdcid : c.remote_cid.length ≤ 20)
    (hscid : c.local_scid.length ≤ 20) (hne : ack_len cap c + crypto_len cap c ≠ 0)
    {padding header_len : Nat}
    (hpadding : initial_padding c.initial_base_header (c.pn_len .Initial)
      (ack_len cap c + crypto_len cap c) pad_to_min = (padding, header_len))
    (hheader : header_len = c.initial_base_header + varint_len (unpadded_length cap c + padding))
    (hmax : unpadded_length cap c + padding ≤ 8000)
    (hfits : header_len + (unpadded_length cap c + padding) ≤ cap) :
    ∃ pkt, (c.build_initial_packet cap now).1 = some pkt ∧
      pkt.data.length = header_len + (unpadded_length cap c + padding) ∧
      ((Padded cap c → unpadded_size cap c < MIN_INITIAL_PACKET_SIZE →
        header_len + (unpadded_length cap c + padding) = MIN_INITIAL_PACKET_SIZE) →
          WellSized cap c pkt) := by
  have hsame := hdrafted.header
  have hbytes := hdrafted.bytes_len
  obtain ⟨pkt, hseal, hlen, hdr, hparse, hpl, hoff⟩ := seal_initial_built (d := d)
    (by rw [hsame.keys]; exact hsend) (by rw [hsame.remote_cid]; exact hdcid)
    (by rw [hsame.local_scid_eq]; exact hscid) (by rw [hbytes]; exact due_len hne)
    (by rw [hsame.base_eq, hsame.pn_len_eq, hbytes]; exact hpadding)
    (by rw [hsame.pn_len_eq, hbytes]; exact padded_length padding)
    (by rw [hsame.base_eq]; exact hheader) (Nat.le_trans hmax (by decide)) hfits
  refine ⟨pkt, by rw [hdrafted.built hne, hseal]; rfl, hlen, fun hpadded => ?_⟩
  exact ⟨by omega, fun hpad hsmall => hlen.trans (hpadded hpad hsmall), hdr, padding, hparse,
    hpl.trans (padded_length padding), hoff⟩

end Sizes

/-- A packet that is needed is built and well sized, except for one that has to be padded and
whose Length takes one byte before: it gets no packet, or one of 1201 bytes. -/
theorem sized_iff {cap : Nat} {c : Connection B} (now : Instant)
    {send : DirectionalKeys B.Aes128GcmProvider} (hsend : c.keys.initial_send = some send)
    (hdcid : c.remote_cid.length ≤ 20) (hscid : c.local_scid.length ≤ 20)
    (hstream : ∀ ctx ∈ c.handshake_slot, (ctx.pending_crypto.get .Initial).length ≤ 2048)
    (hcap : 1200 ≤ cap) :
    Sized cap now c ↔
      ack_len cap c + crypto_len cap c = 0 ∨ ¬Padded cap c ∨ 63 < unpadded_length cap c := by
  obtain ⟨d, pad_to_min, hdrafted⟩ := build_initial_packet_drafted now hdcid hscid hcap
  have hbase := base_header_le hdcid hscid
  have hlen : unpadded_length cap c ≤ 4000 := unpadded_length_le hstream
  have hfits := unpadded_fits hdcid hscid hcap
  have hspec : unpadded_length cap c =
      c.pn_len .Initial + (ack_len cap c + crypto_len cap c) + tag_len := rfl
  have hsize : unpadded_size cap c =
      c.initial_base_header + varint_len (unpadded_length cap c) + unpadded_length cap c := rfl
  have hmin : MIN_INITIAL_PACKET_SIZE = 1200 := rfl
  constructor
  · intro h
    by_contra hnot
    rw [not_or, not_or, not_not] at hnot
    obtain ⟨hne, hpadded, hsmall⟩ := hnot
    obtain ⟨pkt, hpkt, hsized⟩ := h hne
    obtain ⟨padding, hpadding, hgrown⟩ := initial_padding_grown (c.pn_len .Initial)
      (ack_len cap c + crypto_len cap c) hbase (by omega)
    rw [← hdrafted.padded.mpr hpadded] at hpadding
    have hvi : varint_len (unpadded_length cap c) = 1 := varint_len_one (by omega)
    have hvi' : varint_len (unpadded_length cap c + padding) = 2 :=
      varint_len_two (by omega) (by omega)
    have hexact := hsized.padded hpadded (by omega)
    by_cases hroom : cap = 1200
    · -- The buffer has no room for the byte too many.
      have hdraft : initial_padding d.1.initial_base_header (d.1.pn_len .Initial) d.2.bytes.length
          pad_to_min = (padding, c.initial_base_header + 2) := by
        rw [hdrafted.header.base_eq, hdrafted.header.pn_len_eq, hdrafted.bytes_len]
        exact hpadding
      have hnone : seal_initial cap pad_to_min d = none := by
        refine seal_initial_none hdraft ?_
        rw [hdrafted.header.pn_len_eq, hdrafted.bytes_len]
        omega
      rw [hdrafted.built hne, hnone] at hpkt
      cases hpkt
    · obtain ⟨pkt', hpkt', hlong, -⟩ := built_with_padding hsend hdrafted hdcid hscid hne hpadding
        (by omega) (by omega) (by omega)
      rw [hpkt] at hpkt'
      cases hpkt'
      omega
  · intro h hne
    by_cases hpad : Padded cap c ∧ unpadded_size cap c < MIN_INITIAL_PACKET_SIZE
    · obtain ⟨hpadded, hsmall⟩ := hpad
      have hlarge : 63 < unpadded_length cap c :=
        (h.resolve_left hne).resolve_left (not_not_intro hpadded)
      obtain ⟨padding, hpadding, hexact⟩ := initial_padding_exact (c.pn_len .Initial)
        (ack_len cap c + crypto_len cap c) hbase (by omega) hsmall
      rw [← hdrafted.padded.mpr hpadded] at hpadding
      have hvi : varint_len (unpadded_length cap c + padding) = 2 :=
        varint_len_two (by omega) (by omega)
      obtain ⟨pkt, hpkt, -, hsized⟩ := built_with_padding hsend hdrafted hdcid hscid hne hpadding
        (by omega) (by omega) (by omega)
      exact ⟨pkt, hpkt, hsized fun _ _ => by omega⟩
    · have hpadding : initial_padding c.initial_base_header (c.pn_len .Initial)
          (ack_len cap c + crypto_len cap c) pad_to_min =
            (0, c.initial_base_header + varint_len (unpadded_length cap c)) := by
        refine initial_padding_none _ _ _ fun htrue => ?_
        have hlt := not_and.mp hpad (hdrafted.padded.mp htrue)
        exact Nat.le_of_not_lt hlt
      obtain ⟨pkt, hpkt, -, hsized⟩ := built_with_padding hsend hdrafted hdcid hscid hne hpadding
        rfl (by omega) (by omega)
      exact ⟨pkt, hpkt, hsized fun hpadded hsmall => absurd ⟨hpadded, hsmall⟩ hpad⟩

/-! ## A ClientHello, and an acknowledgement -/

open standin

/-- A client that has sent its ClientHello and got an Initial packet with a PING back. -/
def pinged : Connection build :=
  (client .default_params).after ((client .default_params).steps
    [.op (.poll_transmit 1500 0),
     .recv (initial_from_server [8, 7, 6, 5] 0 [.Ping, .Padding, .Padding, .Padding]) 1500 1])

/-- The first packet of a client is 1200 bytes, through a buffer of just as many. -/
theorem client_hello_sized :
    ((client .default_params).build_initial_packet 1200 0).1.isSome = true ∧
      Sized 1200 0 (client .default_params) := by
  have hrun : (client .default_params).keys.initial_send.isSome = true ∧
      (client .default_params).remote_cid.length ≤ 20 ∧
      (client .default_params).local_scid.length ≤ 20 ∧
      (∀ ctx ∈ (client .default_params).handshake_slot,
        (ctx.pending_crypto.get .Initial).length ≤ 2048) ∧
      63 < unpadded_length 1200 (client .default_params) ∧
      ((client .default_params).build_initial_packet 1200 0).1.isSome = true := by decide +kernel
  obtain ⟨hkeys, hremote, hlocal, hstream, hlong, hbuilt⟩ := hrun
  exact ⟨hbuilt, (sized_iff 0 (Option.some_get hkeys).symm hremote hlocal hstream
    (Nat.le_refl 1200)).mpr (.inr (.inr hlong))⟩

/-- The client owes an ACK, for which a buffer of 1200 bytes gets no packet. -/
theorem ack_gets_no_packet :
    ¬ ∀ (B : Build) (c : Connection B) (cap : Nat) (now : Instant),
      c.keys.initial_send.isSome = true → c.remote_cid.length ≤ 20 → c.local_scid.length ≤ 20 →
      (∀ ctx ∈ c.handshake_slot, (ctx.pending_crypto.get .Initial).length ≤ 2048) → 1200 ≤ cap →
      Sized cap now c := by
  intro h
  have hrun : pinged.keys.initial_send.isSome = true ∧ pinged.remote_cid.length ≤ 20 ∧
      pinged.local_scid.length ≤ 20 ∧
      (∀ ctx ∈ pinged.handshake_slot, (ctx.pending_crypto.get .Initial).length ≤ 2048) ∧
      ack_len 1200 pinged + crypto_len 1200 pinged ≠ 0 ∧
      (pinged.build_initial_packet 1200 2).1.isSome = false := by
    decide +kernel
  obtain ⟨hkeys, hremote, hlocal, hstream, hne, hnone⟩ := hrun
  obtain ⟨pkt, hpkt, -⟩ := h build pinged 1200 2 hkeys hremote hlocal hstream (by decide) hne
  rw [hpkt] at hnone
  cases hnone

end milli_http.connection.initial_size
