-- Indices and slices on the receive path. The coalescer and the header parsers compute the
-- end of a long-header packet independently. They agree on every packet but those with
-- version 0, which the coalescer takes for Version Negotiation and the parsers do not.
import MilliHttp.Connection.Steps
import MilliHttp.Standin

open bytes method

namespace milli_http.packet

open varint Outcome Outcome

/-! ## The layout of a long header -/

/-- The fields of a long header up to the source connection id. -/
structure LongLayout (buf : Bytes) (first dcid_len scid_len : UInt8) (version : Nat) : Prop where
  at_first : buf[0]? = some first
  long : first &&& 0x80 ≠ 0
  at_version : version_field buf = .ok version
  at_dcid_len : buf[5]? = some dcid_len
  at_scid_len : buf[6 + dcid_len.toNat]? = some scid_len
  fits : 7 + dcid_len.toNat + scid_len.toNat ≤ buf.length

variable {buf : Bytes}

theorem index_eq_ok {i : Nat} {b : UInt8}
    (h : (index buf i : Outcome Error UInt8) = .ok b) : buf[i]? = some b := by
  unfold index at h
  split at h
  · rename_i heq
    cases h
    exact heq
  · cases h

theorem index_of_getElem? {i : Nat} {b : UInt8} (h : buf[i]? = some b) :
    (index buf i : Outcome Error UInt8) = .ok b := by
  simp [index, h]

theorem getElem?_append {a b : Bytes} {i : Nat} {x : UInt8} (h : a[i]? = some x) :
    (a ++ b)[i]? = some x := by
  rw [List.getElem?_append_left (List.getElem?_eq_some_iff.mp h).1]
  exact h

theorem version_field_append {a b : Bytes} {v : Nat} (h : version_field a = .ok v) :
    version_field (a ++ b) = .ok v := by
  unfold version_field at h ⊢
  obtain ⟨b1, h1, h⟩ := bind_eq_ok h
  obtain ⟨b2, h2, h⟩ := bind_eq_ok h
  obtain ⟨b3, h3, h⟩ := bind_eq_ok h
  obtain ⟨b4, h4, h⟩ := bind_eq_ok h
  rw [index_of_getElem? (getElem?_append (index_eq_ok h1)), ok_bind,
    index_of_getElem? (getElem?_append (index_eq_ok h2)), ok_bind,
    index_of_getElem? (getElem?_append (index_eq_ok h3)), ok_bind,
    index_of_getElem? (getElem?_append (index_eq_ok h4)), ok_bind]
  exact h

theorem LongLayout.append {a : Bytes} {first dcid_len scid_len : UInt8} {version : Nat}
    (h : LongLayout a first dcid_len scid_len version) (b : Bytes) :
    LongLayout (a ++ b) first dcid_len scid_len version where
  at_first := getElem?_append h.at_first
  long := h.long
  at_version := version_field_append h.at_version
  at_dcid_len := getElem?_append h.at_dcid_len
  at_scid_len := getElem?_append h.at_scid_len
  fits := by
    have := h.fits
    simp only [List.length_append]
    omega

theorem version_field_safe (h : 5 ≤ buf.length) : (version_field buf).Safe := by
  unfold version_field
  rw [index_of_lt (by omega), ok_bind, index_of_lt (by omega), ok_bind, index_of_lt (by omega),
    ok_bind, index_of_lt (by omega), ok_bind]
  exact safe_ok _

/-! ## The header parsers -/

theorem parse_long_fields_safe (buf : Bytes) : (parse_long_fields buf).Safe := by
  unfold parse_long_fields
  split
  · exact safe_err _
  · rw [index_of_lt (by omega), ok_bind]
    split
    · exact safe_err _
    · refine safe_bind (version_field_safe (by omega)) fun version _ => ?_
      rw [index_of_lt (by omega), ok_bind]
      dsimp only
      split
      · exact safe_err _
      · rw [slice_of_le (by omega) (by omega), ok_bind]
        split
        · exact safe_err _
        · rw [index_of_lt (by omega), ok_bind]
          split
          · exact safe_err _
          · rw [slice_of_le (by omega) (by omega), ok_bind]
            exact safe_ok _

theorem parse_long_fields_layout {f : LongFields}
    (h : parse_long_fields buf = .ok f) : ∃ first dcid_len scid_len,
      LongLayout buf first dcid_len scid_len f.version ∧
        f.pos = 7 + dcid_len.toNat + scid_len.toNat := by
  unfold parse_long_fields at h
  split at h
  · cases h
  · obtain ⟨first, hfirst, h⟩ := bind_eq_ok h
    split at h
    · cases h
    · rename_i hlong
      obtain ⟨version, hversion, h⟩ := bind_eq_ok h
      obtain ⟨dcid_len, hdcid, h⟩ := bind_eq_ok h
      dsimp only at h
      split at h
      · cases h
      · obtain ⟨dcid, -, h⟩ := bind_eq_ok h
        split at h
        · cases h
        · obtain ⟨scid_len, hscid, h⟩ := bind_eq_ok h
          split at h
          · cases h
          · obtain ⟨scid, -, h⟩ := bind_eq_ok h
            cases h
            refine ⟨first, dcid_len, scid_len, ⟨index_eq_ok hfirst, hlong, hversion,
              index_eq_ok hdcid, index_eq_ok hscid, by omega⟩, ?_⟩
            dsimp only
            omega

theorem parse_initial_header_layout {hdr : InitialHeader}
    (h : parse_initial_header buf = .ok hdr) : ∃ first dcid_len scid_len token_len consumed consumed',
      LongLayout buf first dcid_len scid_len hdr.version ∧
      decode_varint (buf.drop (7 + dcid_len.toNat + scid_len.toNat)) = .ok (token_len, consumed) ∧
      7 + dcid_len.toNat + scid_len.toNat + consumed + token_len ≤ buf.length ∧
      decode_varint (buf.drop (7 + dcid_len.toNat + scid_len.toNat + consumed + token_len)) =
        .ok (hdr.payload_length, consumed') ∧
      hdr.pn_offset = 7 + dcid_len.toNat + scid_len.toNat + consumed + token_len + consumed' := by
  unfold parse_initial_header at h
  obtain ⟨f, hf, h⟩ := bind_eq_ok h
  obtain ⟨first, dcid_len, scid_len, hlayout, hpos⟩ := parse_long_fields_layout hf
  have hfits := hlayout.fits
  rw [hpos, sliceFrom_of_le hfits, ok_bind] at h
  obtain ⟨⟨token_len, consumed⟩, htoken, h⟩ := bind_eq_ok h
  dsimp only at h
  split at h
  · cases h
  · rename_i hend
    rw [slice_of_le (by omega) (by omega), ok_bind, sliceFrom_of_le (by omega), ok_bind] at h
    obtain ⟨⟨payload_length, consumed'⟩, hlength, h⟩ := bind_eq_ok h
    cases h
    exact ⟨first, dcid_len, scid_len, token_len, consumed, consumed', hlayout, ofExcept_eq_ok htoken,
      by omega, ofExcept_eq_ok hlength, rfl⟩

theorem parse_initial_header_safe (buf : Bytes) : (parse_initial_header buf).Safe := by
  unfold parse_initial_header
  refine safe_bind (parse_long_fields_safe buf) fun f hf => ?_
  obtain ⟨first, dcid_len, scid_len, hlayout, hpos⟩ := parse_long_fields_layout hf
  have hfits := hlayout.fits
  rw [hpos, sliceFrom_of_le hfits, ok_bind]
  refine safe_bind (safe_ofExcept _) fun r _ => ?_
  obtain ⟨token_len, consumed⟩ := r
  dsimp only
  split
  · exact safe_err _
  · rw [slice_of_le (by omega) (by omega), ok_bind, sliceFrom_of_le (by omega), ok_bind]
    exact safe_bind (safe_ofExcept _) fun r _ => safe_ok _

theorem parse_handshake_header_layout {hdr : HandshakeHeader}
    (h : parse_handshake_header buf = .ok hdr) : ∃ first dcid_len scid_len consumed,
      LongLayout buf first dcid_len scid_len hdr.version ∧
      decode_varint (buf.drop (7 + dcid_len.toNat + scid_len.toNat)) =
        .ok (hdr.payload_length, consumed) ∧
      hdr.pn_offset = 7 + dcid_len.toNat + scid_len.toNat + consumed := by
  unfold parse_handshake_header at h
  obtain ⟨f, hf, h⟩ := bind_eq_ok h
  obtain ⟨first, dcid_len, scid_len, hlayout, hpos⟩ := parse_long_fields_layout hf
  rw [hpos, sliceFrom_of_le hlayout.fits, ok_bind] at h
  obtain ⟨⟨payload_length, consumed⟩, hlength, h⟩ := bind_eq_ok h
  cases h
  exact ⟨first, dcid_len, scid_len, consumed, hlayout, ofExcept_eq_ok hlength, rfl⟩

theorem parse_handshake_header_safe (buf : Bytes) : (parse_handshake_header buf).Safe := by
  unfold parse_handshake_header
  refine safe_bind (parse_long_fields_safe buf) fun f hf => ?_
  obtain ⟨first, dcid_len, scid_len, hlayout, hpos⟩ := parse_long_fields_layout hf
  rw [hpos, sliceFrom_of_le hlayout.fits, ok_bind]
  exact safe_bind (safe_ofExcept _) fun r _ => safe_ok _

/-! ## The coalescer -/

/-- Past the version, the coalescer reads the fields the parsers read. -/
theorem packet_len_of_layout {first dcid_len scid_len : UInt8} {version : Nat}
    (h : LongLayout buf first dcid_len scid_len version) (hv : version ≠ 0) (buf_len : Nat) :
    packet_len buf_len buf = (do
      let pos ← packet_len.after_token buf (7 + dcid_len.toNat + scid_len.toNat) first
      if pkt_type first = 0b11 then .ok buf.length
      else do
        let rest ← sliceFrom buf pos
        let (payload_length, consumed) ← .ofExcept (decode_varint rest)
        let total := pos + consumed + payload_length
        if total > buf.length then .err (.BufferTooSmall (buf_len + total)) else .ok total) := by
  have hfits := h.fits
  have hpos : 6 + dcid_len.toNat + 1 + scid_len.toNat = 7 + dcid_len.toNat + scid_len.toNat := by
    omega
  unfold packet_len
  rw [index_of_getElem? h.at_first, ok_bind, if_neg h.long, if_neg (by omega), h.at_version, ok_bind,
    if_neg hv, index_of_getElem? h.at_dcid_len, ok_bind]
  dsimp only
  rw [if_neg (by omega), index_of_getElem? h.at_scid_len, ok_bind, if_neg (by omega), hpos]

theorem after_token_safe {pos : Nat} (first : UInt8) (h : pos ≤ buf.length) :
    (packet_len.after_token buf pos first).Safe := by
  unfold packet_len.after_token
  split
  · rw [sliceFrom_of_le h, ok_bind]
    refine safe_bind (safe_ofExcept _) fun r _ => ?_
    obtain ⟨token_len, consumed⟩ := r
    dsimp only
    split
    · exact safe_err _
    · exact safe_ok _
  · exact safe_ok _

theorem after_token_le {pos pos' : Nat} {first : UInt8} (h : pos ≤ buf.length)
    (heq : packet_len.after_token buf pos first = .ok pos') : pos' ≤ buf.length := by
  unfold packet_len.after_token at heq
  split at heq
  · rw [sliceFrom_of_le h, ok_bind] at heq
    obtain ⟨⟨token_len, consumed⟩, -, heq⟩ := bind_eq_ok heq
    dsimp only at heq
    split at heq
    · cases heq
    · cases heq
      omega
  · cases heq
    exact h

/-- The coalescer never reads outside what is left of the datagram. -/
theorem packet_len_safe (hne : buf ≠ []) (buf_len : Nat) : (packet_len buf_len buf).Safe := by
  have hlen : 0 < buf.length := List.length_pos_of_ne_nil hne
  unfold packet_len
  rw [index_of_lt hlen, ok_bind]
  split
  · exact safe_ok _
  · split
    · exact safe_err _
    · refine safe_bind (version_field_safe (by omega)) fun version _ => ?_
      split
      · exact safe_ok _
      · rw [index_of_lt (by omega), ok_bind]
        dsimp only
        split
        · exact safe_err _
        · rw [index_of_lt (by omega), ok_bind]
          split
          · exact safe_err _
          · refine safe_bind (after_token_safe _ (by omega)) fun pos hpos => ?_
            split
            · exact safe_ok _
            · have hle := after_token_le (by omega) hpos
              rw [sliceFrom_of_le hle, ok_bind]
              refine safe_bind (safe_ofExcept _) fun r _ => ?_
              obtain ⟨payload_length, consumed⟩ := r
              dsimp only
              split
              · exact safe_err _
              · exact safe_ok _

/-- The end it finds is inside. -/
theorem packet_len_le {buf_len total : Nat} (h : packet_len buf_len buf = .ok total) :
    total ≤ buf.length := by
  unfold packet_len at h
  obtain ⟨first, -, h⟩ := bind_eq_ok h
  split at h
  · cases h
    exact Nat.le_refl _
  · split at h
    · cases h
    · obtain ⟨version, -, h⟩ := bind_eq_ok h
      split at h
      · cases h
        exact Nat.le_refl _
      · obtain ⟨dcid_len, -, h⟩ := bind_eq_ok h
        dsimp only at h
        split at h
        · cases h
        · obtain ⟨scid_len, -, h⟩ := bind_eq_ok h
          split at h
          · cases h
          · obtain ⟨pos, -, h⟩ := bind_eq_ok h
            split at h
            · cases h
              exact Nat.le_refl _
            · obtain ⟨rest, -, h⟩ := bind_eq_ok h
              obtain ⟨⟨payload_length, consumed⟩, -, h⟩ := bind_eq_ok h
              dsimp only at h
              split at h
              · cases h
              · cases h
                omega

theorem drop_take_append {n pos : Nat} (h : pos ≤ n) (hn : n ≤ buf.length) :
    buf.drop pos = (buf.take n).drop pos ++ buf.drop n := by
  conv => lhs; rw [← List.take_append_drop n buf]
  exact List.drop_append_of_le_length (by simp; omega)

/-- For a version other than 0, the Initial parser agrees with the coalescer. -/
theorem initial_ends_with_packet {buf_len total : Nat} {hdr : InitialHeader}
    (hlen : packet_len buf_len buf = .ok total) (hparse : parse_initial_header (buf.take total) = .ok hdr)
    (hv : hdr.version ≠ 0) (hty : ∀ first, buf[0]? = some first → pkt_type first = 0b00) :
    hdr.pn_offset + hdr.payload_length = total := by
  have htotal := packet_len_le hlen
  obtain ⟨first, dcid_len, scid_len, token_len, consumed, consumed', hlayout, htoken, hend, hlength,
    hpn⟩ := parse_initial_header_layout hparse
  have hfits := hlayout.fits
  simp only [List.length_take] at hfits hend
  have hbuf := hlayout.append (buf.drop total)
  have htoken' := decode_varint_append htoken (buf.drop total)
  have hlength' := decode_varint_append hlength (buf.drop total)
  rw [← drop_take_append (by omega) htotal] at htoken' hlength'
  rw [List.take_append_drop] at hbuf
  have htype := hty first hbuf.at_first
  rw [packet_len_of_layout hbuf hv] at hlen
  unfold packet_len.after_token at hlen
  rw [if_pos htype, sliceFrom_of_le hbuf.fits, ok_bind, htoken', ofExcept_ok, ok_bind] at hlen
  dsimp only at hlen
  rw [if_neg (by omega), ok_bind, if_neg (by simp [htype]), sliceFrom_of_le (by omega), ok_bind, hlength',
    ofExcept_ok, ok_bind] at hlen
  dsimp only at hlen
  split at hlen
  · cases hlen
  · cases hlen
    omega

/-- For a version other than 0, the Handshake parser agrees with the coalescer. -/
theorem handshake_ends_with_packet {buf_len total : Nat} {hdr : HandshakeHeader}
    (hlen : packet_len buf_len buf = .ok total)
    (hparse : parse_handshake_header (buf.take total) = .ok hdr) (hv : hdr.version ≠ 0)
    (hty : ∀ first, buf[0]? = some first → pkt_type first = 0b10) :
    hdr.pn_offset + hdr.payload_length = total := by
  have htotal := packet_len_le hlen
  obtain ⟨first, dcid_len, scid_len, consumed, hlayout, hlength, hpn⟩ :=
    parse_handshake_header_layout hparse
  have hfits := hlayout.fits
  simp only [List.length_take] at hfits
  have hbuf := hlayout.append (buf.drop total)
  have hlength' := decode_varint_append hlength (buf.drop total)
  rw [← drop_take_append (by omega) htotal] at hlength'
  rw [List.take_append_drop] at hbuf
  have htype := hty first hbuf.at_first
  rw [packet_len_of_layout hbuf hv] at hlen
  unfold packet_len.after_token at hlen
  rw [if_neg (by simp [htype]), ok_bind, if_neg (by simp [htype]), sliceFrom_of_le hbuf.fits, ok_bind,
    hlength', ofExcept_ok, ok_bind] at hlen
  dsimp only at hlen
  split at hlen
  · cases hlen
  · cases hlen
    omega

theorem front_eq {it : CoalescedPackets} (h : it.offset < it.buf.length) :
    it.front = (do
      let total ← packet_len it.buf.length (it.buf.drop it.offset)
      .ok ((it.buf.drop it.offset).take total)) := by
  unfold CoalescedPackets.front
  rw [sliceFrom_of_le (by omega), ok_bind]
  cases hlen : packet_len it.buf.length (it.buf.drop it.offset) with
  | err e => rfl
  | panic => rfl
  | ok total =>
    have hle := packet_len_le hlen
    rw [List.length_drop] at hle
    rw [ok_bind, ok_bind, slice_of_le (by omega) (by omega), Nat.add_sub_cancel_left]

/-- Every item the iterator yields is the front of what was left at some point. -/
theorem mem_items {fuel : Nat} {it : CoalescedPackets} {item : Outcome Error Bytes}
    (h : item ∈ it.items fuel) :
    ∃ offset < it.buf.length, item = CoalescedPackets.front { it with offset } := by
  induction fuel generalizing it with
  | zero => cases h
  | succ fuel ih =>
    unfold CoalescedPackets.items CoalescedPackets.next at h
    by_cases hend : it.offset ≥ it.buf.length
    · simp [hend] at h
    · rw [if_neg hend] at h
      have hhere : item = it.front → ∃ offset < it.buf.length,
          item = CoalescedPackets.front { it with offset } := fun heq => ⟨it.offset, by omega, heq⟩
      cases hfront : it.front with
      | panic =>
        simp only [hfront, List.mem_singleton] at h
        exact hhere (h.trans hfront.symm)
      | err e =>
        simp only [hfront, List.mem_cons] at h
        rcases h with h | h
        · exact hhere (h.trans hfront.symm)
        · have hrest := ih h
          exact hrest
      | ok pkt =>
        simp only [hfront, List.mem_cons] at h
        rcases h with h | h
        · exact hhere (h.trans hfront.symm)
        · have hrest := ih h
          exact hrest

theorem coalesced_safe (datagram : Bytes) : .panic ∉ coalesced datagram := by
  intro h
  obtain ⟨offset, hlt, heq⟩ := mem_items h
  have hne : datagram.drop offset ≠ [] := by
    simp only [ne_eq, List.drop_eq_nil_iff]
    exact Nat.not_le.mpr hlt
  have hsafe := packet_len_safe hne datagram.length
  rw [front_eq hlt] at heq
  dsimp only at heq
  cases hlen : packet_len datagram.length (datagram.drop offset) with
  | ok total => simp [hlen] at heq
  | err e => simp [hlen] at heq
  | panic => exact hsafe hlen

theorem coalesced_ok {datagram pkt_data : Bytes} (h : .ok pkt_data ∈ coalesced datagram) :
    ∃ buf total, packet_len datagram.length buf = .ok total ∧ pkt_data = buf.take total := by
  obtain ⟨offset, hlt, heq⟩ := mem_items h
  rw [front_eq hlt] at heq
  obtain ⟨total, hlen, heq⟩ := bind_eq_ok heq.symm
  cases heq
  exact ⟨_, total, hlen, rfl⟩

end milli_http.packet

namespace milli_http.connection.recv_bounds

open crypto tls transport packet frame Connection Outcome

variable {B : Build} {kind : PacketKind}

/-! ## Decryption -/

theorem pn_len_le (b : UInt8) : ((b &&& 0x03) + 1).toNat ≤ 4 := by
  have hand : b.toNat &&& 3 ≤ 3 := Nat.and_le_right
  have hmod : (b.toNat &&& 3) + 1 < 2 ^ 8 := by omega
  simp only [UInt8.toNat_add, UInt8.toNat_and, UInt8.reduceToNat]
  rw [Nat.mod_eq_of_lt hmod]
  omega

/-- Removing header protection stays inside the packet once the sample does. -/
theorem unprotect_safe {P : CryptoProvider} (keys : DirectionalKeys P) (bits : UInt8) (buf : Bytes)
    {pn_offset : Nat} (hpn : 1 ≤ pn_offset) (largest_pn : Nat) :
    (unprotect keys bits buf pn_offset largest_pn).Safe := by
  unfold unprotect
  dsimp only
  split
  · exact safe_err _
  · rename_i hsample
    rw [slice_of_le (by omega) (by omega), ok_bind, index_of_lt (by omega), ok_bind]
    have hlen := pn_len_le (buf[0] ^^^ ((P.mask keys.header_protection
      ((buf.drop (pn_offset + 4)).take (pn_offset + 4 + 16 - (pn_offset + 4)))).headD 0 &&& bits))
    rw [slice_of_le (by omega) (by omega), ok_bind]
    split
    · exact safe_err _
    · rw [slice_of_le (by omega) (by omega), ok_bind, sliceFrom_of_le (by omega), ok_bind]
      exact safe_ok _

/-- Decryption of a long-header packet stays inside it if its payload does. -/
theorem decrypt_long_packet_safe {P : CryptoProvider} {pkt_data : Bytes} {pn_offset payload_length : Nat}
    (hpn : 1 ≤ pn_offset) (hinside : pn_offset + payload_length ≤ pkt_data.length)
    (largest_pn : Nat) (recv : DirectionalKeys P) (scratch_len : Nat) :
    (decrypt_long_packet pkt_data pn_offset payload_length largest_pn recv scratch_len).Safe := by
  unfold decrypt_long_packet
  dsimp only
  split
  · exact safe_err _
  · rw [slice_of_le (Nat.zero_le _) hinside, ok_bind]
    refine safe_bind (unprotect_safe _ _ _ hpn _) fun u _ => ?_
    exact safe_bind (safe_ofExcept _) fun payload _ => safe_ok _

/-! ## Opening packets -/

/-- The payload of a long-header packet, as its parser finds it, is inside the packet. -/
def HeaderInside (kind : PacketKind) (pkt_data : Bytes) : Prop :=
  match kind with
  | .Initial => ∀ hdr, parse_initial_header pkt_data = .ok hdr →
      hdr.pn_offset + hdr.payload_length ≤ pkt_data.length
  | .Handshake => ∀ hdr, parse_handshake_header pkt_data = .ok hdr →
      hdr.pn_offset + hdr.payload_length ≤ pkt_data.length
  | .Short => True

theorem opened_long_safe (c : Connection B) (level : Level) {r : Outcome Error (Nat × Bytes)}
    (h : r.Safe) : (c.opened_long level r).Safe :=
  safe_bind h fun _ _ => safe_ok _

theorem unprotect_short_safe (c : Connection B) (pkt_data : Bytes) (scratch_len : Nat) :
    (c.unprotect_short pkt_data scratch_len).Safe := by
  have hparse : (parse_short_header pkt_data c.local_scid.length).Safe := by
    unfold parse_short_header
    dsimp only
    split
    · exact safe_err _
    · rw [index_of_lt (by omega), ok_bind]
      split
      · exact safe_err _
      · rw [slice_of_le (by omega) (by omega), ok_bind]
        exact safe_ok _
  have hoffset : ∀ r, parse_short_header pkt_data c.local_scid.length = .ok r → 1 ≤ r.2 := by
    intro r hr
    unfold parse_short_header at hr
    dsimp only at hr
    split at hr
    · cases hr
    · obtain ⟨first, -, hr⟩ := bind_eq_ok hr
      split at hr
      · cases hr
      · obtain ⟨dcid, -, hr⟩ := bind_eq_ok hr
        cases hr
        dsimp only
        omega
  unfold unprotect_short
  refine safe_bind hparse fun r hr => ?_
  dsimp only
  split
  · exact safe_err _
  · split
    · exact safe_err _
    · exact unprotect_safe _ _ _ (hoffset r hr) _

/-- A packet whose payload is inside is opened without a panic. -/
theorem open_kind_safe (c : Connection B) {pkt_data : Bytes}
    (h : HeaderInside kind pkt_data) (scratch_len : Nat) :
    (c.open_kind kind pkt_data scratch_len).1.Safe := by
  cases kind with
  | Initial =>
    simp only [open_kind, open_initial]
    cases hparse : parse_initial_header pkt_data with
    | panic => exact absurd hparse (parse_initial_header_safe pkt_data)
    | err e => exact safe_err _
    | ok hdr =>
      have hpn : 1 ≤ hdr.pn_offset := by
        obtain ⟨_, _, _, _, _, _, -, -, -, -, hpn⟩ := parse_initial_header_layout hparse
        omega
      dsimp only
      split
      · exact safe_err _
      · split
        · exact safe_err _
        · exact opened_long_safe _ _ (decrypt_long_packet_safe hpn (h hdr hparse) _ _ _)
  | Handshake =>
    simp only [open_kind, open_handshake]
    cases hparse : parse_handshake_header pkt_data with
    | panic => exact absurd hparse (parse_handshake_header_safe pkt_data)
    | err e => exact safe_err _
    | ok hdr =>
      have hpn : 1 ≤ hdr.pn_offset := by
        obtain ⟨_, _, _, _, -, -, hpn⟩ := parse_handshake_header_layout hparse
        omega
      dsimp only
      split
      · exact safe_err _
      · exact opened_long_safe _ _ (decrypt_long_packet_safe hpn (h hdr hparse) _ _ _)
  | Short =>
    simp only [open_kind, open_short]
    split
    · rename_i hpanic
      exact absurd hpanic (unprotect_short_safe c pkt_data scratch_len)
    · exact safe_err _
    · split
      · exact safe_ok _
      · split
        · exact safe_err _
        · exact safe_ok _

/-! ## Whole datagrams -/

/-- Dispatching frames and booking never panic. -/
theorem recv_packet_isSome (c : Connection B) {pkt_data : Bytes}
    (h : ∀ kind, packet_kind pkt_data = some kind → HeaderInside kind pkt_data) (scratch_len : Nat)
    (now : Instant) : (c.recv_packet pkt_data scratch_len now).isSome := by
  unfold recv_packet
  cases hk : packet_kind pkt_data with
  | none => rfl
  | some kind =>
    have hopen := open_kind_safe c (h kind hk) scratch_len
    dsimp only
    rw [recv_kind_eq]
    rcases ho : c.open_kind kind pkt_data scratch_len with ⟨o | e | _, c'⟩
    · obtain ⟨level, pn, payload⟩ := o
      cases payload with
      | none => rfl
      | some payload =>
        simp only [process]
        rcases dispatch_frames level now payload.length payload false c' with ⟨_ | _, c''⟩ <;> rfl
    · rfl
    · rw [ho] at hopen
      exact absurd hopen not_safe_panic

theorem recv_packets_isSome {items : List (Outcome Error Bytes)} (hpanic : .panic ∉ items)
    (h : ∀ pkt_data kind, .ok pkt_data ∈ items → packet_kind pkt_data = some kind →
      HeaderInside kind pkt_data) (scratch_len : Nat) (now : Instant) (c : Connection B) :
    (recv_packets scratch_len now items c).isSome := by
  induction items generalizing c with
  | nil => rfl
  | cons item rest ih =>
    cases item with
    | panic => simp at hpanic
    | err e => rfl
    | ok pkt_data =>
      have hhere := recv_packet_isSome c (fun kind hk => h pkt_data kind List.mem_cons_self hk)
        scratch_len now
      obtain ⟨c', hc'⟩ := Option.isSome_iff_exists.mp hhere
      simp only [recv_packets, hc', Option.bind_eq_bind, Option.bind_some]
      exact ih (fun hmem => hpanic (List.mem_cons_of_mem _ hmem))
        (fun pkt kind hmem hk => h pkt kind (List.mem_cons_of_mem _ hmem) hk) c'

/-- A packet of version 0 whose Length runs past its end. -/
def VersionZeroOverrun (kind : PacketKind) (pkt_data : Bytes) : Prop :=
  match kind with
  | .Initial => ∃ hdr, parse_initial_header pkt_data = .ok hdr ∧ hdr.version = 0 ∧
      pkt_data.length < hdr.pn_offset + hdr.payload_length
  | .Handshake => ∃ hdr, parse_handshake_header pkt_data = .ok hdr ∧ hdr.version = 0 ∧
      pkt_data.length < hdr.pn_offset + hdr.payload_length
  | .Short => False

/-- The type bits of a packet the coalescer has cut are those at the front of the buffer. -/
theorem pkt_type_of_kind {buf : Bytes} {total : Nat}
    (hk : packet_kind (buf.take total) = some kind) :
    (kind = .Initial → ∀ first, buf[0]? = some first → pkt_type first = 0b00) ∧
      (kind = .Handshake → ∀ first, buf[0]? = some first → pkt_type first = 0b10) := by
  cases buf with
  | nil => simp [packet_kind] at hk
  | cons first rest =>
    cases total with
    | zero => simp [packet_kind] at hk
    | succ total =>
      simp only [List.take_succ_cons, packet_kind] at hk
      simp only [List.getElem?_cons_zero, Option.some.injEq, forall_eq']
      split at hk
      · cases hk
        exact ⟨nofun, nofun⟩
      · split at hk
        · cases hk
          exact ⟨fun _ => ‹_›, nofun⟩
        · split at hk
          · cases hk
            exact ⟨nofun, fun _ => ‹_›⟩
          · cases hk

/-- Only version 0 sets the parsers and the coalescer apart. -/
theorem headerInside_iff {datagram pkt_data : Bytes}
    (hmem : .ok pkt_data ∈ coalesced datagram) (hk : packet_kind pkt_data = some kind) :
    HeaderInside kind pkt_data ↔ ¬ VersionZeroOverrun kind pkt_data := by
  obtain ⟨buf, total, hlen, rfl⟩ := coalesced_ok hmem
  have htotal := packet_len_le hlen
  obtain ⟨hinitial, hhandshake⟩ := pkt_type_of_kind hk
  cases kind with
  | Initial =>
    constructor
    · rintro h ⟨hdr, hparse, -, hover⟩
      have := h hdr hparse
      omega
    · intro h hdr hparse
      by_cases hv : hdr.version = 0
      · by_contra hover
        exact h ⟨hdr, hparse, hv, by omega⟩
      · have heq := initial_ends_with_packet hlen hparse hv (hinitial rfl)
        rw [List.length_take]
        omega
  | Handshake =>
    constructor
    · rintro h ⟨hdr, hparse, -, hover⟩
      have := h hdr hparse
      omega
    · intro h hdr hparse
      by_cases hv : hdr.version = 0
      · by_contra hover
        exact h ⟨hdr, hparse, hv, by omega⟩
      · have heq := handshake_ends_with_packet hlen hparse hv (hhandshake rfl)
        rw [List.length_take]
        omega
  | Short => exact iff_of_true trivial id

/-- `recv` returns, and the payload of every packet it processes is inside the packet. -/
structure InBounds (c : Connection B) (datagram : Bytes) (scratch_len : Nat) (now : Instant) :
    Prop where
  returns : (c.recv datagram scratch_len now).isSome
  inside : c.state ≠ .Closed → ∀ pkt_data kind, .ok pkt_data ∈ coalesced datagram →
    packet_kind pkt_data = some kind → HeaderInside kind pkt_data

/-- `recv` is in bounds exactly when no packet of the datagram is of version 0 with a Length
that runs past its end. -/
theorem recv_in_bounds_iff (c : Connection B) (datagram : Bytes) (scratch_len : Nat)
    (now : Instant) :
    InBounds c datagram scratch_len now ↔ c.state = .Closed ∨
      ∀ pkt_data kind, .ok pkt_data ∈ coalesced datagram → packet_kind pkt_data = some kind →
        ¬ VersionZeroOverrun kind pkt_data := by
  constructor
  · intro h
    by_cases hc : c.state = .Closed
    · exact .inl hc
    · exact .inr fun pkt_data kind hmem hk =>
        (headerInside_iff hmem hk).mp (h.inside hc pkt_data kind hmem hk)
  · intro h
    by_cases hc : c.state = .Closed
    · exact ⟨by simp [recv, hc], fun hne => absurd hc hne⟩
    · have hinside : ∀ pkt_data kind, .ok pkt_data ∈ coalesced datagram →
          packet_kind pkt_data = some kind → HeaderInside kind pkt_data :=
        fun pkt_data kind hmem hk =>
          (headerInside_iff hmem hk).mpr (h.resolve_left hc pkt_data kind hmem hk)
      refine ⟨?_, fun _ => hinside⟩
      have hpackets := recv_packets_isSome (coalesced_safe datagram) hinside scratch_len now
        (c.arrive datagram.length now)
      obtain ⟨c', hc'⟩ := Option.isSome_iff_exists.mp hpackets
      simp [recv, hc, hc']

/-! ## Version 0 -/

open standin

/-- An Initial packet of version 0 that claims a hundred bytes it does not have. -/
def version_zero : Bytes :=
  [0xc0, 0, 0, 0, 0, 4, 8, 7, 6, 5, 0, 0, 0x40, 100] ++ List.replicate 10 0

/-- The coalescer passes the packet on whole, and its decryption slices past its end. -/
theorem version_zero_panics :
    ¬ ∀ (B : Build) (c : Connection B) (datagram : Bytes) (scratch_len : Nat) (now : Instant),
      InBounds c datagram scratch_len now := by
  intro h
  have hreturns := (h build (client .default_params) version_zero 1500 1).returns
  exact absurd hreturns (by decide +kernel)

end milli_http.connection.recv_bounds
