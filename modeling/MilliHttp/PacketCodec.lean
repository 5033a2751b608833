-- The packet codec (packet/long_header.rs, short_header.rs, coalesce.rs): the packets the
-- encoders build, one behind the other, come out of the coalescer one by one, and the
-- parsers find in each what the encoder was given.
import MilliHttp.RecvBounds
import MilliHttp.H3.FrameCodec

open bytes

namespace milli_http.packet

open varint Outcome CoalescedPackets

/-! ## Packets as the encoders build them -/

/-- The two kinds of long-header packet the crate sends. -/
inductive LongKind where
  | Initial (token : Bytes)
  | Handshake
  deriving DecidableEq, Repr

/-- The header of a kind, for packet number and payload of the given lengths. -/
def LongKind.header (kind : LongKind) (dcid scid : Bytes) (pn_len payload_len cap : Nat) :
    Except Error Bytes :=
  match kind with
  | .Initial token => encode_initial_header dcid scid token pn_len payload_len cap
  | .Handshake => encode_handshake_header dcid scid pn_len payload_len cap

/-- What a long-header packet is built from: its fields, the sealed payload behind them, and
the mask that protects the low bits of the first byte. -/
structure LongPacket where
  kind : LongKind
  dcid : Bytes
  scid : Bytes
  pn_bytes : Bytes
  payload : Bytes
  tag : Bytes
  mask : UInt8
  dcid_le : dcid.length ≤ 20
  scid_le : scid.length ≤ 20
  pn_pos : 1 ≤ pn_bytes.length
  pn_le : pn_bytes.length ≤ 4

namespace LongPacket

/-- The Length field covers the packet number, the payload and the tag. -/
def payload_length (p : LongPacket) : Nat := p.pn_bytes.length + p.payload.length + p.tag.length

/-- The packet in a buffer of `cap` bytes: the protected header, then what it covers. -/
def encode (p : LongPacket) (cap : Nat) : Except Error Bytes := do
  let header ← p.kind.header p.dcid p.scid p.pn_bytes.length p.payload_length cap
  pure (header.modifyHead (· ^^^ (p.mask &&& 0x0f)) ++ p.pn_bytes ++ p.payload ++ p.tag)

/-- The parser of its kind finds every field in `buf`, and the packet number behind them. -/
def Reads (p : LongPacket) (buf : Bytes) : Prop :=
  ∃ pn_offset, buf.drop pn_offset = p.pn_bytes ++ p.payload ++ p.tag ∧
    pn_offset + p.payload_length = buf.length ∧
    match p.kind with
    | .Initial token => parse_initial_header buf = .ok
        { version := QUIC_VERSION_1, dcid := p.dcid, scid := p.scid, token, pn_offset,
          payload_length := p.payload_length }
    | .Handshake => parse_handshake_header buf = .ok
        { version := QUIC_VERSION_1, dcid := p.dcid, scid := p.scid, pn_offset,
          payload_length := p.payload_length }

end LongPacket

/-- What a short-header packet is built from. -/
structure ShortPacket where
  dcid : Bytes
  first_byte : UInt8
  /-- The packet number and the sealed payload. -/
  body : Bytes
  mask : UInt8
  short : first_byte &&& 0x80 = 0

namespace ShortPacket

/-- The packet in a buffer of `cap` bytes. -/
def encode (p : ShortPacket) (cap : Nat) : Except Error Bytes := do
  let header ← encode_short_header p.dcid p.first_byte cap
  pure (header.modifyHead (· ^^^ (p.mask &&& 0x1f)) ++ p.body)

/-- The parser finds the connection id in `buf`, and the packet number behind it. -/
def Reads (p : ShortPacket) (buf : Bytes) : Prop :=
  ∃ pn_offset, buf.drop pn_offset = p.body ∧
    parse_short_header buf p.dcid.length = .ok (p.dcid, pn_offset)

end ShortPacket

/-! ## First bytes -/

theorem xor_and (a b c : UInt8) : (a ^^^ b) &&& c = (a &&& c) ^^^ (b &&& c) := by
  refine UInt8.toBitVec_inj.mp (BitVec.eq_of_getLsbD_eq fun i _ => ?_)
  simp only [UInt8.toBitVec_and, UInt8.toBitVec_xor, BitVec.getLsbD_and, BitVec.getLsbD_xor]
  cases a.toBitVec.getLsbD i <;> cases b.toBitVec.getLsbD i <;> cases c.toBitVec.getLsbD i <;> rfl

theorem or_and (a b c : UInt8) : (a ||| b) &&& c = (a &&& c) ||| (b &&& c) := by
  refine UInt8.toBitVec_inj.mp (BitVec.eq_of_getLsbD_eq fun i _ => ?_)
  simp only [UInt8.toBitVec_and, UInt8.toBitVec_or, BitVec.getLsbD_and, BitVec.getLsbD_or,
    Bool.and_or_distrib_right]

/-- Protection leaves the bits outside of its own alone. -/
theorem and_protected {a mask bits c : UInt8} (h : bits &&& c = 0) :
    (a ^^^ (mask &&& bits)) &&& c = a &&& c := by
  rw [xor_and, UInt8.and_assoc, h, UInt8.and_zero, UInt8.xor_zero]

/-- The first byte of a long header: its kind, the length of the packet number, protected. -/
def first_byte (kind : UInt8) (pn_len : Nat) (mask : UInt8) : UInt8 :=
  (kind ||| (UInt8.ofNat pn_len - 1 &&& 0x03)) ^^^ (mask &&& 0x0f)

theorem first_byte_long {kind : UInt8} (h : kind &&& 0x80 = 0x80) (pn_len : Nat) (mask : UInt8) :
    first_byte kind pn_len mask &&& 0x80 ≠ 0 := by
  have hmask : (0x03 : UInt8) &&& 0x80 = 0 := by decide
  rw [first_byte, and_protected (by decide), or_and, UInt8.and_assoc, hmask, h, UInt8.and_zero]
  decide

theorem first_byte_type (kind : UInt8) (pn_len : Nat) (mask : UInt8) :
    pkt_type (first_byte kind pn_len mask) = pkt_type kind := by
  have hmask : (0x03 : UInt8) &&& 0x30 = 0 := by decide
  rw [pkt_type, first_byte, and_protected (by decide), or_and, UInt8.and_assoc, hmask,
    UInt8.and_zero, UInt8.or_zero, pkt_type]

/-! ## The start of a long header -/

theorem toNat_ofNat_length {id : Bytes} (h : id.length ≤ 20) :
    (UInt8.ofNat id.length).toNat = id.length := by
  rw [UInt8.toNat_ofNat']
  exact Nat.mod_eq_of_lt (by omega)

theorem long_header_start_eq (first : UInt8) (dcid scid : Bytes) :
    long_header_start first dcid scid =
      [first, 0, 0, 0, 1, UInt8.ofNat dcid.length] ++ dcid ++ UInt8.ofNat scid.length :: scid := by
  unfold long_header_start
  rw [List.append_assoc _ [_] scid]
  rfl

theorem long_header_start_length (first : UInt8) (dcid scid : Bytes) :
    (long_header_start first dcid scid).length = 7 + dcid.length + scid.length := by
  rw [long_header_start_eq]
  simp only [List.length_append, List.length_cons, List.length_nil]
  omega

/-- What the encoders start a long header with is laid out as the readers expect. -/
theorem start_layout {first : UInt8} {dcid scid : Bytes} (hlong : first &&& 0x80 ≠ 0)
    (hdcid : dcid.length ≤ 20) (hscid : scid.length ≤ 20) :
    LongLayout (long_header_start first dcid scid) first (UInt8.ofNat dcid.length)
      (UInt8.ofNat scid.length) QUIC_VERSION_1 where
  at_first := by rw [long_header_start_eq]; rfl
  long := hlong
  at_version := by rw [long_header_start_eq]; rfl
  at_dcid_len := by rw [long_header_start_eq]; rfl
  at_scid_len := by
    rw [toNat_ofNat_length hdcid, long_header_start_eq, List.getElem?_append_right (by simp; omega)]
    simp only [List.length_append, List.length_cons, List.length_nil]
    rw [show 6 + dcid.length - (0 + 1 + 1 + 1 + 1 + 1 + 1 + dcid.length) = 0 by omega]
    rfl
  fits := by
    have hlen := long_header_start_length first dcid scid
    rw [toNat_ofNat_length hdcid, toNat_ofNat_length hscid]
    omega

/-- A part of a concatenation is the slice between its ends. -/
theorem slice_middle (pre mid post : Bytes) {lo hi : Nat} (hlo : lo = pre.length)
    (hhi : hi = lo + mid.length) :
    (slice (pre ++ mid ++ post) lo hi : Outcome Error Bytes) = .ok mid := by
  subst hlo hhi
  rw [slice_of_le (by omega) (by simp)]
  simp [List.append_assoc]

/-- The parsers read the version and the connection ids back. -/
theorem parse_long_fields_start {first : UInt8} {dcid scid : Bytes} (hlong : first &&& 0x80 ≠ 0)
    (hdcid : dcid.length ≤ 20) (hscid : scid.length ≤ 20) (more : Bytes) :
    parse_long_fields (long_header_start first dcid scid ++ more) =
      .ok { version := QUIC_VERSION_1, dcid, scid, pos := 7 + dcid.length + scid.length } := by
  have hlayout := (start_layout hlong hdcid hscid).append more
  have hlen : (long_header_start first dcid scid ++ more).length =
      7 + dcid.length + scid.length + more.length := by
    rw [List.length_append, long_header_start_length]
  have hat_scid := hlayout.at_scid_len
  have hslice_dcid : (slice (long_header_start first dcid scid ++ more) 6 (6 + dcid.length) :
      Outcome Error Bytes) = .ok dcid := by
    rw [long_header_start_eq, List.append_assoc _ (_ :: scid) more]
    exact slice_middle _ _ _ rfl rfl
  have hslice_scid : (slice (long_header_start first dcid scid ++ more) (6 + dcid.length + 1)
      (6 + dcid.length + 1 + scid.length) : Outcome Error Bytes) = .ok scid := by
    rw [long_header_start_eq, List.append_cons]
    exact slice_middle _ _ _ (by simp; omega) rfl
  rw [toNat_ofNat_length hdcid] at hat_scid
  unfold parse_long_fields
  rw [if_neg (by omega), index_of_getElem? hlayout.at_first, ok_bind, if_neg hlong,
    hlayout.at_version, ok_bind, index_of_getElem? hlayout.at_dcid_len, ok_bind]
  dsimp only
  rw [toNat_ofNat_length hdcid, if_neg (by omega), hslice_dcid, ok_bind, if_neg (by omega),
    index_of_getElem? hat_scid, ok_bind, toNat_ofNat_length hscid, if_neg (by omega), hslice_scid,
    ok_bind]
  rw [show 6 + dcid.length + 1 + scid.length = 7 + dcid.length + scid.length by omega]
  rfl

/-! ## What the encoders write -/

theorem encode_initial_header_eq {dcid scid token header : Bytes} {pn_len payload_len cap : Nat}
    (h : encode_initial_header dcid scid token pn_len payload_len cap = .ok header) :
    header = long_header_start (0xC0 ||| (UInt8.ofNat pn_len - 1 &&& 0x03)) dcid scid ++
        (varint_bytes token.length ++ token ++ varint_bytes payload_len) ∧
      token.length ≤ MAX_VARINT ∧ payload_len ≤ MAX_VARINT := by
  unfold encode_initial_header at h
  dsimp only at h
  split at h
  · cases h
  obtain ⟨token_length, ht, h⟩ := except_bind_eq_ok h
  obtain ⟨length, hl, h⟩ := except_bind_eq_ok h
  cases h
  obtain ⟨rfl, htoken⟩ := h3.encode_varint_eq ht
  obtain ⟨rfl, hlen⟩ := h3.encode_varint_eq hl
  exact ⟨by simp only [List.append_assoc], htoken, hlen⟩

theorem encode_handshake_header_eq {dcid scid header : Bytes} {pn_len payload_len cap : Nat}
    (h : encode_handshake_header dcid scid pn_len payload_len cap = .ok header) :
    header = long_header_start (0xE0 ||| (UInt8.ofNat pn_len - 1 &&& 0x03)) dcid scid ++
        varint_bytes payload_len ∧ payload_len ≤ MAX_VARINT := by
  unfold encode_handshake_header at h
  dsimp only at h
  split at h
  · cases h
  obtain ⟨length, hl, h⟩ := except_bind_eq_ok h
  cases h
  obtain ⟨rfl, hlen⟩ := h3.encode_varint_eq hl
  exact ⟨rfl, hlen⟩

/-- The header form and the type bits of a kind. -/
def LongKind.bits : LongKind → UInt8
  | .Initial _ => 0xC0
  | .Handshake => 0xE0

/-- What a kind writes between the connection ids and the Length. -/
def LongKind.token_field : LongKind → Bytes
  | .Initial token => varint_bytes token.length ++ token
  | .Handshake => []

/-- What the token of a kind needs to be encodable. -/
def LongKind.Fits : LongKind → Prop
  | .Initial token => token.length ≤ MAX_VARINT
  | .Handshake => True

theorem LongKind.bits_long (k : LongKind) : k.bits &&& 0x80 = 0x80 := by
  cases k with
  | Initial token => exact (by decide : (0xC0 : UInt8) &&& 0x80 = 0x80)
  | Handshake => exact (by decide : (0xE0 : UInt8) &&& 0x80 = 0x80)

namespace LongPacket

/-- What the Length field covers. -/
def covered (p : LongPacket) : Bytes := p.pn_bytes ++ p.payload ++ p.tag

theorem covered_length (p : LongPacket) : p.covered.length = p.payload_length := by
  rw [covered, List.length_append, List.length_append, payload_length]

/-- The packet up to its connection ids. -/
def start (p : LongPacket) : Bytes :=
  long_header_start (first_byte p.kind.bits p.pn_bytes.length p.mask) p.dcid p.scid

theorem start_length (p : LongPacket) : p.start.length = 7 + p.dcid.length + p.scid.length :=
  long_header_start_length _ _ _

theorem encode_eq {p : LongPacket} {cap : Nat} {pkt : Bytes} (h : p.encode cap = .ok pkt) :
    pkt = p.start ++ p.kind.token_field ++ varint_bytes p.payload_length ++ p.covered ∧
      p.kind.Fits ∧ p.payload_length ≤ MAX_VARINT := by
  obtain ⟨header, hheader, h⟩ := except_bind_eq_ok h
  cases h
  unfold LongKind.header at hheader
  unfold start covered
  cases hkind : p.kind with
  | Initial token =>
    rw [hkind] at hheader
    obtain ⟨rfl, htoken, hlen⟩ := encode_initial_header_eq hheader
    refine ⟨?_, htoken, hlen⟩
    simp only [LongKind.token_field, ← List.append_assoc]
    rfl
  | Handshake =>
    rw [hkind] at hheader
    obtain ⟨rfl, hlen⟩ := encode_handshake_header_eq hheader
    refine ⟨?_, trivial, hlen⟩
    simp only [LongKind.token_field, List.append_nil, ← List.append_assoc]
    rfl

theorem start_long (p : LongPacket) :
    first_byte p.kind.bits p.pn_bytes.length p.mask &&& 0x80 ≠ 0 :=
  first_byte_long p.kind.bits_long _ _

theorem layout (p : LongPacket) (more : Bytes) :
    LongLayout (p.start ++ more) (first_byte p.kind.bits p.pn_bytes.length p.mask)
      (UInt8.ofNat p.dcid.length) (UInt8.ofNat p.scid.length) QUIC_VERSION_1 :=
  (start_layout p.start_long p.dcid_le p.scid_le).append more

theorem after_token_skips {p : LongPacket} (hfits : p.kind.Fits) (more : Bytes) :
    packet_len.after_token (p.start ++ p.kind.token_field ++ more) p.start.length
        (first_byte p.kind.bits p.pn_bytes.length p.mask) =
      .ok (p.start.length + p.kind.token_field.length) := by
  unfold packet_len.after_token
  rw [first_byte_type]
  cases hkind : p.kind with
  | Initial token =>
    rw [hkind] at hfits
    have hread := decode_varint_bytes hfits (token ++ more)
    have htype : pkt_type (LongKind.Initial token).bits = 0b00 := by
      exact (by decide : pkt_type 0xC0 = 0b00)
    rw [if_pos htype, List.append_assoc, sliceFrom_of_le (by simp), ok_bind, List.drop_left]
    simp only [LongKind.token_field, List.append_assoc]
    rw [hread, ofExcept_ok, ok_bind]
    dsimp only
    rw [if_neg (by simp; omega)]
    simp only [List.length_append, varint_bytes_length, Nat.add_assoc]
  | Handshake =>
    have htype : ¬ pkt_type LongKind.Handshake.bits = 0b00 := by decide
    rw [if_neg htype]
    simp [LongKind.token_field]

theorem encode_ne_nil {p : LongPacket} {cap : Nat} {pkt : Bytes} (h : p.encode cap = .ok pkt) :
    pkt ≠ [] := by
  obtain ⟨rfl, -⟩ := encode_eq h
  refine List.ne_nil_of_length_pos ?_
  rw [List.append_assoc, List.append_assoc, List.length_append, start_length]
  omega

/-- The coalescer finds the end of a packet, whatever is behind it. -/
theorem packet_len_encode {p : LongPacket} {cap : Nat} {pkt : Bytes} (h : p.encode cap = .ok pkt)
    (buf_len : Nat) (more : Bytes) : packet_len buf_len (pkt ++ more) = .ok pkt.length := by
  obtain ⟨rfl, hfits, hlen⟩ := encode_eq h
  have hread := decode_varint_bytes hlen (p.covered ++ more)
  have hpos : 7 + (UInt8.ofNat p.dcid.length).toNat + (UInt8.ofNat p.scid.length).toNat =
      p.start.length := by
    rw [toNat_ofNat_length p.dcid_le, toNat_ofNat_length p.scid_le, start_length]
  have htype : ¬ pkt_type (first_byte p.kind.bits p.pn_bytes.length p.mask) = 0b11 := by
    rw [first_byte_type]
    cases p.kind with
    | Initial token => exact (by decide : ¬ pkt_type 0xC0 = 0b11)
    | Handshake => exact (by decide : ¬ pkt_type 0xE0 = 0b11)
  have hskip := after_token_skips hfits (varint_bytes p.payload_length ++ (p.covered ++ more))
  have hlayout := p.layout (p.kind.token_field ++ (varint_bytes p.payload_length ++
    (p.covered ++ more)))
  simp only [List.append_assoc] at hskip hlayout ⊢
  rw [packet_len_of_layout hlayout (by decide), hpos, hskip, ok_bind, if_neg htype,
    sliceFrom_of_le (by simp), ok_bind, ← List.append_assoc, ← List.length_append,
    List.drop_left, hread, ofExcept_ok, ok_bind]
  dsimp only
  have hcovered := p.covered_length
  rw [if_neg (by simp; omega)]
  congr 1
  simp
  omega

/-- The parser of its kind reads every field of a packet back. -/
theorem reads_encode {p : LongPacket} {cap : Nat} {pkt : Bytes} (h : p.encode cap = .ok pkt) :
    p.Reads pkt := by
  obtain ⟨rfl, hfits, hlen⟩ := encode_eq h
  have hread := decode_varint_bytes hlen p.covered
  have hfields := parse_long_fields_start p.start_long p.dcid_le p.scid_le
    (p.kind.token_field ++ (varint_bytes p.payload_length ++ p.covered))
  have hcovered := p.covered_length
  rw [← start, ← p.start_length] at hfields
  refine ⟨(p.start ++ p.kind.token_field ++ varint_bytes p.payload_length).length,
    List.drop_left, by rw [← hcovered, ← List.length_append], ?_⟩
  simp only [List.append_assoc]
  cases hkind : p.kind with
  | Initial token =>
    rw [hkind] at hfields hfits
    have htoken := decode_varint_bytes hfits
      (token ++ (varint_bytes p.payload_length ++ p.covered))
    simp only [LongKind.token_field, List.append_assoc] at hfields ⊢
    rw [parse_initial_header, hfields, ok_bind, sliceFrom_of_le (by simp), ok_bind, List.drop_left,
      htoken, ofExcept_ok, ok_bind]
    dsimp only
    have hslice : (slice (p.start ++ (varint_bytes token.length ++ (token ++
        (varint_bytes p.payload_length ++ p.covered)))) (p.start.length + varint_len token.length)
          (p.start.length + varint_len token.length + token.length) : Outcome Error Bytes) =
        .ok token := by
      rw [← List.append_assoc, ← List.append_assoc]
      exact slice_middle _ _ _ (by simp) rfl
    have hlength : (p.start ++ (varint_bytes token.length ++ (token ++
        (varint_bytes p.payload_length ++ p.covered)))).drop
          (p.start.length + varint_len token.length + token.length) =
        varint_bytes p.payload_length ++ p.covered := by
      rw [← List.append_assoc, ← List.append_assoc]
      exact List.drop_left' (by simp; omega)
    rw [if_neg (by simp; omega), hslice, ok_bind, sliceFrom_of_le (by simp; omega), ok_bind,
      hlength, hread, ofExcept_ok, ok_bind]
    simp [Nat.add_assoc]
  | Handshake =>
    rw [hkind] at hfields
    simp only [LongKind.token_field, List.nil_append] at hfields ⊢
    rw [parse_handshake_header, hfields, ok_bind, sliceFrom_of_le (by simp), ok_bind,
      List.drop_left, hread, ofExcept_ok, ok_bind]
    simp [List.length_append]

end LongPacket

/-! ## Sealed packets -/

section Sealed

open crypto connection

variable {P : CryptoProvider} {send : DirectionalKeys P}

/-- A sealed and protected packet: the header with its first byte masked, the packet number
masked, and as many bytes behind it as the payload and the tag take. -/
theorem encrypt_and_protect_eq {bits : UInt8} {cap pn : Nat}
    {header pn_bytes payload data : Bytes} (hpn : pn_bytes.length ≤ 4)
    (h : encrypt_and_protect send bits cap header pn_bytes payload pn = .ok data) :
    ∃ mask protected_pn ct, data = header.modifyHead (· ^^^ (mask &&& bits)) ++ protected_pn ++ ct ∧
      protected_pn.length = pn_bytes.length ∧ ct.length = payload.length + tag_len := by
  unfold encrypt_and_protect at h
  dsimp only at h
  split at h
  · cases h
  · split at h
    · cases h
    · cases h
      refine ⟨_, _, _, rfl, ?_, P.seal_length _ _ _ _⟩
      rw [List.length_zipWith, List.length_drop, P.mask_length]
      omega

theorem encode_pn_length {full_pn largest_acked cap : Nat} {pn_bytes : Bytes}
    (h : encode_pn full_pn largest_acked cap = .ok pn_bytes) :
    pn_bytes.length = pn_length full_pn largest_acked := by
  unfold encode_pn at h
  dsimp only at h
  split at h
  · cases h
  · cases h
    exact toBe_length _ _

theorem pn_length_bounds (full_pn largest_acked : Nat) :
    1 ≤ pn_length full_pn largest_acked ∧ pn_length full_pn largest_acked ≤ 4 := by
  unfold pn_length
  dsimp only
  generalize (if full_pn > largest_acked then full_pn - largest_acked else 1) = num_unacked
  split
  · exact ⟨by omega, by omega⟩
  · split
    · exact ⟨by omega, by omega⟩
    · split
      · exact ⟨by omega, by omega⟩
      · exact ⟨by omega, by omega⟩

/-- What the transmit path seals behind a long header is such a packet. -/
theorem seal_packet_is_encoded {kind : LongKind}
    {dcid scid payload data : Bytes} {cap pn largest_acked : Nat} (hdcid : dcid.length ≤ 20)
    (hscid : scid.length ≤ 20)
    (h : seal_packet send 0x0f cap (kind.header dcid scid (pn_length pn largest_acked)
      (pn_length pn largest_acked + payload.length + tag_len) cap) payload pn largest_acked =
        .ok data) :
    ∃ p : LongPacket, p.kind = kind ∧ p.dcid = dcid ∧ p.scid = scid ∧
      p.payload_length = pn_length pn largest_acked + payload.length + tag_len ∧
      p.encode cap = .ok data := by
  obtain ⟨header, hheader, h⟩ := except_bind_eq_ok h
  obtain ⟨pn_bytes, hpn, h⟩ := except_bind_eq_ok h
  have hlen := encode_pn_length hpn
  obtain ⟨hpos, hle⟩ := pn_length_bounds pn largest_acked
  obtain ⟨mask, protected_pn, ct, rfl, hplen, hct⟩ := encrypt_and_protect_eq (by omega) h
  refine ⟨{ kind, dcid, scid, pn_bytes := protected_pn, payload := ct.take payload.length,
            tag := ct.drop payload.length, mask, dcid_le := hdcid, scid_le := hscid,
            pn_pos := by omega, pn_le := by omega }, rfl, rfl, rfl, ?_⟩
  have hcovered : protected_pn.length + (ct.take payload.length).length +
      (ct.drop payload.length).length = pn_length pn largest_acked + payload.length + tag_len := by
    rw [hplen, hlen, List.length_take, List.length_drop, hct]
    omega
  refine ⟨hcovered, ?_⟩
  unfold LongPacket.encode LongPacket.payload_length
  dsimp only
  rw [hcovered, hplen, hlen, hheader, except_ok_bind, List.append_assoc _ (ct.take _),
    List.take_append_drop]
  rfl

end Sealed

/-! ## Short packets -/

namespace ShortPacket

theorem encode_eq {p : ShortPacket} {cap : Nat} {pkt : Bytes} (h : p.encode cap = .ok pkt) :
    pkt = (p.first_byte ^^^ (p.mask &&& 0x1f)) :: (p.dcid ++ p.body) := by
  obtain ⟨header, hheader, h⟩ := except_bind_eq_ok h
  cases h
  unfold encode_short_header at hheader
  dsimp only at hheader
  split at hheader
  · cases hheader
  · cases hheader
    rfl

theorem form_bit (p : ShortPacket) : (p.first_byte ^^^ (p.mask &&& 0x1f)) &&& 0x80 = 0 := by
  rw [and_protected (by decide), p.short]

/-- A short packet takes the rest of the datagram. -/
theorem packet_len_encode {p : ShortPacket} {cap : Nat} {pkt : Bytes} (h : p.encode cap = .ok pkt)
    (buf_len : Nat) : packet_len buf_len pkt = .ok pkt.length := by
  rw [encode_eq h, packet_len, index_of_getElem? rfl, ok_bind, if_pos p.form_bit]

theorem reads_encode {p : ShortPacket} {cap : Nat} {pkt : Bytes} (h : p.encode cap = .ok pkt) :
    p.Reads pkt := by
  rw [encode_eq h]
  have hslice : (slice ((p.first_byte ^^^ (p.mask &&& 0x1f)) :: (p.dcid ++ p.body)) 1
      (1 + p.dcid.length) : Outcome Error Bytes) = .ok p.dcid :=
    slice_middle [_] p.dcid p.body rfl rfl
  refine ⟨1 + p.dcid.length, ?_, ?_⟩
  · rw [Nat.add_comm, List.drop_succ_cons, List.drop_left]
  · unfold parse_short_header
    dsimp only
    rw [if_neg (by simp; omega), index_of_getElem? rfl, ok_bind, if_neg (by simp [p.form_bit]),
      hslice, ok_bind]
    rfl

end ShortPacket

/-! ## Datagrams -/

/-- The coalescer yields a packet it finds the end of, and goes on behind it. -/
theorem next_of_packet_len (pre : Bytes) {pkt more : Bytes} (hne : pkt ≠ [])
    (hlen : ∀ buf_len, packet_len buf_len (pkt ++ more) = .ok pkt.length) :
    next { buf := pre ++ (pkt ++ more), offset := pre.length } =
      (some (.ok pkt), { buf := pre ++ (pkt ++ more), offset := (pre ++ pkt).length }) := by
  have hpos : 0 < pkt.length := List.length_pos_of_ne_nil hne
  have hlt : pre.length < (pre ++ (pkt ++ more)).length := by
    rw [List.length_append, List.length_append]
    omega
  have hfront : front { buf := pre ++ (pkt ++ more), offset := pre.length } =
      .ok pkt := by
    rw [front_eq hlt]
    dsimp only
    rw [List.drop_left, hlen, ok_bind, List.take_left]
  unfold next
  rw [if_neg (Nat.not_le_of_lt hlt), hfront]
  dsimp only
  rw [← List.length_append]

/-- From any offset on, the iterator yields the packets that are left. -/
theorem items_of_packets (pkts : List Bytes) (last : Option Bytes)
    (hpkts : ∀ pkt ∈ pkts, pkt ≠ [] ∧
      ∀ buf_len more, packet_len buf_len (pkt ++ more) = .ok pkt.length)
    (hlast : ∀ pkt ∈ last, pkt ≠ [] ∧ ∀ buf_len, packet_len buf_len pkt = .ok pkt.length)
    (pre : Bytes) {fuel : Nat} (hfuel : (pkts.flatten ++ last.getD []).length < fuel) :
    items fuel
        { buf := pre ++ (pkts.flatten ++ last.getD []), offset := pre.length } =
      (pkts ++ last.toList).map .ok := by
  induction pkts generalizing pre fuel with
  | nil =>
    obtain ⟨fuel, rfl⟩ : ∃ n, fuel = n + 1 := ⟨fuel - 1, by omega⟩
    cases last with
    | none => simp [items, next]
    | some pkt =>
      obtain ⟨hne, hlen⟩ := hlast pkt rfl
      have hnext := next_of_packet_len pre hne
        (fun n => by rw [List.append_nil pkt]; exact hlen n)
      simp only [List.append_nil] at hnext
      have hpos : 0 < pkt.length := List.length_pos_of_ne_nil hne
      have hmore : pkt.length < fuel + 1 := by simpa using hfuel
      obtain ⟨fuel, rfl⟩ : ∃ n, fuel = n + 1 := ⟨fuel - 1, by omega⟩
      simp only [List.flatten_nil, List.nil_append, Option.getD_some, Option.toList_some,
        List.map_cons, List.map_nil]
      rw [items, hnext]
      simp [items, next]
  | cons pkt rest ih =>
    obtain ⟨hne, hlen⟩ := hpkts pkt List.mem_cons_self
    have hpos : 0 < pkt.length := List.length_pos_of_ne_nil hne
    obtain ⟨fuel, rfl⟩ : ∃ n, fuel = n + 1 := ⟨fuel - 1, by omega⟩
    rw [List.flatten_cons, List.append_assoc, List.length_append] at hfuel
    have hmore : (rest.flatten ++ last.getD []).length < fuel := by omega
    have hrest := ih (fun q hq => hpkts q (List.mem_cons_of_mem _ hq)) (pre ++ pkt) hmore
    have hnext := next_of_packet_len pre hne
      (fun n => hlen n (rest.flatten ++ last.getD []))
    rw [List.flatten_cons, List.append_assoc pkt, items, hnext]
    rw [List.append_assoc pre pkt] at hrest
    dsimp only
    rw [hrest]
    rfl

/-- Long-header packets and at most one short-header packet behind them, each built by its
encoder, are what the coalescer yields, and their parsers read back what they were built from. -/
theorem packets_are_read_back (longs : List (LongPacket × Bytes))
    (last : Option (ShortPacket × Bytes)) (hlongs : ∀ r ∈ longs, ∃ cap, r.1.encode cap = .ok r.2)
    (hlast : ∀ r ∈ last, ∃ cap, r.1.encode cap = .ok r.2) :
    coalesced ((longs.map Prod.snd).flatten ++ (last.map Prod.snd).getD []) =
        (longs.map Prod.snd ++ (last.map Prod.snd).toList).map .ok ∧
      (∀ r ∈ longs, r.1.Reads r.2) ∧ ∀ r ∈ last, r.1.Reads r.2 := by
  refine ⟨?_, ?_, ?_⟩
  · refine items_of_packets _ _ ?_ ?_ [] (Nat.lt_succ_self _)
    · intro pkt hpkt
      obtain ⟨r, hr, rfl⟩ := List.mem_map.mp hpkt
      obtain ⟨cap, hcap⟩ := hlongs r hr
      exact ⟨LongPacket.encode_ne_nil hcap, LongPacket.packet_len_encode hcap⟩
    · intro pkt hpkt
      obtain ⟨r, hr, rfl⟩ := Option.map_eq_some_iff.mp hpkt
      obtain ⟨cap, hcap⟩ := hlast r hr
      exact ⟨by rw [ShortPacket.encode_eq hcap]; exact List.cons_ne_nil _ _,
        ShortPacket.packet_len_encode hcap⟩
  · intro r hr
    obtain ⟨cap, hcap⟩ := hlongs r hr
    exact LongPacket.reads_encode hcap
  · intro r hr
    obtain ⟨cap, hcap⟩ := hlast r hr
    exact ShortPacket.reads_encode hcap

/-- An Initial packet with a token, a Handshake packet and a short packet in one datagram. -/
theorem three_packets_are_read_back :
    coalesced ([0xc1, 0, 0, 0, 1, 2, 1, 2, 1, 3, 3, 7, 8, 9, 4, 0, 1, 5, 6] ++
        [0xe0, 0, 0, 0, 1, 0, 1, 4, 3, 1, 5, 6] ++ [0x40, 1, 2, 9]) =
      [.ok [0xc1, 0, 0, 0, 1, 2, 1, 2, 1, 3, 3, 7, 8, 9, 4, 0, 1, 5, 6],
        .ok [0xe0, 0, 0, 0, 1, 0, 1, 4, 3, 1, 5, 6], .ok [0x40, 1, 2, 9]] :=
  (packets_are_read_back
    [({ kind := .Initial [7, 8, 9], dcid := [1, 2], scid := [3], pn_bytes := [0, 1], payload := [5],
        tag := [6], mask := 0, dcid_le := by decide, scid_le := by decide, pn_pos := by decide,
        pn_le := by decide },
      [0xc1, 0, 0, 0, 1, 2, 1, 2, 1, 3, 3, 7, 8, 9, 4, 0, 1, 5, 6]),
     ({ kind := .Handshake, dcid := [], scid := [4], pn_bytes := [1], payload := [5], tag := [6],
        mask := 0, dcid_le := by decide, scid_le := by decide, pn_pos := by decide,
        pn_le := by decide },
      [0xe0, 0, 0, 0, 1, 0, 1, 4, 3, 1, 5, 6])]
    (some ({ dcid := [1, 2], first_byte := 0x40, body := [9], mask := 0, short := by decide },
      [0x40, 1, 2, 9]))
    (by
      intro r hr
      refine ⟨1200, ?_⟩
      simp only [List.mem_cons, List.not_mem_nil, or_false] at hr
      rcases hr with rfl | rfl <;> decide)
    (by
      intro r hr
      cases hr
      exact ⟨1200, by decide⟩)).1

end milli_http.packet
