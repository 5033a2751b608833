-- What the encoders of header lists write the decoders read back: the fields in their order, with
-- nothing left over, and for HPACK with the dynamic table as it was.
import MilliHttp.Hpack.RoundTrip
import MilliHttp.H3.Frame

open bytes Outcome

namespace milli_http.h3.qpack

open hpack

/-! ## Integers and strings -/

/-- The flags of the field lines the encoder writes, and of a value that is not coded. -/
theorem line_flags (b : UInt8) :
    (192 ≤ b.toNat → b &&& 0b10000000 ≠ 0 ∧ b >>> 6 &&& 1 ≠ 0) ∧
      (112 ≤ b.toNat ∧ b.toNat < 128 →
        ¬ b &&& 0b10000000 ≠ 0 ∧ b &&& 0b11000000 = 0b01000000 ∧ b >>> 4 &&& 1 ≠ 0) ∧
      (32 ≤ b.toNat ∧ b.toNat < 40 →
        ¬ b &&& 0b10000000 ≠ 0 ∧ ¬ b &&& 0b11000000 = 0b01000000 ∧
          b &&& 0b11100000 = 0b00100000 ∧ (b >>> 3 &&& 1 != 0) = false) ∧
      (b.toNat < 128 → (b >>> 7 &&& 1 != 0) = false) :=
  forall_byte (p := fun b => (192 ≤ b.toNat → b &&& 0b10000000 ≠ 0 ∧ b >>> 6 &&& 1 ≠ 0) ∧
      (112 ≤ b.toNat ∧ b.toNat < 128 →
        ¬ b &&& 0b10000000 ≠ 0 ∧ b &&& 0b11000000 = 0b01000000 ∧ b >>> 4 &&& 1 ≠ 0) ∧
      (32 ≤ b.toNat ∧ b.toNat < 40 →
        ¬ b &&& 0b10000000 ≠ 0 ∧ ¬ b &&& 0b11000000 = 0b01000000 ∧
          b &&& 0b11100000 = 0b00100000 ∧ (b >>> 3 &&& 1 != 0) = false) ∧
      (b.toNat < 128 → (b >>> 7 &&& 1 != 0) = false)) (by decide +kernel) b

variable {src bs more s name value : Bytes} {pos prefix_bits written cap : Nat} {mask : UInt8}
  {headers : List (Bytes × Bytes)}

theorem read_encoded_integer (hsrc : src.length < 2 ^ 63) (hpos : pos ≤ src.length) {n : Nat}
    (hback : ∀ more, decode_integer (bs ++ more) prefix_bits = .ok (n, bs.length))
    (hat : src.drop pos = bs ++ more) :
    read_integer src pos prefix_bits = .ok (n, pos + bs.length) := by
  rw [read_integer_eq hsrc hpos, hat, hback]

theorem encode_string_length (h : encode_string s prefix_bits mask written cap = .ok bs) :
    bs.length ≤ cap - written ∧ s.length ≤ cap := by
  obtain ⟨len, hlen, h⟩ := except_bind_eq_ok h
  have := encode_integer_length hlen
  split at h
  · cases h
  · cases h
    rw [List.length_append]
    omega

theorem read_encoded_string (hsrc : src.length < 2 ^ 63) (hpos : pos ≤ src.length)
    (h : encode_string s prefix_bits mask written cap = .ok bs) (hcap : cap < 2 ^ 63)
    (hbits : prefix_bits ≤ 8) (hmask : mask.toNat % 2 ^ prefix_bits = 0)
    (hat : src.drop pos = bs ++ more) :
    (∃ first rest, bs = first :: rest ∧
        first.toNat = mask.toNat + min s.length (2 ^ prefix_bits - 1)) ∧
      read_string src pos prefix_bits = .ok (s, pos + bs.length) := by
  have hs := (encode_string_length h).2
  obtain ⟨len, hlen, h⟩ := except_bind_eq_ok h
  split at h
  · cases h
  cases h
  obtain ⟨first, rest, rfl, hfirst, hback⟩ := decode_encode_integer hlen hbits hmask (by omega)
  refine ⟨⟨first, rest ++ s, rfl, hfirst⟩, ?_⟩
  have hthere := congrArg List.length hat
  simp only [List.length_drop, List.length_append] at hthere
  have hbytes : (src.drop (pos + (first :: rest).length)).take s.length = s := by
    rw [← List.drop_drop, hat, List.append_assoc, List.drop_left, List.take_left]
  unfold read_string
  rw [read_encoded_integer hsrc hpos hback (by rw [hat, List.append_assoc]), ok_bind]
  dsimp only
  rw [add_usize, if_pos (by omega), ok_bind, if_neg (by omega), slice_of_le (by omega) (by omega),
    ok_bind, Nat.add_sub_cancel_left, hbytes, List.length_append, Nat.add_assoc]

theorem index_of_drop {first : UInt8} {rest : Bytes} (h : src.drop pos = first :: rest) :
    pos < src.length ∧ (index src pos : Outcome Error UInt8) = .ok first := by
  have hthere := congrArg List.length h
  rw [List.length_drop, List.length_cons] at hthere
  have hfirst : src[pos]? = some first := by
    rw [← Nat.add_zero pos, ← List.getElem?_drop, h]
    rfl
  exact ⟨by omega, by rw [index, hfirst]⟩

theorem drop_behind {b : UInt8} {bs : Bytes} (h : src.drop pos = b :: bs ++ more) :
    pos + (b :: bs).length ≤ src.length ∧ src.drop (pos + (b :: bs).length) = more := by
  have hthere := congrArg List.length h
  simp only [List.length_drop, List.length_append, List.length_cons] at hthere
  refine ⟨by rw [List.length_cons]; omega, ?_⟩
  rw [← List.drop_drop, h, List.drop_left]

theorem read_encoded_value (hsrc : src.length < 2 ^ 63) (hpos : pos ≤ src.length)
    (h : encode_string value 7 0x00 written cap = .ok bs) (hcap : cap < 2 ^ 63)
    (hat : src.drop pos = bs ++ more) : read_value src pos = .ok (value, pos + bs.length) := by
  obtain ⟨⟨first, rest, rfl, hfirst⟩, hread⟩ :=
    read_encoded_string hsrc hpos h hcap (by omega) rfl hat
  obtain ⟨hthere, hindex⟩ := index_of_drop (by rw [hat, List.cons_append])
  have hzero : (0x00 : UInt8).toNat = 0 := rfl
  have hraw := (line_flags first).2.2.2 (by omega)
  unfold read_value
  rw [if_neg (by omega), hindex, ok_bind]
  dsimp only
  rw [hread, ok_bind]
  dsimp only
  rw [hraw]
  rfl

/-! ## Field lines -/

theorem lookup_finds (name value : Bytes) :
    match lookup name value with
    | .ExactMatch idx => idx < 99 ∧ static_entry idx = .ok (name, value)
    | .NameMatch idx => idx < 99 ∧ ∃ other, static_entry idx = .ok (name, other)
    | .NotFound => True := by
  have hlen : STATIC_TABLE.length = 99 := rfl
  have hentry : ∀ i (hi : i < STATIC_TABLE.length),
      static_entry i = .ok (ascii STATIC_TABLE[i].1, ascii STATIC_TABLE[i].2) := by
    intro i hi
    unfold static_entry
    rw [List.getElem?_eq_getElem hi]
  unfold lookup
  split
  next i hexact =>
    split at hexact
    next j hj =>
      cases hexact
      obtain ⟨hlt, hmatch, -⟩ := List.findIdx?_eq_some_iff_getElem.mp hj
      obtain ⟨hname, hvalue⟩ := Bool.and_eq_true_iff.mp hmatch
      exact ⟨by omega, by rw [hentry i hlt, eq_of_beq hname, eq_of_beq hvalue]⟩
    next =>
      split at hexact <;> cases hexact
  next i hfound =>
    split at hfound
    · cases hfound
    · split at hfound
      next j hj =>
        cases hfound
        obtain ⟨hlt, hname, -⟩ := List.findIdx?_eq_some_iff_getElem.mp hj
        exact ⟨by omega, ascii STATIC_TABLE[i].2, by rw [hentry i hlt, eq_of_beq hname]⟩
      next => cases hfound
  next => trivial

theorem encode_field_line_length (h : encode_field_line name value cap = .ok bs) :
    bs.length ≤ cap := by
  unfold encode_field_line at h
  split at h
  · exact encode_integer_length h
  · obtain ⟨index, hindex, h⟩ := except_bind_eq_ok h
    obtain ⟨string, hstring, h⟩ := except_bind_eq_ok h
    cases h
    have hindex_len := encode_integer_length hindex
    have hstring_len := (encode_string_length hstring).1
    rw [List.length_append]
    omega
  · obtain ⟨name_string, hname, h⟩ := except_bind_eq_ok h
    obtain ⟨value_string, hvalue, h⟩ := except_bind_eq_ok h
    cases h
    have hname_len := (encode_string_length hname).1
    have hvalue_len := (encode_string_length hvalue).1
    rw [List.length_append]
    omega

theorem read_encoded_line (hsrc : src.length < 2 ^ 63) (hpos : pos ≤ src.length)
    (h : encode_field_line name value cap = .ok bs) (hcap : cap < 2 ^ 63)
    (hat : src.drop pos = bs ++ more) :
    pos < src.length ∧ 0 < bs.length ∧
      field_line src pos = .ok ((name, value), pos + bs.length) := by
  have hfinds := lookup_finds name value
  unfold encode_field_line at h
  split at h
  next idx hexact =>
    rw [hexact] at hfinds
    obtain ⟨hidx, hentry⟩ := hfinds
    obtain ⟨first, rest, rfl, hfirst, hback⟩ := decode_encode_integer h (by omega) rfl (by omega)
    have hmask : (0b11000000 : UInt8).toNat = 192 := rfl
    obtain ⟨hthere, hindex⟩ := index_of_drop (by rw [hat, List.cons_append])
    obtain ⟨hindexed, hstatic⟩ := (line_flags first).1 (by omega)
    refine ⟨hthere, Nat.succ_pos _, ?_⟩
    unfold field_line
    rw [hindex, ok_bind, if_pos hindexed, if_neg hstatic,
      read_encoded_integer hsrc (Nat.le_of_lt hthere) hback hat, ok_bind]
    dsimp only
    rw [hentry]
    rfl
  next idx hfound =>
    rw [hfound] at hfinds
    obtain ⟨hidx, other, hentry⟩ := hfinds
    obtain ⟨index, hint, h⟩ := except_bind_eq_ok h
    obtain ⟨string, hstring, h⟩ := except_bind_eq_ok h
    cases h
    obtain ⟨first, rest, rfl, hfirst, hback⟩ := decode_encode_integer hint (by omega) rfl (by omega)
    have hmask : (0b01110000 : UInt8).toNat = 112 := rfl
    obtain ⟨hthere, hindex⟩ := index_of_drop (by rw [hat, List.cons_append, List.cons_append])
    obtain ⟨hliteral, hkind, hstatic⟩ := (line_flags first).2.1 (by omega)
    have hname : literal_name src pos first = .ok (name, pos + (first :: rest).length) := by
      unfold literal_name
      rw [if_pos hkind, if_neg hstatic, read_encoded_integer hsrc (Nat.le_of_lt hthere) hback
        (by rw [hat, List.append_assoc]), ok_bind]
      dsimp only
      rw [hentry]
      rfl
    obtain ⟨hbound, hvalue⟩ := drop_behind (by rw [hat, List.append_assoc])
    refine ⟨hthere, Nat.succ_pos _, ?_⟩
    unfold field_line
    rw [hindex, ok_bind, if_neg hliteral, hname, ok_bind]
    dsimp only
    rw [read_encoded_value hsrc hbound hstring hcap hvalue, ok_bind, List.length_append,
      Nat.add_assoc]
  next =>
    obtain ⟨name_string, hstring, h⟩ := except_bind_eq_ok h
    obtain ⟨value_string, hvalue_string, h⟩ := except_bind_eq_ok h
    cases h
    obtain ⟨⟨first, rest, rfl, hfirst⟩, hread⟩ :=
      read_encoded_string hsrc hpos hstring hcap (by omega) rfl (by rw [hat, List.append_assoc])
    have hmask : (0b00100000 : UInt8).toNat = 32 := rfl
    obtain ⟨hthere, hindex⟩ := index_of_drop (by rw [hat, List.cons_append, List.cons_append])
    obtain ⟨hliteral, hno_index, hkind, hraw⟩ := (line_flags first).2.2.1 (by omega)
    have hname : literal_name src pos first = .ok (name, pos + (first :: rest).length) := by
      unfold literal_name
      rw [if_neg hno_index, if_pos hkind]
      dsimp only
      rw [hread, ok_bind]
      dsimp only
      rw [hraw]
      rfl
    obtain ⟨hbound, hvalue⟩ := drop_behind (by rw [hat, List.append_assoc])
    refine ⟨hthere, Nat.succ_pos _, ?_⟩
    unfold field_line
    rw [hindex, ok_bind, if_neg hliteral, hname, ok_bind]
    dsimp only
    rw [read_encoded_value hsrc hbound hvalue_string hcap hvalue, ok_bind, List.length_append,
      Nat.add_assoc]

theorem encode_field_lines_length
    (h : encode_field_lines headers cap = .ok bs) : bs.length ≤ cap := by
  induction headers generalizing cap bs with
  | nil =>
    cases h
    exact Nat.zero_le _
  | cons field headers ih =>
    obtain ⟨line, hline, h⟩ := except_bind_eq_ok h
    obtain ⟨lines, hlines, h⟩ := except_bind_eq_ok h
    cases h
    have hline_len := encode_field_line_length hline
    have hlines_len := ih hlines
    rw [List.length_append]
    omega

/-- The field lines at the end of the input come back one after the other. -/
theorem read_encoded_lines {fuel : Nat}
    {emitted : List (Bytes × Bytes)} (hsrc : src.length < 2 ^ 63) (hpos : pos ≤ src.length)
    (h : encode_field_lines headers cap = .ok bs) (hcap : cap < 2 ^ 63) (hat : src.drop pos = bs)
    (hfuel : bs.length < fuel) :
    field_lines src fuel pos emitted = (.ok src.length, emitted ++ headers) := by
  obtain ⟨fuel, rfl⟩ : ∃ n, fuel = n + 1 := ⟨fuel - 1, by omega⟩
  induction headers generalizing pos cap bs fuel emitted with
  | nil =>
    cases h
    have hend : src.length ≤ pos := List.drop_eq_nil_iff.mp hat
    unfold field_lines
    rw [if_neg (by omega), List.append_nil, Nat.le_antisymm hpos hend]
  | cons field headers ih =>
    obtain ⟨line, hline, h⟩ := except_bind_eq_ok h
    obtain ⟨lines, hlines, h⟩ := except_bind_eq_ok h
    cases h
    obtain ⟨hthere, hsome, hread⟩ := read_encoded_line hsrc hpos hline hcap hat
    have hrest : src.drop (pos + line.length) = lines := by
      rw [← List.drop_drop, hat, List.drop_left]
    have hlen := congrArg List.length hat
    rw [List.length_drop, List.length_append] at hlen
    rw [List.length_append] at hfuel
    obtain ⟨fuel, rfl⟩ : ∃ n, fuel = n + 1 := ⟨fuel - 1, by omega⟩
    unfold field_lines
    rw [if_pos hthere, hread]
    dsimp only
    rw [ih (by omega) hlines (by omega) hrest fuel (by omega), List.append_assoc]
    rfl

/-- A number below its prefix takes a byte. -/
theorem encode_zero {prefix_bits : Nat} (hbits : 0 < prefix_bits)
    (h : encode_integer 0 prefix_bits 0x00 cap = .ok bs) : bs = [0x00] ∧ 0 < cap := by
  have hsmall : 0 < 2 ^ prefix_bits - 1 := by
    have := Nat.pow_le_pow_right (n := 2) (by omega) hbits
    omega
  unfold encode_integer at h
  split at h
  · cases h
  · dsimp only at h
    rw [if_pos hsmall] at h
    cases h
    exact ⟨rfl, by omega⟩

theorem of_mapError {x : Except Error Bytes} {f : Error → Error} (h : x.mapError f = .ok bs) :
    x = .ok bs := by
  cases x with
  | error e => cases h
  | ok a => exact h

/-- A field section comes back whole, and all of it is read. -/
theorem decode_encode_field_section
    (h : encode_field_section headers cap = .ok bs) (hcap : cap < 2 ^ 63) :
    decode_field_section bs = (.ok bs.length, headers) := by
  obtain ⟨ric, hric, h⟩ := except_bind_eq_ok h
  obtain ⟨base, hbase, h⟩ := except_bind_eq_ok h
  obtain ⟨lines, hlines, h⟩ := except_bind_eq_ok h
  obtain ⟨rfl, hroom⟩ := encode_zero (by omega) (of_mapError hric)
  obtain ⟨rfl, hroom'⟩ := encode_zero (by omega) (of_mapError hbase)
  cases h
  have hlen := encode_field_lines_length hlines
  rw [List.length_singleton] at hroom' hlen
  have hsrc : (0x00 :: 0x00 :: lines).length < 2 ^ 63 := by
    simp only [List.length_cons]
    omega
  have hstart : section_start (0x00 :: 0x00 :: lines) = .ok 2 := by
    have hric : read_integer (0x00 :: 0x00 :: lines) 0 8 = .ok (0, 1) :=
      read_integer_eq hsrc (Nat.zero_le _)
    have hbase : read_integer (0x00 :: 0x00 :: lines) 1 7 = .ok (0, 2) :=
      read_integer_eq hsrc (by simp)
    unfold section_start
    rw [if_neg (List.cons_ne_nil _ _), hric, ok_bind]
    dsimp only
    rw [if_neg (by omega), if_neg (by simp), hbase]
    rfl
  show decode_field_section (0x00 :: 0x00 :: lines) = (.ok (0x00 :: 0x00 :: lines).length, headers)
  unfold decode_field_section
  rw [hstart]
  dsimp only
  rw [read_encoded_lines hsrc (by simp) hlines (by omega) rfl (by simp; omega)]
  rfl

/-- Lists of fields come back from both codecs: from HPACK whatever the dynamic table holds, which
stays as it was, and from QPACK with nothing left over. -/
theorem header_lists_round_trip {headers : List (Bytes × Bytes)}
    (hnames : ∀ field ∈ headers, field.1.length ≤ 256) {cap : Nat} (hcap : cap < 2 ^ 63) :
    (∀ block, encode headers cap = .ok block →
        ∀ d : HpackDecoder, d.decode block = (.ok (), headers, d)) ∧
      ∀ block, encode_field_section headers cap = .ok block →
        decode_field_section block = (.ok block.length, headers) :=
  ⟨fun _ h d => decode_encode h (by omega) hnames d, fun _ h => decode_encode_field_section h hcap⟩

/-- A request whose fields take the three forms there are. -/
def request_fields : List (Bytes × Bytes) :=
  [(ascii ":method", ascii "GET"), (ascii ":path", ascii "/a"), (ascii "x", ascii "y")]

theorem request_fields_round_trip :
    HpackDecoder.new.decode [0x82, 4, 2, 0x2f, 0x61, 0, 1, 0x78, 1, 0x79] =
        (.ok (), request_fields, HpackDecoder.new) ∧
      decode_field_section [0, 0, 0xd1, 0x71, 2, 0x2f, 0x61, 0x21, 0x78, 1, 0x79] =
        (.ok 11, request_fields) := by
  obtain ⟨hpack, hqpack⟩ := @header_lists_round_trip request_fields (by decide) 64 (by omega)
  exact ⟨hpack _ (by decide +kernel) HpackDecoder.new, hqpack _ (by decide +kernel)⟩

end milli_http.h3.qpack
