-- What the encoder writes the decoder reads back: integers behind the flags of a first byte,
-- strings, and header blocks, which leave the dynamic table as it was.
import MilliHttp.Hpack.Codec
import MilliHttp.Hpack.Bounds

open bytes method

namespace milli_http.hpack

/-! ## Integers -/

/-- A continuation byte holds seven bits and says whether more follow. -/
theorem low_bits (b : UInt8) :
    (b &&& 0x7f).toNat = b.toNat % 128 ∧ (b &&& 0x80 = 0 ↔ b.toNat < 128) :=
  forall_byte (p := fun b => (b &&& 0x7f).toNat = b.toNat % 128 ∧ (b &&& 0x80 = 0 ↔ b.toNat < 128))
    (by decide +kernel) b

theorem decode_rest_cons (byte : UInt8) (rest : Bytes) (shift value i : Nat) :
    decode_rest (byte :: rest) shift value i =
      if value + (byte &&& 0x7f).toNat <<< shift % 2 ^ 64 ≥ 2 ^ 64 then
        .error (.Transport .FrameEncodingError)
      else if byte &&& 0x80 = 0 then
        .ok (value + (byte &&& 0x7f).toNat <<< shift % 2 ^ 64, i + 1)
      else if shift + 7 > 63 then .error (.Transport .FrameEncodingError)
      else
        decode_rest rest (shift + 7) (value + (byte &&& 0x7f).toNat <<< shift % 2 ^ 64) (i + 1) :=
  rfl

theorem decode_integer_cons (first : UInt8) (rest : Bytes) (prefix_bits : Nat) :
    decode_integer (first :: rest) prefix_bits =
      if first.toNat % 2 ^ prefix_bits < 2 ^ prefix_bits - 1 then
        .ok (first.toNat % 2 ^ prefix_bits, 1)
      else decode_rest rest 0 (2 ^ prefix_bits - 1) 1 :=
  rfl

theorem encode_rest_length {fuel remaining i cap : Nat} {bs : Bytes}
    (h : encode_rest fuel remaining i cap = .ok bs) (hi : i ≤ cap) : i + bs.length ≤ cap := by
  induction fuel generalizing remaining i bs with
  | zero =>
    cases h
    exact hi
  | succ fuel ih =>
    unfold encode_rest at h
    split at h
    · cases h
    split at h
    · obtain ⟨rest, hrest, h⟩ := except_bind_eq_ok h
      cases h
      have := ih hrest (by omega)
      rw [List.length_cons]
      omega
    · cases h
      rw [List.length_singleton]
      omega

theorem encode_integer_length {value prefix_bits cap : Nat} {mask : UInt8} {bs : Bytes}
    (h : encode_integer value prefix_bits mask cap = .ok bs) : bs.length ≤ cap := by
  unfold encode_integer at h
  split at h
  · cases h
  dsimp only at h
  split at h
  · cases h
    rw [List.length_singleton]
    omega
  · obtain ⟨rest, hrest, h⟩ := except_bind_eq_ok h
    cases h
    have := encode_rest_length hrest (by omega)
    rw [List.length_cons]
    omega

/-- The continuation bytes add up to what was left of the number. -/
theorem decode_encode_rest {fuel remaining i cap shift value j : Nat} {bs : Bytes}
    (h : encode_rest fuel remaining i cap = .ok bs) (hfuel : 0 < fuel)
    (hlow : remaining < 128 ^ fuel) (hfits : value + remaining * 2 ^ shift < 2 ^ 64)
    (more : Bytes) :
    decode_rest (bs ++ more) shift value j =
      .ok (value + remaining * 2 ^ shift, j + bs.length) := by
  induction fuel generalizing remaining i shift value j bs with
  | zero => omega
  | succ fuel ih =>
    unfold encode_rest at h
    split at h
    · cases h
    split at h
    next hmany =>
      obtain ⟨rest, hrest, h⟩ := except_bind_eq_ok h
      cases h
      have hbyte : (UInt8.ofNat (0x80 + remaining % 128)).toNat = 128 + remaining % 128 := by
        rw [UInt8.toNat_ofNat']
        omega
      obtain ⟨hbits, hflag⟩ := low_bits (UInt8.ofNat (0x80 + remaining % 128))
      rw [hbyte] at hbits hflag
      have hmod : (128 + remaining % 128) % 128 = remaining % 128 := by omega
      have hshift : 2 ^ (shift + 7) = 128 * 2 ^ shift := by
        rw [Nat.pow_add]
        exact Nat.mul_comm _ _
      have hsplit : remaining * 2 ^ shift =
          remaining % 128 * 2 ^ shift + remaining / 128 * 2 ^ (shift + 7) := by
        rw [hshift, ← Nat.mul_assoc, ← Nat.add_mul, Nat.mul_comm (remaining / 128), Nat.mod_add_div]
      have hcarry : 2 ^ (shift + 7) ≤ remaining / 128 * 2 ^ (shift + 7) :=
        Nat.le_mul_of_pos_left _ (Nat.div_pos hmany (by omega))
      have hroom : shift + 7 ≤ 63 := by
        by_contra hbig
        have := Nat.pow_le_pow_right (n := 2) (by omega) (show 64 ≤ shift + 7 by omega)
        omega
      have hfuel' : 0 < fuel := by
        rcases Nat.eq_zero_or_pos fuel with rfl | hpos
        · rw [Nat.zero_add, Nat.pow_one] at hlow
          omega
        · exact hpos
      have hlow' : remaining / 128 < 128 ^ fuel := by
        rw [Nat.pow_succ] at hlow
        exact Nat.div_lt_of_lt_mul (by rwa [Nat.mul_comm])
      have hmore : decode_rest (rest ++ more) (shift + 7) (value + remaining % 128 * 2 ^ shift)
          (j + 1) = _ := ih hrest hfuel' hlow' (by omega)
      rw [List.cons_append, decode_rest_cons, hbits, hmod, Nat.shiftLeft_eq,
        Nat.mod_eq_of_lt (by omega), if_neg (by omega), if_neg (by rw [hflag]; omega),
        if_neg (by omega), hmore, hsplit, List.length_cons]
      congr 2 <;> omega
    next hlast =>
      cases h
      have hbyte : (UInt8.ofNat remaining).toNat = remaining := by
        rw [UInt8.toNat_ofNat']
        omega
      obtain ⟨hbits, hflag⟩ := low_bits (UInt8.ofNat remaining)
      rw [hbyte] at hbits hflag
      rw [Nat.mod_eq_of_lt (by omega)] at hbits
      rw [List.singleton_append, decode_rest_cons, hbits, Nat.shiftLeft_eq,
        Nat.mod_eq_of_lt (by omega), if_neg (by omega), if_pos (hflag.mpr (by omega))]
      rfl

/-- Flags and a number that does not reach into them. -/
theorem flags_or {mask : UInt8} {prefix_bits n : Nat} (hbits : prefix_bits ≤ 8)
    (hmask : mask.toNat % 2 ^ prefix_bits = 0) (hn : n < 2 ^ prefix_bits) :
    (mask ||| UInt8.ofNat n).toNat = mask.toNat + n := by
  have hbyte : 2 ^ prefix_bits ≤ 256 := Nat.pow_le_pow_right (by omega) hbits
  rw [UInt8.toNat_or, UInt8.toNat_ofNat', Nat.mod_eq_of_lt (by omega)]
  obtain ⟨k, hk⟩ := Nat.dvd_of_mod_eq_zero hmask
  rw [hk]
  exact (Nat.two_pow_add_eq_or_of_lt hn k).symm

/-- An integer comes back, whatever is behind it, and leaves the flags of its first byte alone. -/
theorem decode_encode_integer {value prefix_bits cap : Nat} {mask : UInt8} {bs : Bytes}
    (h : encode_integer value prefix_bits mask cap = .ok bs) (hbits : prefix_bits ≤ 8)
    (hmask : mask.toNat % 2 ^ prefix_bits = 0) (hvalue : value < 2 ^ 64) :
    ∃ first rest, bs = first :: rest ∧
      first.toNat = mask.toNat + min value (2 ^ prefix_bits - 1) ∧
      ∀ more, decode_integer (bs ++ more) prefix_bits = .ok (value, bs.length) := by
  have hpos := Nat.two_pow_pos prefix_bits
  have hmod : ∀ n < 2 ^ prefix_bits, (mask.toNat + n) % 2 ^ prefix_bits = n := by
    intro n hn
    rw [Nat.add_mod, hmask, Nat.zero_add, Nat.mod_mod, Nat.mod_eq_of_lt hn]
  unfold encode_integer at h
  split at h
  · cases h
  dsimp only at h
  split at h
  next hsmall =>
    cases h
    have hfirst := flags_or hbits hmask (n := value) (by omega)
    refine ⟨_, [], rfl, by rw [hfirst]; omega, fun more => ?_⟩
    rw [List.singleton_append, decode_integer_cons, hfirst, hmod value (by omega), if_pos hsmall]
    rfl
  next hlarge =>
    obtain ⟨rest, hrest, h⟩ := except_bind_eq_ok h
    cases h
    have hfirst := flags_or hbits hmask (n := 2 ^ prefix_bits - 1) (by omega)
    refine ⟨_, rest, rfl, by rw [hfirst]; omega, fun more => ?_⟩
    have hback : decode_rest (rest ++ more) 0 (2 ^ prefix_bits - 1) 1 = _ :=
      decode_encode_rest hrest (by omega) (by omega) (by omega) more
    rw [List.cons_append, decode_integer_cons, hfirst, hmod _ (by omega),
      if_neg (Nat.lt_irrefl _), hback, List.length_cons]
    congr 2 <;> omega

/-! ## Strings -/

variable {cap : Nat} {name value bs more : Bytes}

theorem encode_string_literal_length (h : encode_string_literal value cap = .ok bs) :
    bs.length ≤ cap ∧ value.length ≤ cap := by
  obtain ⟨len, hlen, h⟩ := except_bind_eq_ok h
  have := encode_integer_length hlen
  split at h
  · cases h
  · cases h
    rw [List.length_append]
    omega

/-- A string behind its length comes back, if the decoder has room for it. -/
theorem parse_raw_string {first : UInt8} {len : Bytes}
    (hlen : ∀ more, decode_integer (first :: len ++ more) 7 =
      .ok (value.length, (first :: len).length))
    (hraw : (first &&& 0x80 != 0) = false) {room : Nat} {raw : Bool}
    (hroom : raw = true ∨ value.length ≤ room) (more : Bytes) :
    parse_string (first :: len ++ value ++ more) room raw = .ok (value, more) := by
  have hheader : parse_string_header (first :: len ++ value ++ more) =
      .ok (false, value.length, (first :: len).length) := by
    have hthere : ¬ (first :: (len ++ (value ++ more))).length - (first :: len).length <
        value.length := by
      simp only [List.length_cons, List.length_append]
      omega
    rw [List.append_assoc, List.cons_append]
    unfold parse_string_header
    dsimp only
    rw [← List.cons_append, hlen, except_ok_bind, List.cons_append]
    dsimp only
    rw [if_neg hthere, hraw]
  have hroom' : ¬ (raw = false ∧ value.length > room) := by
    rintro ⟨rfl, hlong⟩
    rcases hroom with h | h
    · cases h
    · omega
  unfold parse_string
  rw [hheader, except_ok_bind]
  dsimp only
  rw [if_neg Bool.false_ne_true, if_neg hroom', List.append_assoc, List.drop_left, List.take_left,
    ← List.append_assoc, ← List.length_append, List.drop_left]

/-- A string comes back, if the decoder has room for it. -/
theorem parse_encode_string (h : encode_string_literal value cap = .ok bs) (hcap : cap < 2 ^ 64)
    {room : Nat} {raw : Bool} (hroom : raw = true ∨ value.length ≤ room) (more : Bytes) :
    parse_string (bs ++ more) room raw = .ok (value, more) := by
  have hvalue := (encode_string_literal_length h).2
  obtain ⟨len, hlen, h⟩ := except_bind_eq_ok h
  split at h
  · cases h
  cases h
  obtain ⟨first, rest, rfl, hfirst, hback⟩ :=
    decode_encode_integer hlen (by omega) rfl (by omega)
  have hraw : (first &&& 0x80 != 0) = false := by
    refine bne_eq_false_iff_eq.mpr (by_contra fun hflag => ?_)
    have h128 := (first_byte first).1.mp hflag
    have hzero : (0x00 : UInt8).toNat = 0 := rfl
    rw [hfirst, hzero] at h128
    omega
  exact parse_raw_string hback hraw hroom more

/-! ## Header blocks -/

theorem table_lookup_static {i : Nat} {e : String × String} (h : STATIC_TABLE[i]? = some e)
    (d : HpackDecoder) : d.table_lookup (i + 1) = .ok (ascii e.1, ascii e.2) := by
  unfold HpackDecoder.table_lookup
  rw [if_neg (Nat.succ_ne_zero i), Nat.add_sub_cancel, h]

theorem lookup_finds (name value : Bytes) :
    match lookup name value with
    | .ExactMatch idx => 0 < idx ∧ idx < 62 ∧
        ∀ d : HpackDecoder, d.table_lookup idx = .ok (name, value)
    | .NameMatch idx => 0 < idx ∧ idx < 62 ∧
        ∃ other, ∀ d : HpackDecoder, d.table_lookup idx = .ok (name, other)
    | .NotFound => True := by
  have hlen : STATIC_TABLE.length = 61 := rfl
  unfold lookup
  split
  next i hexact =>
    split at hexact
    next j hj =>
      cases hexact
      obtain ⟨hlt, hmatch, -⟩ := List.findIdx?_eq_some_iff_getElem.mp hj
      obtain ⟨hname, hvalue⟩ := Bool.and_eq_true_iff.mp hmatch
      refine ⟨by omega, by omega, fun d => ?_⟩
      rw [table_lookup_static (List.getElem?_eq_getElem hlt), eq_of_beq hname, eq_of_beq hvalue]
    next =>
      split at hexact <;> cases hexact
  next i hfound =>
    split at hfound
    · cases hfound
    · split at hfound
      next j hj =>
        cases hfound
        obtain ⟨hlt, hname, -⟩ := List.findIdx?_eq_some_iff_getElem.mp hj
        refine ⟨by omega, by omega, ascii STATIC_TABLE[j].2, fun d => ?_⟩
        rw [table_lookup_static (List.getElem?_eq_getElem hlt), eq_of_beq hname]
      next => cases hfound
  next => trivial

theorem decode_indexed {first : UInt8} {src : Bytes} {index consumed : Nat} {s : Decoding}
    (hfirst : first &&& 0b10000000 ≠ 0) (hindex : decode_integer src 7 = .ok (index, consumed))
    (hfield : s.decoder.table_lookup index = .ok (name, value)) :
    decode_field first src s = (.ok (src.drop consumed), emit (name, value) s) := by
  unfold decode_field
  rw [if_pos hfirst, hindex, Method.bind_ok (Method.lift_run _ _)]
  dsimp only
  rw [Method.bind_ok (Method.get_run s), hfield]
  rfl

theorem decode_literal {first : UInt8} {src rest : Bytes} {index consumed : Nat} {s : Decoding}
    (hfirst : first.toNat < 16) (hindex : decode_integer src 4 = .ok (index, consumed))
    (hname : parse_name s.decoder index (src.drop consumed) = .ok (name, rest))
    (hvalue : parse_string rest 1024 true = .ok (value, more)) :
    decode_field first src s = (.ok more, emit (name, value) s) := by
  obtain ⟨hindexed, hindexing, hwithout, -⟩ := first_byte first
  unfold decode_field
  rw [if_neg (by rw [hindexed]; omega), if_neg (by rw [hindexing]; omega),
    if_pos (hwithout.mpr hfirst), hindex, Method.bind_ok (Method.lift_run _ _)]
  dsimp only
  unfold decode_literal_field
  rw [Method.bind_ok (Method.get_run s), hname, Method.bind_ok (Method.lift_run _ _)]
  dsimp only
  rw [hvalue, Method.bind_ok (Method.lift_run _ _)]
  rfl

/-- A field comes back, and nothing else happens. -/
theorem decode_encode_field {offset : Nat} (h : encode_field name value offset cap = .ok bs)
    (hcap : cap < 2 ^ 64) (hname : name.length ≤ 256) :
    ∃ first rest, bs = first :: rest ∧ ∀ more s,
      decode_field first (bs ++ more) s = (.ok more, emit (name, value) s) := by
  have hfinds := lookup_finds name value
  unfold encode_field at h
  split at h
  next idx hexact =>
    rw [hexact] at hfinds
    obtain ⟨-, hidx, hlookup⟩ := hfinds
    obtain ⟨first, rest, rfl, hfirst, hback⟩ := decode_encode_integer h (by omega) rfl (by omega)
    refine ⟨first, rest, rfl, fun more s => ?_⟩
    have hmask : (0b10000000 : UInt8).toNat = 128 := rfl
    rw [decode_indexed ((first_byte first).1.mpr (by omega)) (hback more) (hlookup s.decoder),
      List.drop_left]
  next idx hfound =>
    rw [hfound] at hfinds
    obtain ⟨hpos, hidx, other, hlookup⟩ := hfinds
    obtain ⟨index, hindex, h⟩ := except_bind_eq_ok h
    obtain ⟨string, hstring, h⟩ := except_bind_eq_ok h
    cases h
    obtain ⟨first, rest, rfl, hfirst, hback⟩ :=
      decode_encode_integer hindex (by omega) rfl (by omega)
    refine ⟨first, rest ++ string, rfl, fun more s => ?_⟩
    have hmask : (0b00000000 : UInt8).toNat = 0 := rfl
    have hparse : parse_name s.decoder idx (string ++ more) = .ok (name, string ++ more) := by
      unfold parse_name
      rw [if_pos hpos, hlookup, except_ok_bind]
      exact if_neg (by omega)
    rw [List.append_assoc]
    refine decode_literal (by omega) (hback _) ?_
      (parse_encode_string hstring (by omega) (.inl rfl) more)
    rw [List.drop_left]
    exact hparse
  next =>
    split at h
    · cases h
    obtain ⟨name_string, hname_string, h⟩ := except_bind_eq_ok h
    obtain ⟨value_string, hvalue_string, h⟩ := except_bind_eq_ok h
    cases h
    refine ⟨_, _, rfl, fun more s => ?_⟩
    have hindex : decode_integer (0x00 :: name_string ++ value_string ++ more) 4 = .ok (0, 1) := rfl
    refine decode_literal (by decide) hindex ?_
      (parse_encode_string hvalue_string (by omega) (.inl rfl) more)
    have hparse : parse_name s.decoder 0 (name_string ++ (value_string ++ more)) =
        .ok (name, value_string ++ more) :=
      parse_encode_string hname_string (by omega) (.inr hname) _
    rw [List.append_assoc]
    exact hparse

/-- The fields come back one after the other. -/
theorem decode_encode_fields {headers : List Header} {offset fuel : Nat} {s : Decoding}
    (h : encode_fields headers offset cap = .ok bs) (hcap : cap < 2 ^ 64)
    (hnames : ∀ field ∈ headers, field.1.length ≤ 256) (hfuel : bs.length ≤ fuel) :
    decode_fields fuel bs s = (.ok (), { s with emitted := s.emitted ++ headers }) := by
  induction headers generalizing offset cap bs fuel s with
  | nil =>
    cases h
    rw [List.append_nil]
    cases fuel <;> rfl
  | cons field headers ih =>
    obtain ⟨line, hline, h⟩ := except_bind_eq_ok h
    obtain ⟨rest, hrest, h⟩ := except_bind_eq_ok h
    cases h
    obtain ⟨first, line, rfl, hback⟩ :=
      decode_encode_field hline hcap (hnames field List.mem_cons_self)
    rw [List.length_append, List.length_cons] at hfuel
    obtain ⟨fuel, rfl⟩ : ∃ n, fuel = n + 1 := ⟨fuel - 1, by omega⟩
    have hrest_back : decode_fields fuel rest (emit field s) = _ :=
      ih hrest (by omega) (fun f hf => hnames f (List.mem_cons_of_mem _ hf)) (by omega)
    show (decode_field first (first :: line ++ rest) >>= decode_fields fuel) s = _
    rw [Method.bind_ok (hback rest s), hrest_back]
    show _ = (Except.ok (), { s with emitted := s.emitted ++ field :: headers })
    rw [List.append_cons]
    rfl

/-- A header block comes back whole, and the decoder stays as it was. -/
theorem decode_encode {headers : List Header} (h : encode headers cap = .ok bs)
    (hcap : cap < 2 ^ 64) (hnames : ∀ field ∈ headers, field.1.length ≤ 256) (d : HpackDecoder) :
    d.decode bs = (.ok (), headers, d) := by
  unfold HpackDecoder.decode
  rw [decode_encode_fields h hcap hnames (Nat.le_refl _)]
  rfl

end milli_http.hpack
