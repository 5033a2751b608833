-- Huffman coding as a bijection: the encoder writes words and fills the last byte up with ones, the
-- decoder takes just such strings, and its tables are the code.
import MilliHttp.Hpack.HuffmanRoundTrip

open bytes prefix_code

namespace milli_http.hpack.huffman

/-! ## The encoder -/

/-- The bits that are not written yet. -/
def Writing.pending (w : Writing) : List Bool := bits w.bit_count w.bit_buf

def Writing.Fits (w : Writing) : Prop := w.bit_buf < 2 ^ w.bit_count

/-- All bits so far: those in complete bytes, and the pending ones. -/
def Writing.all (w : Writing) : List Bool := byte_bits w.out ++ w.pending

/-- How many bits there are so far. -/
def Writing.size (w : Writing) : Nat := 8 * w.out.length + w.bit_count

variable {cap fuel : Nat} {w w' : Writing} {src x : Bytes}

/-- The writing behind a complete byte. -/
def Writing.put (w : Writing) : Writing :=
  { bit_buf := w.bit_buf % 2 ^ (w.bit_count - 8)
    bit_count := w.bit_count - 8
    out := w.out ++ [UInt8.ofNat (w.bit_buf / 2 ^ (w.bit_count - 8))] }

theorem fits_put (w : Writing) : w.put.Fits := Nat.mod_lt _ (Nat.two_pow_pos _)

/-- A byte that is written takes its bits from the front of the pending ones. -/
theorem all_put (hw : w.Fits) (h : 8 ≤ w.bit_count) : w.put.all = w.all := by
  obtain ⟨k, hk⟩ : ∃ k, w.bit_count = 8 + k := ⟨w.bit_count - 8, by omega⟩
  have hrest : w.bit_count - 8 = k := by omega
  have hbyte : w.bit_buf / 2 ^ k < 256 := by
    have hlt : w.bit_buf < 2 ^ w.bit_count := hw
    rw [Nat.div_lt_iff_lt_mul (Nat.two_pow_pos _)]
    rwa [hk, Nat.pow_add] at hlt
  have hpending : w.put.pending = bits k w.bit_buf := by
    show bits (w.bit_count - 8) (w.bit_buf % 2 ^ (w.bit_count - 8)) = bits k w.bit_buf
    rw [hrest, bits_mod (Nat.le_refl k)]
  have hout : byte_bits w.put.out = byte_bits w.out ++ bits 8 (w.bit_buf / 2 ^ k) := by
    show byte_bits (w.out ++ [UInt8.ofNat (w.bit_buf / 2 ^ (w.bit_count - 8))]) = _
    rw [byte_bits_concat, hrest, UInt8.toNat_ofNat', Nat.mod_eq_of_lt hbyte]
  rw [Writing.all, hpending, hout, Writing.all, Writing.pending, hk, bits_add, List.append_assoc]

theorem flush_succ (cap fuel : Nat) (w : Writing) :
    flush cap (fuel + 1) w =
      if w.bit_count < 8 then .ok w
      else if w.out.length ≥ cap then .error (.BufferTooSmall (w.out.length + 1))
      else flush cap fuel w.put :=
  rfl

/-- Flushing moves bits and leaves fewer than eight. -/
theorem flush_all (hw : w.Fits) (hfuel : w.bit_count ≤ fuel) (h : flush cap fuel w = .ok w') :
    w'.all = w.all ∧ w'.Fits ∧ w'.bit_count < 8 := by
  induction fuel generalizing w with
  | zero =>
    cases h
    exact ⟨rfl, hw, by omega⟩
  | succ fuel ih =>
    rw [flush_succ] at h
    split at h
    next hfew =>
      cases h
      exact ⟨rfl, hw, hfew⟩
    split at h
    · cases h
    · obtain ⟨hall, hrest⟩ := ih (fits_put w) (show w.bit_count - 8 ≤ fuel by omega) h
      exact ⟨hall.trans (all_put hw (by omega)), hrest⟩

theorem flush_fits (hcap : w.size < 8 * cap + 8) : ∃ w', flush cap fuel w = .ok w' := by
  induction fuel generalizing w with
  | zero => exact ⟨w, rfl⟩
  | succ fuel ih =>
    rw [flush_succ]
    split
    · exact ⟨w, rfl⟩
    unfold Writing.size at hcap
    rw [if_neg (by omega)]
    refine ih ?_
    show 8 * (w.out ++ [_]).length + (w.bit_count - 8) < 8 * cap + 8
    rw [List.length_append, List.length_singleton]
    omega

/-- The writing with a symbol more. -/
def Writing.push (w : Writing) (b : UInt8) : Writing :=
  { w with
    bit_buf := w.bit_buf * 2 ^ (entry b.toNat).2 + (entry b.toNat).1
    bit_count := w.bit_count + (entry b.toNat).2 }

theorem fits_push (hw : w.Fits) (b : UInt8) : (w.push b).Fits := by
  have hcode := (entry_bounds (of_byte b)).1
  have hlt : w.bit_buf < 2 ^ w.bit_count := hw
  show w.bit_buf * 2 ^ (entry b.toNat).2 + (entry b.toNat).1 <
    2 ^ (w.bit_count + (entry b.toNat).2)
  calc w.bit_buf * 2 ^ (entry b.toNat).2 + (entry b.toNat).1
      < w.bit_buf * 2 ^ (entry b.toNat).2 + 2 ^ (entry b.toNat).2 := Nat.add_lt_add_left hcode _
    _ = (w.bit_buf + 1) * 2 ^ (entry b.toNat).2 := by rw [Nat.add_mul, Nat.one_mul]
    _ ≤ 2 ^ w.bit_count * 2 ^ (entry b.toNat).2 := Nat.mul_le_mul_right _ hlt
    _ = 2 ^ (w.bit_count + (entry b.toNat).2) := (Nat.pow_add _ _ _).symm

theorem all_push (w : Writing) (b : UInt8) : (w.push b).all = w.all ++ word (of_byte b) := by
  have hpending : (w.push b).pending = w.pending ++ word (of_byte b) :=
    bits_append (entry_bounds (of_byte b)).1
  have hout : (w.push b).out = w.out := rfl
  rw [Writing.all, hpending, hout, Writing.all, List.append_assoc]

theorem write_cons (cap : Nat) (b : UInt8) (rest : Bytes) (w : Writing) :
    write cap (b :: rest) w =
      flush cap (w.push b).bit_count (w.push b) >>= fun w => write cap rest w :=
  rfl

theorem write_all (hw : w.Fits) (hfew : w.bit_count < 8) (h : write cap src w = .ok w') :
    w'.all = w.all ++ code_bits src ∧ w'.Fits ∧ w'.bit_count < 8 := by
  induction src generalizing w with
  | nil =>
    cases h
    exact ⟨(List.append_nil _).symm, hw, hfew⟩
  | cons b rest ih =>
    rw [write_cons] at h
    obtain ⟨w₁, hflush, h⟩ := except_bind_eq_ok h
    obtain ⟨hall, hfits, hfew₁⟩ := flush_all (fits_push hw b) (Nat.le_refl _) hflush
    obtain ⟨hall', hrest⟩ := ih hfits hfew₁ h
    refine ⟨?_, hrest⟩
    rw [hall', hall, all_push, code_bits_cons, List.append_assoc]

theorem size_eq (w : Writing) : w.size = w.all.length := by
  rw [Writing.all, List.length_append, byte_bits_length, Writing.pending, bits_length,
    Writing.size]

theorem write_fits (hw : w.Fits) (hfew : w.bit_count < 8)
    (hcap : w.size + (code_bits src).length < 8 * cap + 8) : ∃ w', write cap src w = .ok w' := by
  induction src generalizing w with
  | nil => exact ⟨w, rfl⟩
  | cons b rest ih =>
    have hsize : (w.push b).size = w.size + (word (of_byte b)).length := by
      rw [size_eq, all_push, List.length_append, ← size_eq]
    rw [code_bits_cons, List.length_append] at hcap
    obtain ⟨w₁, hflush⟩ : ∃ w₁, flush cap (w.push b).bit_count (w.push b) = .ok w₁ :=
      flush_fits (by omega)
    obtain ⟨hall, hfits, hfew₁⟩ := flush_all (fits_push hw b) (Nat.le_refl _) hflush
    rw [write_cons, hflush, except_ok_bind]
    refine ih hfits hfew₁ ?_
    rw [size_eq, hall, ← size_eq, hsize]
    omega

/-- The last byte: the pending bits, filled up with ones. -/
theorem padded_bits (hw : w.Fits) (hfew : w.bit_count < 8) :
    bits 8 (UInt8.ofNat
        (w.bit_buf * 2 ^ (8 - w.bit_count) + (2 ^ (8 - w.bit_count) - 1))).toNat =
      w.pending ++ List.replicate (8 - w.bit_count) true := by
  have hpos := Nat.two_pow_pos (8 - w.bit_count)
  have hsum : w.bit_count + (8 - w.bit_count) = 8 := by omega
  have hlt : w.bit_buf < 2 ^ w.bit_count := hw
  have hbyte : w.bit_buf * 2 ^ (8 - w.bit_count) + (2 ^ (8 - w.bit_count) - 1) < 256 := by
    have hmul : (w.bit_buf + 1) * 2 ^ (8 - w.bit_count) ≤ 2 ^ w.bit_count * 2 ^ (8 - w.bit_count) :=
      Nat.mul_le_mul_right _ hlt
    rw [← Nat.pow_add, hsum, Nat.add_mul, Nat.one_mul] at hmul
    omega
  have hsplit := bits_append (a := w.bit_count) (x := w.bit_buf)
    (show 2 ^ (8 - w.bit_count) - 1 < 2 ^ (8 - w.bit_count) by omega)
  rw [hsum, bits_ones] at hsplit
  rw [UInt8.toNat_ofNat', Nat.mod_eq_of_lt hbyte, hsplit]
  rfl

def Writing.start : Writing := { bit_buf := 0, bit_count := 0, out := [] }

theorem fits_start : Writing.start.Fits := Nat.one_pos

/-- What the encoder writes are the words of the string and fewer than eight ones. -/
theorem encode_bits (h : encode src cap = .ok x) :
    ∃ k < 8, byte_bits x = code_bits src ++ List.replicate k true := by
  unfold encode at h
  split at h
  next hnil =>
    cases h
    exact ⟨0, by decide, by rw [hnil]; rfl⟩
  obtain ⟨w, hwrite, h⟩ := except_bind_eq_ok h
  have hwrite' : write cap src Writing.start = .ok w := hwrite
  obtain ⟨hall, hfits, hfew⟩ := write_all fits_start (show 0 < 8 by decide) hwrite'
  have hall' : byte_bits w.out ++ w.pending = code_bits src := hall
  split at h
  · dsimp only at h
    split at h
    · cases h
    · cases h
      refine ⟨8 - w.bit_count, by omega, ?_⟩
      rw [byte_bits_concat, padded_bits hfits hfew, ← List.append_assoc, hall']
  next hzero =>
    cases h
    have hnone : w.bit_count = 0 := by omega
    have hpending : w.pending = [] := by
      rw [Writing.pending, hnone]
      rfl
    refine ⟨0, by decide, ?_⟩
    rw [hpending, List.append_nil] at hall'
    rw [hall', List.replicate_zero, List.append_nil]

theorem code_bits_length (s : Bytes) :
    (code_bits s).length = (s.map fun b => (entry b.toNat).2).sum := by
  induction s with
  | nil => rfl
  | cons b s ih =>
    rw [code_bits_cons, List.length_append, ih, word_length, List.map_cons, List.sum_cons]
    rfl

/-- Words and fewer than eight ones make as many bytes as the length that is announced. -/
theorem length_of_bits {k : Nat} (hk : k < 8)
    (hbits : byte_bits x = code_bits src ++ List.replicate k true) :
    x.length = encoded_len src := by
  have hlen := congrArg List.length hbits
  rw [byte_bits_length, List.length_append, code_bits_length, List.length_replicate] at hlen
  rw [encoded_len]
  omega

theorem encode_fits (hcap : encoded_len src ≤ cap) : ∃ x, encode src cap = .ok x := by
  unfold encode
  split
  · exact ⟨_, rfl⟩
  have hroom : (code_bits src).length ≤ 8 * cap := by
    rw [encoded_len, ← code_bits_length] at hcap
    omega
  obtain ⟨w, hwrite⟩ : ∃ w, write cap src Writing.start = .ok w := by
    refine write_fits fits_start (show 0 < 8 by decide) ?_
    show 0 + (code_bits src).length < 8 * cap + 8
    omega
  obtain ⟨hall, -, -⟩ := write_all fits_start (show 0 < 8 by decide) hwrite
  have hsize : w.size = (code_bits src).length := by
    rw [size_eq, hall]
    rfl
  unfold Writing.size at hsize
  have hwrite' : write cap src { bit_buf := 0, bit_count := 0, out := [] } = .ok w := hwrite
  rw [hwrite', except_ok_bind]
  split
  · dsimp only
    rw [if_neg (by omega)]
    exact ⟨_, rfl⟩
  · exact ⟨_, rfl⟩

/-- One string has one code. -/
theorem encode_of_bits {k : Nat} (hk : k < 8)
    (hbits : byte_bits x = code_bits src ++ List.replicate k true) (hcap : x.length ≤ cap) :
    encode src cap = .ok x := by
  obtain ⟨y, hy⟩ : ∃ y, encode src cap = .ok y :=
    encode_fits (by rw [← length_of_bits hk hbits]; exact hcap)
  obtain ⟨j, hj, hybits⟩ := encode_bits hy
  have hsame : k = j := by
    have hxlen := congrArg List.length hbits
    have hylen := congrArg List.length hybits
    rw [byte_bits_length, List.length_append, List.length_replicate] at hxlen hylen
    omega
  subst hsame
  rw [hy, byte_bits_inj (hybits.trans hbits.symm)]

/-! ## The symbols by length and code -/

/-- The symbols of a length stand in the order of their codes. -/
theorem symbols_of_len_eq {n : Nat} (hn : n < 30) :
    symbols_of_len n =
      (List.range (len_count (n + 1))).map fun c => symbol (first_code n + c) (n + 1) := by
  refine List.filterMap_eq_map_iff_forall_eq_some.mpr fun c hc => ?_
  have hmem : (first_code n + c, n + 1) ∈ HUFF_TABLE :=
    mem_table.mpr ⟨n, hn, rfl, Nat.le_add_right _ _, Nat.add_lt_add_left (List.mem_range.mp hc) _⟩
  exact List.findIdx?_eq_some_of_exists ⟨_, hmem, by simp⟩

/-- The symbols of the lengths above `n`. -/
def symbols_from (n : Nat) : List Nat := (List.range' n (30 - n)).flatMap symbols_of_len

theorem symbols_from_lt {n : Nat} (hn : n < 30) :
    symbols_from n = symbols_of_len n ++ symbols_from (n + 1) := by
  have hlen : 30 - n = (30 - (n + 1)) + 1 := by omega
  rw [symbols_from, hlen, List.range'_succ, List.flatMap_cons, symbols_from]

/-- The walk with its index into the symbols is the walk by code: the index stands at the symbols of
the lengths not seen yet. -/
theorem walk_symbols_eq {acc acc_len fuel len code index : Nat}
    (hindex : SYMBOLS.drop index = symbols_from len) :
    walk_symbols acc acc_len fuel len code (first_code len) index =
      .ok (walk acc acc_len fuel len code (first_code len)) := by
  induction fuel generalizing len code index with
  | zero => rfl
  | succ fuel ih =>
    rw [walk_symbols, walk]
    split
    next hmore =>
      dsimp only
      have hlen : len < 30 := by omega
      rw [symbols_from_lt hlen] at hindex
      have hcount : (symbols_of_len len).length = len_count (len + 1) := by
        rw [symbols_of_len_eq hlen, List.length_map, List.length_range]
      generalize code * 2 + acc / 2 ^ (acc_len - 1 - len) % 2 = code
      split
      next hmatch =>
        have hget : SYMBOLS[index + (code - first_code len)]? = some (symbol code (len + 1)) := by
          rw [← List.getElem?_drop, hindex, List.getElem?_append_left (by omega),
            symbols_of_len_eq hlen, List.getElem?_map, List.getElem?_range hmatch.2,
            Option.map_some, Nat.add_sub_cancel' hmatch.1]
        rw [hget]
      · refine ih ?_
        rw [← List.drop_drop, hindex, ← hcount, List.drop_left' rfl]
    · rfl

/-- The tables of the decoder are in bounds and name the symbol of the code. -/
theorem walk_symbols_decodes (acc acc_len : Nat) :
    walk_symbols acc acc_len 30 0 0 0 0 = .ok (decode_one acc acc_len) :=
  walk_symbols_eq (show SYMBOLS.drop 0 = symbols_from 0 by
    rw [List.drop_zero, SYMBOLS, symbols_from, List.range_eq_range'])

/-! ## A bijection -/

/-- Every string comes back from its code, which is as long as announced; every string of bytes that
decodes is the code of what it decodes to; and what decodes are just words of bytes and up to seven
ones, so not EOS, more padding, or padding with a zero. -/
theorem huffman_is_a_bijection :
    (∀ s cap x, encode s cap = .ok x →
        x.length = encoded_len s ∧ ∀ cap' ≥ s.length, decode x cap' = .ok s) ∧
      (∀ s cap, encoded_len s ≤ cap → ∃ x, encode s cap = .ok x) ∧
      (∀ x cap s, decode x cap = .ok s → ∀ cap' ≥ x.length, encode s cap' = .ok x) ∧
      (∀ x cap s, decode x cap = .ok s ↔ s.length ≤ cap ∧
        ∃ k ≤ 7, byte_bits x = code_bits s ++ List.replicate k true) ∧
      (∀ x cap s t, byte_bits x = code_bits s ++ t →
        (∃ rest, t = word EOS ++ rest) ∨ (∃ k ≥ 8, t = List.replicate k true) ∨
          (false ∈ t ∧ ∀ b, ¬ word (of_byte b) <+: t) →
        ∃ e, decode x cap = .error e) ∧
      ∀ acc acc_len, walk_symbols acc acc_len 30 0 0 0 0 = .ok (decode_one acc acc_len) := by
  refine ⟨fun s cap x h => ?_, fun s cap => encode_fits, fun x cap s h cap' hcap => ?_,
    fun x cap s => decode_iff, fun x cap s t hbits ht => ?_, walk_symbols_decodes⟩
  · obtain ⟨k, hk, hbits⟩ := encode_bits h
    exact ⟨length_of_bits hk hbits, fun cap' hcap =>
      decode_iff.mpr ⟨hcap, k, Nat.le_of_lt_succ hk, hbits⟩⟩
  · obtain ⟨-, k, hk, hbits⟩ := decode_iff.mp h
    exact encode_of_bits (Nat.lt_succ_of_le hk) hbits hcap
  · rcases ht with ⟨rest, rfl⟩ | ⟨k, hk, rfl⟩ | ⟨hzero, hword⟩
    · exact decode_rejects_eos (by rw [List.append_assoc]; exact hbits)
    · exact decode_rejects_long_padding hk hbits
    · refine decode_rejects hbits hword fun k _ hones => ?_
      rw [hones] at hzero
      exact absurd (List.eq_of_mem_replicate hzero) (by decide)

end milli_http.hpack.huffman
