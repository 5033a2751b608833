-- Huffman coding (hpack/huffman.rs): the encoder, the tables the decoder walks, and the code as
-- words of bits. Decoding and encoding are inverse, and what decodes is words and up to seven ones.
import MilliHttp.Lib.PrefixCode
import MilliHttp.Hpack.Tables

open bytes prefix_code

namespace milli_http.hpack.huffman

/-! ## The encoder -/

/-- The code of a symbol and its length. -/
def entry (sym : Nat) : Nat × Nat := (HUFF_TABLE[sym]?).getD (0, 0)

/-- Bits that are not written yet, and what was written. -/
structure Writing where
  bit_buf : Nat
  bit_count : Nat
  out : Bytes
  deriving DecidableEq, Repr

/-- Writes the complete bytes, into `cap` bytes. -/
def flush (cap : Nat) : Nat → Writing → Except Error Writing
  | 0, w => .ok w
  | fuel + 1, w =>
    if w.bit_count < 8 then .ok w
    else
      let bit_count := w.bit_count - 8
      if w.out.length ≥ cap then .error (.BufferTooSmall (w.out.length + 1))
      else
        flush cap fuel
          { bit_buf := w.bit_buf % 2 ^ bit_count
            bit_count
            out := w.out ++ [UInt8.ofNat (w.bit_buf / 2 ^ bit_count)] }

/-- Writes the bytes one by one. -/
def write (cap : Nat) : Bytes → Writing → Except Error Writing
  | [], w => .ok w
  | byte :: rest, w => do
    let (code, len) := entry byte.toNat
    let w ← flush cap (w.bit_count + len)
      { w with bit_buf := w.bit_buf * 2 ^ len + code, bit_count := w.bit_count + len }
    write cap rest w

/-- Encodes a byte string into `cap` bytes; the last byte is filled up with ones. -/
def encode (src : Bytes) (cap : Nat) : Except Error Bytes :=
  if src = [] then .ok []
  else do
    let w ← write cap src { bit_buf := 0, bit_count := 0, out := [] }
    if w.bit_count > 0 then
      let padding := 8 - w.bit_count
      let padded := w.bit_buf * 2 ^ padding + (2 ^ padding - 1)
      if w.out.length ≥ cap then .error (.BufferTooSmall (w.out.length + 1))
      else .ok (w.out ++ [UInt8.ofNat padded])
    else .ok w.out

/-- How many bytes a string takes encoded. -/
def encoded_len (src : Bytes) : Nat := ((src.map fun b => (entry b.toNat).2).sum + 7) / 8

/-! ## The tables of the decoder -/

/-- The first code of length `n + 1`. -/
def first_code : Nat → Nat
  | 0 => 0
  | n + 1 => (first_code n + len_count (n + 1)) * 2

/-- The symbols of one length, in the order of their codes. -/
def symbols_of_len (n : Nat) : List Nat :=
  (List.range (len_count (n + 1))).filterMap fun c =>
    HUFF_TABLE.findIdx? fun sym => sym.1 == first_code n + c && sym.2 == n + 1

/-- The symbols ordered by length and code. -/
def SYMBOLS : List Nat := (List.range 30).flatMap symbols_of_len

/-- The walk of `decode_one` with the index it keeps into `SYMBOLS`. -/
def walk_symbols (acc acc_len : Nat) :
    Nat → Nat → Nat → Nat → Nat → Outcome Error (Option (Nat × Nat))
  | 0, _, _, _, _ => .ok none
  | fuel + 1, len, code, first, index =>
    if len < min acc_len 30 then
      let code := code * 2 + acc / 2 ^ (acc_len - 1 - len) % 2
      let len := len + 1
      let count := len_count len
      if first ≤ code ∧ code - first < count then
        match SYMBOLS[index + (code - first)]? with
        | some sym => .ok (some (sym, len))
        | none => .panic
      else walk_symbols acc acc_len fuel len code ((first + count) * 2) (index + count)
    else .ok none

/-! ## The code is canonical -/

/-- The codes of a length, one after the other from the first. -/
def codes_of_len (first count len : Nat) : List (Nat × Nat) :=
  (List.range' first count).map fun code => (code, len)

/-- All codes, by length. -/
def canonical : List (Nat × Nat) :=
  (List.range 30).flatMap fun n => codes_of_len (first_code n) (len_count (n + 1)) (n + 1)

theorem mem_canonical {code len : Nat} :
    (code, len) ∈ canonical ↔
      ∃ n < 30, len = n + 1 ∧ first_code n ≤ code ∧ code < first_code n + len_count (n + 1) := by
  simp only [canonical, codes_of_len, List.mem_flatMap, List.mem_range, List.mem_map,
    List.mem_range'_1, Prod.mk.injEq]
  constructor
  · rintro ⟨n, hn, code, hcode, rfl, rfl⟩
    exact ⟨n, hn, rfl, hcode⟩
  · rintro ⟨n, hn, rfl, hcode⟩
    exact ⟨n, hn, code, hcode, rfl, rfl⟩

theorem canonical_nodup : canonical.Nodup := by
  refine List.nodup_flatMap.mpr ⟨fun n _ => ?_, ?_⟩
  · exact List.Nodup.map (fun a b h => (Prod.mk.inj h).1) List.nodup_range'
  · refine List.Pairwise.imp ?_ List.nodup_range
    intro n m hne p hp hq
    obtain ⟨_, -, rfl⟩ := List.mem_map.mp hp
    obtain ⟨_, -, heq⟩ := List.mem_map.mp hq
    exact hne (Nat.succ_injective (Prod.mk.inj heq).2).symm

/-- The codes of a length are all in the table. -/
def table_has (first count len : Nat) : Bool :=
  (List.range' first count).all fun code =>
    HUFF_TABLE.any fun sym => Nat.beq sym.1 code && Nat.beq sym.2 len

theorem table_has_codes :
    ((List.range 30).all fun n => table_has (first_code n) (len_count (n + 1)) (n + 1)) = true := by
  decide +kernel

theorem canonical_subset : canonical ⊆ HUFF_TABLE := by
  rintro ⟨code, len⟩ hp
  obtain ⟨n, hn, rfl, hfirst, hlast⟩ := mem_canonical.mp hp
  have hlen := List.all_eq_true.mp table_has_codes n (List.mem_range.mpr hn)
  have hcode := List.all_eq_true.mp hlen code (List.mem_range'_1.mpr ⟨hfirst, hlast⟩)
  obtain ⟨sym, hsym, heq⟩ := List.any_eq_true.mp hcode
  rw [Bool.and_eq_true] at heq
  obtain ⟨code', len'⟩ := sym
  rw [← Nat.eq_of_beq_eq_true heq.1, ← Nat.eq_of_beq_eq_true heq.2]
  exact hsym

theorem canonical_length : canonical.length = 257 := by
  have hlen : canonical.length = ((List.range 30).map fun n => len_count (n + 1)).sum := by
    simp [canonical, codes_of_len, List.length_flatMap]
  rw [hlen]
  decide +kernel

theorem table_length : HUFF_TABLE.length = 257 := by
  decide +kernel

/-- The table holds the canonical codes and no others, each once. -/
theorem table_perm : List.Perm canonical HUFF_TABLE :=
  (List.subperm_of_subset canonical_nodup canonical_subset).perm_of_length_le
    (by rw [canonical_length, table_length])

theorem table_nodup : HUFF_TABLE.Nodup := table_perm.nodup_iff.mp canonical_nodup

/-- What is in the table: the code lies among those of its length. -/
theorem mem_table {code len : Nat} :
    (code, len) ∈ HUFF_TABLE ↔
      ∃ n < 30, len = n + 1 ∧ first_code n ≤ code ∧ code < first_code n + len_count (n + 1) := by
  rw [← table_perm.mem_iff]
  exact mem_canonical

/-- Longer codes lie behind the shorter ones. -/
theorem first_code_grows (n k : Nat) :
    (first_code n + len_count (n + 1)) * 2 ^ (k + 1) ≤ first_code (n + 1 + k) := by
  induction k with
  | zero => exact Nat.le_refl _
  | succ k ih =>
    have hstep : first_code (n + 1 + (k + 1)) =
        (first_code (n + 1 + k) + len_count (n + 1 + k + 1)) * 2 := rfl
    rw [hstep, Nat.pow_succ, ← Nat.mul_assoc]
    omega

theorem table_bounds :
    HUFF_TABLE.all (fun sym => Nat.blt sym.1 (2 ^ sym.2) && Nat.ble 5 sym.2) = true := by
  decide +kernel

theorem code_bounds {code len : Nat} (h : (code, len) ∈ HUFF_TABLE) :
    code < 2 ^ len ∧ 5 ≤ len ∧ len ≤ 30 := by
  have hbounds := List.all_eq_true.mp table_bounds _ h
  rw [Bool.and_eq_true, Nat.blt_eq, Nat.ble_eq] at hbounds
  obtain ⟨n, hn, rfl, -, -⟩ := mem_table.mp h
  exact ⟨hbounds.1, hbounds.2, hn⟩

/-- No code is what a longer one begins with. -/
theorem code_at_front {code code' len len' : Nat} (h : (code, len) ∈ HUFF_TABLE)
    (h' : (code', len') ∈ HUFF_TABLE) (hle : len ≤ len')
    (hfront : code' / 2 ^ (len' - len) = code) :
    code = code' ∧ len = len' := by
  obtain ⟨n, hn, rfl, hfirst, hlast⟩ := mem_table.mp h
  obtain ⟨m, hm, rfl, hfirst', -⟩ := mem_table.mp h'
  rcases Nat.eq_or_lt_of_le hle with heq | hlt
  · rw [heq, Nat.sub_self, Nat.pow_zero, Nat.div_one] at hfront
    exact ⟨hfront.symm, heq⟩
  · obtain ⟨k, rfl⟩ : ∃ k, m = n + 1 + k := ⟨m - (n + 1), by omega⟩
    have hgrow := first_code_grows n k
    have hshift : n + 1 + k + 1 - (n + 1) = k + 1 := by omega
    rw [hshift] at hfront
    have hbehind : first_code n + len_count (n + 1) ≤ code' / 2 ^ (k + 1) :=
      (Nat.le_div_iff_mul_le (Nat.two_pow_pos _)).mpr (Nat.le_trans hgrow hfirst')
    omega

/-! ## Words -/

/-- The symbols: the bytes, and EOS. -/
abbrev Symbol := Fin 257

def EOS : Symbol := 256

def of_byte (b : UInt8) : Symbol := ⟨b.toNat, Nat.lt_succ_of_lt b.toNat_lt⟩

/-- The bits of a symbol. -/
def word (sym : Symbol) : List Bool := bits (entry sym).2 (entry sym).1

/-- The bits of a string. -/
def code_bits (s : Bytes) : List Bool := spell word (s.map of_byte)

theorem entry_get (sym : Symbol) : HUFF_TABLE[sym.val]? = some (entry sym) := by
  obtain ⟨e, he⟩ : ∃ e, HUFF_TABLE[sym.val]? = some e :=
    ⟨_, List.getElem?_eq_getElem (by rw [table_length]; exact sym.isLt)⟩
  rw [entry, he, Option.getD_some]

theorem entry_mem (sym : Symbol) : ((entry sym).1, (entry sym).2) ∈ HUFF_TABLE :=
  List.mem_of_getElem? (entry_get sym)

theorem entry_bounds (sym : Symbol) :
    (entry sym).1 < 2 ^ (entry sym).2 ∧ 5 ≤ (entry sym).2 ∧ (entry sym).2 ≤ 30 :=
  code_bounds (entry_mem sym)

theorem entry_inj {a b : Symbol} (h : entry a = entry b) : a = b := by
  have hsame : HUFF_TABLE[a.val]? = HUFF_TABLE[b.val]? := by rw [entry_get, entry_get, h]
  have hdiff := List.nodup_iff_getElem?_ne_getElem?.mp table_nodup
  rw [table_length] at hdiff
  rcases Nat.lt_trichotomy a.val b.val with hlt | heq | hgt
  · exact absurd hsame (hdiff _ _ hlt b.isLt)
  · exact Fin.ext heq
  · exact absurd hsame.symm (hdiff _ _ hgt a.isLt)

theorem word_length (sym : Symbol) : (word sym).length = (entry sym).2 := bits_length _ _

/-- A word at the front of some bits is what their highest bits say. -/
theorem word_at_front {sym : Symbol} {n len : Nat} (hn : n < 2 ^ len) :
    word sym <+: bits len n ↔
      (entry sym).2 ≤ len ∧ n / 2 ^ (len - (entry sym).2) = (entry sym).1 := by
  have hbound := (entry_bounds sym).1
  constructor
  · rintro ⟨rest, hrest⟩
    have hle : (entry sym).2 ≤ len := by
      have := congrArg List.length hrest
      rw [List.length_append, word_length, bits_length] at this
      omega
    refine ⟨hle, ?_⟩
    have hsplit := bits_add (entry sym).2 (len - (entry sym).2) n
    rw [Nat.add_sub_cancel' hle, ← hrest] at hsplit
    obtain ⟨hfront, -⟩ := List.append_inj hsplit (by rw [word_length, bits_length])
    refine (bits_inj hbound ?_ hfront).symm
    rw [Nat.div_lt_iff_lt_mul (Nat.two_pow_pos _), ← Nat.pow_add, Nat.add_sub_cancel' hle]
    exact hn
  · rintro ⟨hle, hfront⟩
    refine ⟨bits (len - (entry sym).2) n, ?_⟩
    have hsplit := bits_add (entry sym).2 (len - (entry sym).2) n
    rw [Nat.add_sub_cancel' hle, hfront] at hsplit
    exact hsplit.symm

theorem word_free : PrefixFree word := by
  intro a b hpre
  obtain ⟨hle, hfront⟩ := (word_at_front (entry_bounds b).1).mp hpre
  obtain ⟨hcode, hlen⟩ := code_at_front (entry_mem a) (entry_mem b) hle hfront
  exact entry_inj (Prod.ext hcode hlen)

/-- Only EOS is all ones, and it has thirty. -/
theorem byte_codes_have_zeros :
    (HUFF_TABLE.take 256).all (fun sym => Nat.blt sym.1 (2 ^ sym.2 - 1)) = true := by
  decide +kernel

theorem eos_entry : entry EOS.val = (2 ^ 30 - 1, 30) := by
  decide +kernel

theorem word_of_byte_ne_ones (b : UInt8) (k : Nat) : word (of_byte b) ≠ List.replicate k true := by
  intro h
  have hk : k = (entry b.toNat).2 := by
    have := congrArg List.length h
    rw [word_length, List.length_replicate] at this
    exact this.symm
  have hget : (HUFF_TABLE.take 256)[b.toNat]? = some (entry b.toNat) := by
    rw [List.getElem?_take_of_lt b.toNat_lt]
    exact entry_get (of_byte b)
  have hzero := List.all_eq_true.mp byte_codes_have_zeros _ (List.mem_of_getElem? hget)
  rw [Nat.blt_eq] at hzero
  rw [hk] at h
  have hones := (bits_eq_ones (entry_bounds (of_byte b)).1).mp h
  have hsame : entry (of_byte b).val = entry b.toNat := rfl
  rw [hsame] at hones
  omega

/-- Up to seven ones, which may fill the last byte up, hold no word. -/
theorem ones_stuck {k : Nat} (hk : k < 30) : Stuck word (List.replicate k true) := by
  intro sym hpre
  have hones : word sym = List.replicate (word sym).length true := by
    obtain ⟨rest, hrest⟩ := hpre
    refine List.eq_replicate_of_mem fun x hx => ?_
    exact List.eq_of_mem_replicate (hrest ▸ List.mem_append_left _ hx)
  have hlen : (word sym).length ≤ k := by
    have := hpre.length_le
    rwa [List.length_replicate] at this
  rcases Nat.lt_or_ge sym.val 256 with hbyte | heos
  · have hsym : of_byte (UInt8.ofNat sym.val) = sym := by
      refine Fin.ext ?_
      show (UInt8.ofNat sym.val).toNat = sym.val
      rw [UInt8.toNat_ofNat', Nat.mod_eq_of_lt hbyte]
    rw [← hsym] at hones
    exact word_of_byte_ne_ones _ _ hones
  · have hsym : sym = EOS := Fin.ext (show sym.val = 256 by omega)
    rw [word_length, hsym, eos_entry] at hlen
    omega

end milli_http.hpack.huffman
