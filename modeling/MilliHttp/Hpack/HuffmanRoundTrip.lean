-- Huffman decoding and encoding as inverse maps between strings and their bits: what one symbol,
-- one byte and a whole string do to the bits that are pending.
import MilliHttp.Hpack.Huffman
import MilliHttp.Hpack.Bounds

open bytes prefix_code

namespace milli_http.hpack.huffman

/-! ## One symbol -/

/-- The first bits of the accumulator, and one bit more. -/
theorem front_succ {acc acc_len len : Nat} (h : len < acc_len) :
    acc / 2 ^ (acc_len - len) * 2 + acc / 2 ^ (acc_len - 1 - len) % 2 =
      acc / 2 ^ (acc_len - (len + 1)) := by
  obtain ⟨k, rfl⟩ : ∃ k, acc_len = len + 1 + k := ⟨acc_len - (len + 1), by omega⟩
  have h1 : len + 1 + k - len = k + 1 := by omega
  have h2 : len + 1 + k - 1 - len = k := by omega
  have h3 : len + 1 + k - (len + 1) = k := by omega
  rw [h1, h2, h3, Nat.pow_succ, ← Nat.div_div_eq_div_mul]
  omega

theorem symbol_get {code len : Nat} (h : (code, len) ∈ HUFF_TABLE) :
    ∃ s : Symbol, s.val = symbol code len ∧ entry s = (code, len) := by
  have hlt : symbol code len < HUFF_TABLE.length :=
    List.findIdx_lt_length_of_exists ⟨(code, len), h, by simp⟩
  have hget : HUFF_TABLE[symbol code len]? = some HUFF_TABLE[symbol code len] :=
    List.getElem?_eq_getElem hlt
  have hfound := List.findIdx_getElem (w := hlt)
  rw [Bool.and_eq_true, beq_iff_eq, beq_iff_eq] at hfound
  have hsym : symbol code len < 257 := by rwa [table_length] at hlt
  refine ⟨⟨symbol code len, hsym⟩, rfl, ?_⟩
  have hentry := entry_get ⟨symbol code len, hsym⟩
  rw [hget] at hentry
  rw [← Option.some.inj hentry]
  exact Prod.ext hfound.1 hfound.2

/-- The walk stops at the first length whose codes hold the bits so far; if it does not stop, no
length does. -/
theorem walk_spec {acc acc_len fuel len : Nat} (hfuel : 30 ≤ fuel + len) :
    (∀ sym used, walk acc acc_len fuel len (acc / 2 ^ (acc_len - len)) (first_code len) =
        some (sym, used) → used ≤ acc_len ∧ (acc / 2 ^ (acc_len - used), used) ∈ HUFF_TABLE ∧
          sym = symbol (acc / 2 ^ (acc_len - used)) used) ∧
      (walk acc acc_len fuel len (acc / 2 ^ (acc_len - len)) (first_code len) = none →
        ∀ l, len < l → l ≤ acc_len → (acc / 2 ^ (acc_len - l), l) ∉ HUFF_TABLE) := by
  induction fuel generalizing len with
  | zero =>
    refine ⟨nofun, fun _ l hl _ hmem => ?_⟩
    have := (code_bounds hmem).2.2
    omega
  | succ fuel ih =>
    rw [walk]
    split
    next hmore =>
      dsimp only
      have hin : len < acc_len := by omega
      rw [front_succ hin]
      split
      next hmatch =>
        refine ⟨fun sym used h => ?_, nofun⟩
        cases h
        exact ⟨hin, mem_table.mpr ⟨len, by omega, rfl, hmatch.1, by omega⟩, rfl⟩
      next hno =>
        obtain ⟨hsome, hnone⟩ := ih (show 30 ≤ fuel + (len + 1) by omega)
        refine ⟨hsome, fun h l hl hle hmem => ?_⟩
        by_cases hnext : l = len + 1
        · subst hnext
          obtain ⟨n, -, hn, hfirst, hlast⟩ := mem_table.mp hmem
          obtain rfl : n = len := by omega
          exact hno ⟨hfirst, by omega⟩
        · exact hnone h l (by omega) hle hmem
    next hend =>
      refine ⟨nofun, fun _ l hl hle hmem => ?_⟩
      have := (code_bounds hmem).2.2
      omega

theorem decode_one_some {acc acc_len sym used : Nat} (hacc : acc < 2 ^ acc_len)
    (h : decode_one acc acc_len = some (sym, used)) :
    ∃ s : Symbol, s.val = sym ∧ used = (entry s).2 ∧ used ≤ acc_len ∧
      bits acc_len acc = word s ++ bits (acc_len - used) acc := by
  have hstart : acc / 2 ^ (acc_len - 0) = 0 := Nat.div_eq_of_lt hacc
  have hwalk : walk acc acc_len 30 0 (acc / 2 ^ (acc_len - 0)) (first_code 0) =
      some (sym, used) := by
    rw [hstart]
    exact h
  obtain ⟨hused, hmem, rfl⟩ := (walk_spec (by omega)).1 sym used hwalk
  obtain ⟨s, hs, hentry⟩ := symbol_get hmem
  refine ⟨s, hs, by rw [hentry], hused, ?_⟩
  have hsplit := bits_add used (acc_len - used) acc
  rw [Nat.add_sub_cancel' hused] at hsplit
  rw [hsplit, word, hentry]

theorem decode_one_none {acc acc_len : Nat} (hacc : acc < 2 ^ acc_len)
    (h : decode_one acc acc_len = none) : Stuck word (bits acc_len acc) := by
  have hstart : acc / 2 ^ (acc_len - 0) = 0 := Nat.div_eq_of_lt hacc
  have hwalk : walk acc acc_len 30 0 (acc / 2 ^ (acc_len - 0)) (first_code 0) = none := by
    rw [hstart]
    exact h
  intro s hpre
  obtain ⟨hle, hfront⟩ := (word_at_front hacc).mp hpre
  refine (walk_spec (by omega)).2 hwalk (entry s).2 ?_ hle ?_
  · have := (entry_bounds s).2.1
    omega
  · rw [hfront]
    exact entry_mem s

/-! ## The bits that are pending -/

/-- What the accumulator holds. -/
def pending (r : Reading) : List Bool := bits r.acc_len r.acc

/-- The accumulator holds no more than it counts. -/
def Reading.Fits (r : Reading) : Prop := r.acc < 2 ^ r.acc_len

variable {cap fuel : Nat} {r r' : Reading} {s s' src : Bytes} {t : List Bool}

/-- The reading behind a symbol. -/
def Reading.emit (r : Reading) (sym used : Nat) : Reading :=
  { acc := r.acc % 2 ^ (r.acc_len - used)
    acc_len := r.acc_len - used
    out := r.out ++ [UInt8.ofNat sym] }

theorem fits_emit (r : Reading) (sym used : Nat) : (r.emit sym used).Fits :=
  Nat.mod_lt _ (Nat.two_pow_pos _)

theorem pending_emit (r : Reading) (sym used : Nat) :
    pending (r.emit sym used) = bits (r.acc_len - used) r.acc :=
  bits_mod (Nat.le_refl _)

theorem code_bits_cons (b : UInt8) (s : Bytes) :
    code_bits (b :: s) = word (of_byte b) ++ code_bits s := by
  rw [code_bits, List.map_cons, spell_cons, code_bits]

theorem code_bits_append (s s' : Bytes) : code_bits (s ++ s') = code_bits s ++ code_bits s' := by
  rw [code_bits, List.map_append, spell_append, code_bits, code_bits]

theorem of_byte_ofNat {sym : Nat} (h : sym < 256) : (of_byte (UInt8.ofNat sym)).val = sym := by
  show (UInt8.ofNat sym).toNat = sym
  rw [UInt8.toNat_ofNat', Nat.mod_eq_of_lt h]

theorem emit_symbols_succ (cap fuel : Nat) (r : Reading) :
    emit_symbols cap (fuel + 1) r =
      if r.acc_len < 5 then .ok r
      else
        match decode_one r.acc r.acc_len with
        | some (sym, used) =>
          if sym = 256 then .error failed
          else if r.out.length ≥ cap then .error (.BufferTooSmall (r.out.length + 1))
          else emit_symbols cap fuel (r.emit sym used)
        | none => if r.acc_len ≥ 30 then .error failed else .ok r :=
  rfl

/-- What is emitted are the words at the front of what was pending. -/
theorem emit_spells (hr : r.Fits) (h : emit_symbols cap fuel r = .ok r') :
    ∃ s, r'.out = r.out ++ s ∧ pending r = code_bits s ++ pending r' ∧ r'.Fits := by
  induction fuel generalizing r with
  | zero =>
    cases h
    exact ⟨[], (List.append_nil _).symm, rfl, hr⟩
  | succ fuel ih =>
    rw [emit_symbols_succ] at h
    split at h
    · cases h
      exact ⟨[], (List.append_nil _).symm, rfl, hr⟩
    split at h
    next sym used hone =>
      split at h
      · cases h
      next hsym =>
      split at h
      · cases h
      obtain ⟨w, rfl, -, -, hfront⟩ := decode_one_some hr hone
      obtain ⟨s, hout, hpending, hfits⟩ := ih (fits_emit _ _ _) h
      have hbyte : w.val < 256 := by omega
      refine ⟨UInt8.ofNat w.val :: s, ?_, ?_, hfits⟩
      · rw [hout]
        exact List.append_assoc ..
      · have hw : of_byte (UInt8.ofNat w.val) = w := Fin.ext (of_byte_ofNat hbyte)
        rw [pending_emit] at hpending
        rw [pending, hfront, hpending, code_bits_cons, hw, List.append_assoc]
    · split at h
      · cases h
      · cases h
        exact ⟨[], (List.append_nil _).symm, rfl, hr⟩

/-- Words that are pending are all emitted, into a buffer that has room. -/
theorem emit_all (hr : r.Fits) (hfuel : r.acc_len ≤ fuel) (hpending : pending r = code_bits s ++ t)
    (ht : Stuck word t) (hshort : t.length < 30) (hcap : r.out.length + s.length ≤ cap) :
    ∃ r', emit_symbols cap fuel r = .ok r' ∧ r'.out = r.out ++ s ∧ pending r' = t ∧ r'.Fits := by
  induction s generalizing r fuel with
  | nil =>
    refine ⟨r, ?_, (List.append_nil _).symm, hpending, hr⟩
    have hlen : r.acc_len = t.length := by
      have := congrArg List.length hpending
      rwa [pending, bits_length] at this
    cases fuel with
    | zero => rfl
    | succ fuel =>
      rw [emit_symbols_succ]
      split
      · rfl
      split
      next sym used hone =>
        obtain ⟨w, -, -, -, hfront⟩ := decode_one_some hr hone
        refine absurd ?_ (ht w)
        rw [pending, hfront] at hpending
        exact ⟨_, hpending⟩
      · rw [if_neg (by omega)]
  | cons b s ih =>
    rw [code_bits_cons, List.append_assoc] at hpending
    have hword : word (of_byte b) <+: bits r.acc_len r.acc := ⟨_, hpending.symm⟩
    have hlong : 5 ≤ r.acc_len := by
      have hle := hword.length_le
      have hfive := (entry_bounds (of_byte b)).2.1
      rw [word_length, bits_length] at hle
      omega
    obtain ⟨fuel, rfl⟩ : ∃ n, fuel = n + 1 := ⟨fuel - 1, by omega⟩
    rw [emit_symbols_succ, if_neg (by omega)]
    cases hone : decode_one r.acc r.acc_len with
    | none => exact absurd hword (decode_one_none hr hone _)
    | some found =>
      obtain ⟨sym, used⟩ := found
      obtain ⟨w, rfl, hused, hle, hfront⟩ := decode_one_some hr hone
      obtain rfl : w = of_byte b := word_free.same ⟨_, hfront.symm⟩ hword
      have hsym : (of_byte b).val < 256 := b.toNat_lt
      have hfive := (entry_bounds (of_byte b)).2.1
      rw [List.length_cons] at hcap
      dsimp only
      rw [if_neg (by omega), if_neg (by omega)]
      have hrest : pending (r.emit (of_byte b).val used) = code_bits s ++ t := by
        rw [pending, hfront] at hpending
        rw [pending_emit]
        exact List.append_cancel_left hpending
      have hout : (r.emit (of_byte b).val used).out = r.out ++ [b] := by
        show r.out ++ [UInt8.ofNat b.toNat] = r.out ++ [b]
        rw [UInt8.ofNat_toNat]
      obtain ⟨r', hemit, hout', hlast, hfits⟩ :=
        ih (fits_emit _ _ _) (show r.acc_len - used ≤ fuel by omega) hrest
          (by rw [hout, List.length_append, List.length_singleton]; omega)
      refine ⟨r', hemit, ?_, hlast, hfits⟩
      rw [hout', hout, List.append_assoc, List.singleton_append]

/-! ## One byte, and a string -/

/-- The reading with a byte more in the accumulator. -/
def Reading.shift (r : Reading) (byte : UInt8) : Reading :=
  { r with acc := r.acc * 256 + byte.toNat, acc_len := r.acc_len + 8 }

theorem fits_shift (hr : r.Fits) (byte : UInt8) : (r.shift byte).Fits := by
  have hbyte := byte.toNat_lt
  have hr' : r.acc < 2 ^ r.acc_len := hr
  show r.acc * 256 + byte.toNat < 2 ^ (r.acc_len + 8)
  rw [Nat.pow_add]
  omega

theorem pending_shift (r : Reading) (byte : UInt8) :
    pending (r.shift byte) = pending r ++ bits 8 byte.toNat :=
  bits_append byte.toNat_lt

/-- What is read are the bits that were pending and those of the source. -/
theorem read_spells (hr : r.Fits) (h : read cap src r = .ok r') :
    ∃ s, r'.out = r.out ++ s ∧ pending r ++ byte_bits src = code_bits s ++ pending r' ∧
      r'.Fits := by
  induction src generalizing r with
  | nil =>
    cases h
    exact ⟨[], (List.append_nil _).symm, List.append_nil _, hr⟩
  | cons byte rest ih =>
    obtain ⟨r₁, hemit, h⟩ := except_bind_eq_ok h
    obtain ⟨s, hout, hpending, hfits⟩ := emit_spells (fits_shift hr byte) hemit
    obtain ⟨s', hout', hrest, hfits'⟩ := ih hfits h
    refine ⟨s ++ s', ?_, ?_, hfits'⟩
    · rw [hout', hout]
      exact List.append_assoc ..
    · rw [pending_shift] at hpending
      rw [byte_bits_cons, ← List.append_assoc, hpending, List.append_assoc, hrest,
        code_bits_append, List.append_assoc]

/-- Bits that are words and up to seven ones are read whole. -/
theorem read_all {k : Nat} (hr : r.Fits) (hstuck : Stuck word (pending r)) (hk : k ≤ 7)
    (hbits : pending r ++ byte_bits src = code_bits s ++ List.replicate k true)
    (hcap : r.out.length + s.length ≤ cap) :
    ∃ r', read cap src r = .ok r' ∧ r'.out = r.out ++ s ∧
      pending r' = List.replicate k true ∧ r'.Fits := by
  induction src generalizing r s with
  | nil =>
    rw [byte_bits_nil, List.append_nil] at hbits
    have hsplit : spell word [] ++ pending r = code_bits s ++ List.replicate k true := hbits
    obtain ⟨hs, ht⟩ := word_free.split_unique hstuck (ones_stuck (by omega)) hsplit
    obtain rfl := List.map_eq_nil_iff.mp hs.symm
    exact ⟨r, rfl, (List.append_nil _).symm, ht, hr⟩
  | cons byte rest ih =>
    rw [byte_bits_cons, ← List.append_assoc, ← pending_shift] at hbits
    obtain ⟨w₁, w₂, t, hwords, hfront, hbehind, ht, hshort⟩ :=
      word_free.split_front (ones_stuck (by omega))
        (show (List.replicate k true).length < 30 by rw [List.length_replicate]; omega)
        (fun sym => by rw [word_length]; exact (entry_bounds sym).2.2) hbits
    obtain ⟨s₁, s₂, rfl, rfl, rfl⟩ := List.map_eq_append_iff.mp hwords
    rw [List.length_append] at hcap
    obtain ⟨r₁, hemit, hout, hpending, hfits⟩ :=
      emit_all (fits_shift hr byte) (Nat.le_refl _) hfront ht hshort
        (show r.out.length + s₁.length ≤ cap by omega)
    have hout' : r₁.out = r.out ++ s₁ := hout
    obtain ⟨r', hread, hlast, hend, hfits'⟩ := ih hfits (by rw [hpending]; exact ht)
      (by rw [hpending]; exact hbehind) (by rw [hout', List.length_append]; omega)
    refine ⟨r', ?_, by rw [hlast, hout', List.append_assoc], hend, hfits'⟩
    have hstep : read cap (byte :: rest) r =
        emit_symbols cap (r.acc_len + 8) (r.shift byte) >>= fun r => read cap rest r := rfl
    have hemit' : emit_symbols cap (r.acc_len + 8) (r.shift byte) = .ok r₁ := hemit
    rw [hstep, hemit', except_ok_bind, hread]

theorem stuck_nil : Stuck word [] := by
  intro sym hpre
  have hle := hpre.length_le
  have := (entry_bounds sym).2.1
  rw [word_length, List.length_nil] at hle
  omega

theorem code_bits_eq_nil (h : code_bits s = []) : s = [] := by
  cases s with
  | nil => rfl
  | cons b s =>
    rw [code_bits_cons] at h
    exact absurd ⟨code_bits s, h⟩ (stuck_nil (of_byte b))

/-- What decodes are the words of bytes and up to seven ones. -/
theorem decode_iff :
    decode src cap = .ok s ↔
      s.length ≤ cap ∧ ∃ k ≤ 7, byte_bits src = code_bits s ++ List.replicate k true := by
  let start : Reading := { acc := 0, acc_len := 0, out := [] }
  have hstart : start.Fits := Nat.one_pos
  constructor
  · intro h
    refine ⟨decode_length h, ?_⟩
    rcases decode_reads h with ⟨rfl, rfl⟩ | ⟨-, r, hread, rfl, hlen, hones⟩
    · exact ⟨0, Nat.zero_le _, rfl⟩
    obtain ⟨s', hout, hbits, hfits⟩ := read_spells hstart hread
    have hall : r.acc = 2 ^ r.acc_len - 1 := by
      rcases Nat.eq_zero_or_pos r.acc_len with hzero | hpos
      · have hlt : r.acc < 2 ^ r.acc_len := hfits
        rw [hzero] at hlt ⊢
        exact Nat.lt_one_iff.mp hlt
      · by_contra hne
        exact hones ⟨hpos, by rwa [Nat.mod_eq_of_lt hfits]⟩
    refine ⟨r.acc_len, by omega, ?_⟩
    have hpending : pending r = List.replicate r.acc_len true := (bits_eq_ones hfits).mpr hall
    have hout' : r.out = s' := hout
    rw [hpending] at hbits
    rw [hout']
    exact hbits
  · rintro ⟨hcap, k, hk, hbits⟩
    unfold decode
    split
    next hnil =>
      rw [hnil] at hbits
      rw [code_bits_eq_nil (List.append_eq_nil_iff.mp hbits.symm).1]
    obtain ⟨r, hread, hout, hpending, hfits⟩ :=
      read_all hstart stuck_nil hk hbits (show 0 + s.length ≤ cap by omega)
    have hlen : r.acc_len = k := by
      have := congrArg List.length hpending
      rwa [pending, bits_length, List.length_replicate] at this
    have hall : r.acc = 2 ^ r.acc_len - 1 := by
      refine (bits_eq_ones hfits).mp ?_
      rw [hlen, ← hpending, pending, hlen]
    rw [hread, except_ok_bind, if_neg (by omega), if_neg, hout]
    · rfl
    · rintro ⟨-, hne⟩
      rw [Nat.mod_eq_of_lt hfits] at hne
      exact hne hall

/-- A string whose bits go on, behind words, with something that is neither a word of a byte nor up
to seven ones does not decode. -/
theorem decode_rejects (hbits : byte_bits src = code_bits s ++ t)
    (hword : ∀ b, ¬ word (of_byte b) <+: t) (hpadding : ∀ k ≤ 7, t ≠ List.replicate k true) :
    ∃ e, decode src cap = .error e := by
  cases h : decode src cap with
  | error e => exact ⟨e, rfl⟩
  | ok out =>
    obtain ⟨-, k, hk, hones⟩ := decode_iff.mp h
    rw [hbits] at hones
    have hfree : PrefixFree fun b => word (of_byte b) := fun a b hpre => by
      have hsame := congrArg Fin.val (word_free _ _ hpre)
      exact UInt8.toNat_inj.mp hsame
    have hspell : ∀ s, code_bits s = spell (fun b => word (of_byte b)) s := fun s => by
      rw [code_bits, spell, List.flatMap_map, spell]
    rw [hspell, hspell] at hones
    obtain ⟨-, ht⟩ := hfree.split_unique hword
      (fun b => ones_stuck (Nat.lt_of_le_of_lt hk (by decide)) (of_byte b)) hones
    exact absurd ht (hpadding k hk)

theorem decode_rejects_eos {rest : List Bool}
    (hbits : byte_bits src = code_bits s ++ word EOS ++ rest) :
    ∃ e, decode src cap = .error e := by
  rw [List.append_assoc] at hbits
  refine decode_rejects hbits (fun b hpre => ?_) fun k hk heq => ?_
  · have hsame : of_byte b = EOS := word_free.same hpre (List.prefix_append _ _)
    have hval : b.toNat = 256 := congrArg Fin.val hsame
    have := b.toNat_lt
    omega
  · have hlen := congrArg List.length heq
    rw [List.length_append, word_length, eos_entry, List.length_replicate] at hlen
    omega

/-- Nor do eight ones or more behind the last word. -/
theorem decode_rejects_long_padding {k : Nat} (hk : 8 ≤ k)
    (hbits : byte_bits src = code_bits s ++ List.replicate k true) :
    ∃ e, decode src cap = .error e := by
  refine decode_rejects hbits (fun b hpre => ?_) fun k' hk' heq => ?_
  · refine word_of_byte_ne_ones b (word (of_byte b)).length
      (List.eq_replicate_of_mem fun x hx => ?_)
    obtain ⟨rest, hrest⟩ := hpre
    exact List.eq_of_mem_replicate (hrest ▸ List.mem_append_left _ hx)
  · have hlen := congrArg List.length heq
    rw [List.length_replicate, List.length_replicate] at hlen
    omega

end milli_http.hpack.huffman
