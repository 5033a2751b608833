-- How much the integer and the Huffman decoder take and give, that the buffer a string is decoded
-- into only bounds it, and what the flags of a first byte say about its number.
import MilliHttp.Hpack.Tables

open bytes

namespace milli_http.hpack

/-! ## Integers -/

theorem decode_rest_consumed {buf : Bytes} {shift value i len consumed : Nat}
    (h : decode_rest buf shift value i = .ok (len, consumed)) :
    i < consumed ∧ consumed ≤ i + buf.length := by
  induction buf generalizing shift value i with
  | nil => cases h
  | cons byte rest ih =>
    unfold decode_rest at h
    dsimp only at h
    split at h
    · cases h
    · split at h
      · cases h
        simp
      · split at h
        · cases h
        · have := ih h
          simp only [List.length_cons]
          omega

/-- An integer takes at least a byte, and not more than are there. -/
theorem decode_integer_consumed {buf : Bytes} {prefix_bits len consumed : Nat}
    (h : decode_integer buf prefix_bits = .ok (len, consumed)) :
    0 < consumed ∧ consumed ≤ buf.length := by
  unfold decode_integer at h
  split at h
  · cases h
  · dsimp only at h
    split at h
    · cases h
      simp
    · have := decode_rest_consumed h
      simp only [List.length_cons]
      omega

/-! ## Huffman coding -/

namespace huffman

variable {cap cap' fuel : Nat} {src out : Bytes} {r r' : Reading}

/-- A symbol takes at least a bit, and not more than are there. -/
theorem walk_used {acc acc_len len code first sym used : Nat}
    (h : walk acc acc_len fuel len code first = some (sym, used)) : 0 < used ∧ used ≤ acc_len := by
  induction fuel generalizing len code first with
  | zero => cases h
  | succ fuel ih =>
    unfold walk at h
    split at h
    · dsimp only at h
      split at h
      · cases h
        omega
      · exact ih h
    · cases h

theorem decode_one_used {acc acc_len sym used : Nat}
    (h : decode_one acc acc_len = some (sym, used)) : 0 < used ∧ used ≤ acc_len :=
  walk_used h

/-- The symbols that are there: they fit into the buffer, each takes at least a bit, and what was
written stays. -/
structure Emits (cap : Nat) (r r' : Reading) : Prop where
  fits : r.out.length ≤ cap → r'.out.length ≤ cap
  bits : r'.out.length + r'.acc_len ≤ r.out.length + r.acc_len
  grows : r.out.length ≤ r'.out.length

theorem emit_symbols_emits (h : emit_symbols cap fuel r = .ok r') : Emits cap r r' := by
  induction fuel generalizing r with
  | zero =>
    cases h
    exact ⟨id, Nat.le_refl _, Nat.le_refl _⟩
  | succ fuel ih =>
    unfold emit_symbols at h
    split at h
    · cases h
      exact ⟨id, Nat.le_refl _, Nat.le_refl _⟩
    · split at h
      next sym used hone =>
        split at h
        · cases h
        split at h
        · cases h
        · obtain ⟨hfits, hbits, hgrows⟩ := ih h
          have hused := decode_one_used hone
          simp only [List.length_append, List.length_singleton] at hfits hbits hgrows
          exact ⟨fun _ => hfits (by omega), by omega, by omega⟩
      next =>
        split at h
        · cases h
        · cases h
          exact ⟨id, Nat.le_refl _, Nat.le_refl _⟩

/-- Symbols that fit into a buffer are decoded into it as into any other. -/
theorem emit_symbols_fit (h : emit_symbols cap fuel r = .ok r') (hfit : r'.out.length ≤ cap') :
    emit_symbols cap' fuel r = .ok r' := by
  induction fuel generalizing r with
  | zero => exact h
  | succ fuel ih =>
    unfold emit_symbols at h ⊢
    split at h
    · rw [if_pos (by assumption)]
      exact h
    next hmany =>
      rw [if_neg hmany]
      split at h
      next sym used hone =>
        dsimp only
        split at h
        · cases h
        next hsym =>
          rw [if_neg hsym]
          split at h
          · cases h
          · have hgrows := (emit_symbols_emits h).grows
            simp only [List.length_append, List.length_singleton] at hgrows
            rw [if_neg (by omega)]
            exact ih h
      next => exact h

theorem read_emits (h : read cap src r = .ok r') :
    (r.out.length ≤ cap → r'.out.length ≤ cap) ∧
      r'.out.length + r'.acc_len ≤ r.out.length + r.acc_len + 8 * src.length ∧
      r.out.length ≤ r'.out.length := by
  induction src generalizing r with
  | nil =>
    cases h
    exact ⟨id, by simp, Nat.le_refl _⟩
  | cons byte rest ih =>
    obtain ⟨s, hs, h⟩ := except_bind_eq_ok h
    obtain ⟨hfits, hbits, hgrows⟩ := emit_symbols_emits hs
    obtain ⟨hfits', hbits', hgrows'⟩ := ih h
    dsimp only at hfits hbits hgrows
    rw [List.length_cons]
    exact ⟨fun hr => hfits' (hfits hr), by omega, by omega⟩

theorem read_fit (h : read cap src r = .ok r') (hfit : r'.out.length ≤ cap') :
    read cap' src r = .ok r' := by
  induction src generalizing r with
  | nil => exact h
  | cons byte rest ih =>
    obtain ⟨s, hs, h⟩ := except_bind_eq_ok h
    have hgrows := (read_emits h).2.2
    have hs' : emit_symbols cap' _ _ = .ok s := emit_symbols_fit hs (by omega)
    unfold read
    rw [hs', except_ok_bind]
    exact ih h

/-- What was read of a coded string. -/
theorem decode_reads (h : decode src cap = .ok out) :
    src = [] ∧ out = [] ∨
      src ≠ [] ∧ ∃ r, read cap src { acc := 0, acc_len := 0, out := [] } = .ok r ∧ r.out = out ∧
        ¬ r.acc_len > 7 ∧ ¬ (r.acc_len > 0 ∧ r.acc % 2 ^ r.acc_len ≠ 2 ^ r.acc_len - 1) := by
  unfold decode at h
  split at h
  · cases h
    exact .inl ⟨by assumption, rfl⟩
  · obtain ⟨r, hr, h⟩ := except_bind_eq_ok h
    split at h
    · cases h
    split at h
    · cases h
    · cases h
      exact .inr ⟨by assumption, r, hr, rfl, by assumption, by assumption⟩

/-- A decoded string fits into the buffer it was decoded into. -/
theorem decode_length (h : decode src cap = .ok out) : out.length ≤ cap := by
  rcases decode_reads h with ⟨-, rfl⟩ | ⟨-, r, hr, rfl, -, -⟩
  · exact Nat.zero_le _
  · exact (read_emits hr).1 (Nat.zero_le _)

/-- A coded string has no more symbols than bits. -/
theorem decode_bits (h : decode src cap = .ok out) : out.length ≤ 8 * src.length := by
  rcases decode_reads h with ⟨-, rfl⟩ | ⟨-, r, hr, rfl, -, -⟩
  · exact Nat.zero_le _
  · have hbits := (read_emits hr).2.1
    simp only [List.length_nil] at hbits
    omega

theorem decode_fit (h : decode src cap = .ok out) (hfit : out.length ≤ cap') :
    decode src cap' = .ok out := by
  rcases decode_reads h with ⟨rfl, rfl⟩ | ⟨hne, r, hr, rfl, hlen, hpad⟩
  · rfl
  · unfold decode
    rw [if_neg hne, read_fit hr hfit, except_ok_bind, if_neg hlen, if_neg hpad]

/-- The buffer only bounds the string. -/
theorem decode_eq_ok_iff :
    decode src cap = .ok out ↔ decode src (8 * src.length) = .ok out ∧ out.length ≤ cap :=
  ⟨fun h => ⟨decode_fit h (decode_bits h), decode_length h⟩, fun h => decode_fit h.1 h.2⟩

end huffman

/-! ## First bytes -/

theorem forall_byte {p : UInt8 → Prop} (h : ∀ n < 256, p (UInt8.ofNat n)) (b : UInt8) : p b := by
  have hb := h b.toNat b.toNat_lt
  rwa [UInt8.ofNat_toNat] at hb

/-- The flags of the representations are ranges of the first byte. -/
theorem first_byte (b : UInt8) :
    (b &&& 0b10000000 ≠ 0 ↔ 128 ≤ b.toNat) ∧
      (b &&& 0b11000000 = 0b01000000 ↔ 64 ≤ b.toNat ∧ b.toNat < 128) ∧
      (b &&& 0b11110000 = 0b00000000 ↔ b.toNat < 16) ∧
      (b &&& 0b11110000 = 0b00010000 ↔ 16 ≤ b.toNat ∧ b.toNat < 32) :=
  forall_byte (p := fun b => (b &&& 0b10000000 ≠ 0 ↔ 128 ≤ b.toNat) ∧
      (b &&& 0b11000000 = 0b01000000 ↔ 64 ≤ b.toNat ∧ b.toNat < 128) ∧
      (b &&& 0b11110000 = 0b00000000 ↔ b.toNat < 16) ∧
      (b &&& 0b11110000 = 0b00010000 ↔ 16 ≤ b.toNat ∧ b.toNat < 32)) (by decide +kernel) b

end milli_http.hpack
