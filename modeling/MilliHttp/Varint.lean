-- QUIC variable-length integers (RFC 9000 §16), as varint.rs reads and writes them.
import MilliHttp.Lib.Bytes
import MilliHttp.Error

open bytes

namespace milli_http.varint

/-- The largest value a QUIC varint can hold. -/
def MAX_VARINT : Nat := 2 ^ 62 - 1

/-- How many bytes are needed to encode `value`. -/
def varint_len (value : Nat) : Nat :=
  if value ≤ 63 then 1
  else if value ≤ 16383 then 2
  else if value ≤ 1073741823 then 4
  else 8

/-- Decodes a varint from the front of `buf`: its value and the bytes it took. -/
def decode_varint (buf : Bytes) : Except Error (Nat × Nat) :=
  match buf with
  | [] => .error (.BufferTooSmall 1)
  | first :: rest =>
    let len := 2 ^ (first >>> 6).toNat
    if buf.length < len then .error (.BufferTooSmall len)
    else .ok (beNat ((first &&& 0x3f) :: rest.take (len - 1)), len)

/-- The two bits that say how long a varint is. -/
def length_bits (len : Nat) : UInt8 :=
  match len with
  | 1 => 0x00
  | 2 => 0x40
  | 4 => 0x80
  | _ => 0xc0

/-- The wire form of a value that fits. -/
def varint_bytes (value : Nat) : Bytes :=
  match toBe (varint_len value) value with
  | [] => []
  | first :: rest => (first ||| length_bits (varint_len value)) :: rest

/-- Encodes a varint into a buffer that has `cap` bytes left. -/
def encode_varint (value cap : Nat) : Except Error Bytes :=
  if value > MAX_VARINT then .error (.Transport .InternalError)
  else if cap < varint_len value then .error (.BufferTooSmall (varint_len value))
  else .ok (varint_bytes value)

/-! ## Lengths -/

theorem varint_len_pos (value : Nat) : 0 < varint_len value := by
  unfold varint_len
  split <;> [skip; split <;> [skip; split]] <;> omega

theorem varint_len_le (value : Nat) : varint_len value ≤ 8 := by
  unfold varint_len
  split <;> [skip; split <;> [skip; split]] <;> omega

@[simp] theorem varint_bytes_length (value : Nat) :
    (varint_bytes value).length = varint_len value := by
  have hlen : (toBe (varint_len value) value).length = varint_len value := toBe_length _ _
  unfold varint_bytes
  split
  · rename_i hnil
    rw [hnil] at hlen
    exact hlen
  · rename_i first rest hcons
    rw [hcons] at hlen
    simpa using hlen

theorem decode_varint_consumed {buf : Bytes} {value len : Nat}
    (h : decode_varint buf = .ok (value, len)) : 0 < len ∧ len ≤ buf.length := by
  unfold decode_varint at h
  split at h
  · cases h
  · dsimp only at h
    split at h
    · cases h
    · rename_i hlen
      cases h
      exact ⟨Nat.two_pow_pos _, by omega⟩

theorem beNat_lt_pow (buf : Bytes) : beNat buf < 256 ^ buf.length := by
  induction buf with
  | nil => exact Nat.one_pos
  | cons b rest ih =>
    have hb := b.toNat_lt
    rw [beNat_cons, List.length_cons, Nat.pow_succ]
    have hmul : b.toNat * 256 ^ rest.length ≤ 255 * 256 ^ rest.length :=
      Nat.mul_le_mul_right _ (by omega)
    omega

/-- A varint has 62 bits. -/
theorem decode_varint_le {buf : Bytes} {value len : Nat}
    (h : decode_varint buf = .ok (value, len)) : value ≤ MAX_VARINT := by
  unfold decode_varint at h
  split at h
  · cases h
  rename_i first rest
  dsimp only at h
  split at h
  · cases h
  cases h
  have hbits : (first >>> 6).toNat ≤ 3 := by
    have hfirst := first.toNat_lt
    have hshift : (6 : UInt8).toNat % 8 = 6 := rfl
    rw [UInt8.toNat_shiftRight, hshift, Nat.shiftRight_eq_div_pow]
    omega
  have hhigh : (first &&& 0x3f).toNat ≤ 63 := by
    rw [UInt8.toNat_and]
    exact Nat.and_le_right
  have hlen : (rest.take (2 ^ (first >>> 6).toNat - 1)).length ≤ 7 := by
    have hpow : 2 ^ (first >>> 6).toNat ≤ 2 ^ 3 := Nat.pow_le_pow_right (by omega) hbits
    rw [List.length_take]
    omega
  have hlow := beNat_lt_pow (rest.take (2 ^ (first >>> 6).toNat - 1))
  generalize rest.take (2 ^ (first >>> 6).toNat - 1) = tail at hlen hlow
  have hpow : 256 ^ tail.length ≤ 256 ^ 7 := Nat.pow_le_pow_right (by omega) hlen
  have hmul : (first &&& 0x3f).toNat * 256 ^ tail.length ≤ 63 * 256 ^ tail.length :=
    Nat.mul_le_mul_right _ hhigh
  rw [beNat_cons]
  unfold MAX_VARINT
  omega

/-- A varint that is whole in a buffer is the same in a longer one. -/
theorem decode_varint_append {a : Bytes} {r : Nat × Nat} (h : decode_varint a = .ok r) (b : Bytes) :
    decode_varint (a ++ b) = .ok r := by
  cases a with
  | nil => cases h
  | cons first rest =>
    unfold decode_varint at h ⊢
    dsimp only [List.cons_append] at h ⊢
    split at h
    · cases h
    · rename_i hlen
      cases h
      simp only [List.length_cons, List.length_append, Nat.not_lt] at hlen ⊢
      rw [if_neg (by omega), List.take_append_of_le_length (by omega)]

/-! ## Reading back -/

/-- A first byte keeps its six low bits beside the two that say how long the varint is. -/
theorem first_byte_read {len : Nat} (hlen : len = 1 ∨ len = 2 ∨ len = 4 ∨ len = 8) {n : Nat}
    (hn : n < 64) :
    2 ^ ((UInt8.ofNat n ||| length_bits len) >>> 6).toNat = len ∧
      (UInt8.ofNat n ||| length_bits len) &&& 0x3f = UInt8.ofNat n := by
  have hall : ∀ n : Fin 64,
      (2 ^ ((UInt8.ofNat n ||| 0x00) >>> 6).toNat = 1 ∧ (UInt8.ofNat n ||| 0x00) &&& 0x3f = UInt8.ofNat n) ∧
      (2 ^ ((UInt8.ofNat n ||| 0x40) >>> 6).toNat = 2 ∧ (UInt8.ofNat n ||| 0x40) &&& 0x3f = UInt8.ofNat n) ∧
      (2 ^ ((UInt8.ofNat n ||| 0x80) >>> 6).toNat = 4 ∧ (UInt8.ofNat n ||| 0x80) &&& 0x3f = UInt8.ofNat n) ∧
      (2 ^ ((UInt8.ofNat n ||| 0xc0) >>> 6).toNat = 8 ∧ (UInt8.ofNat n ||| 0xc0) &&& 0x3f = UInt8.ofNat n) := by
    decide
  obtain ⟨h1, h2, h4, h8⟩ := hall ⟨n, hn⟩
  rcases hlen with rfl | rfl | rfl | rfl
  · exact h1
  · exact h2
  · exact h4
  · exact h8

theorem varint_len_cases (value : Nat) (h : value ≤ MAX_VARINT) :
    (varint_len value = 1 ∨ varint_len value = 2 ∨ varint_len value = 4 ∨ varint_len value = 8) ∧
      value / 256 ^ (varint_len value - 1) < 64 := by
  unfold varint_len MAX_VARINT at *
  split
  · simp; omega
  · split
    · simp; omega
    · split
      · simp; omega
      · simp; omega

/-- A varint reads back, whatever follows it. -/
theorem decode_varint_bytes {value : Nat} (h : value ≤ MAX_VARINT) (rest : Bytes) :
    decode_varint (varint_bytes value ++ rest) = .ok (value, varint_len value) := by
  obtain ⟨hlen, hfirst⟩ := varint_len_cases value h
  obtain ⟨k, hk⟩ : ∃ k, varint_len value = k + 1 :=
    ⟨varint_len value - 1, by have := varint_len_pos value; omega⟩
  rw [hk, Nat.add_sub_cancel] at hfirst
  have hbytes : varint_bytes value =
      (UInt8.ofNat (value / 256 ^ k) ||| length_bits (k + 1)) :: toBe k value := by
    simp only [varint_bytes, hk, toBe]
  obtain ⟨hpow, hand⟩ := first_byte_read (hk ▸ hlen) hfirst
  have htail : (toBe k value ++ rest).take k = toBe k value := by simp
  rw [hbytes, List.cons_append, decode_varint, hpow, hand, hk, if_neg (by simp), Nat.add_sub_cancel, htail]
  have hbe : beNat (UInt8.ofNat (value / 256 ^ k) :: toBe k value) = value := by
    rw [beNat_cons, beNat_toBe, toBe_length, UInt8.toNat_ofNat', Nat.mod_eq_of_lt (by omega)]
    exact Nat.div_add_mod' value (256 ^ k)
  rw [hbe]

end milli_http.varint
