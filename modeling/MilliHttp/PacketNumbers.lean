-- Truncated packet numbers (RFC 9000 §17.1, A.2, A.3). A number is read back from its lowest bytes
-- if it lies in the window around the number expected next: less than half a window below it, and
-- at most half a window above.
import MilliHttp.PacketCodec
import MilliHttp.TimerArithmetic

open bytes

namespace milli_http.packet.number

open transport codec connection.timer_arithmetic

/-- `decode_pn`, with every sum it may need checked for overflow. -/
def checked_decode_pn (truncated_pn pn_len largest_pn : Nat) : Option Nat := do
  let pn_win := 2 ^ (pn_len * 8)
  let pn_hwin := pn_win / 2
  let expected_pn ← checked_add largest_pn 1
  let candidate_pn := expected_pn / pn_win * pn_win ||| truncated_pn
  let reach ← checked_add candidate_pn pn_hwin
  let next ← checked_add candidate_pn pn_win
  let bound ← checked_add expected_pn pn_hwin
  if reach ≤ expected_pn ∧ next ≤ 2 ^ 62 then some next
  else if candidate_pn > bound ∧ candidate_pn ≥ pn_win then some (candidate_pn - pn_win)
  else some candidate_pn

/-- Half of the numbers that `pn_len` bytes can tell apart. -/
def half_window (pn_len : Nat) : Nat := 2 ^ (pn_len * 8) / 2

/-- The candidate: the expected number with its lowest bytes replaced. -/
theorem candidate_eq (pn expected_pn nbits : Nat) :
    expected_pn / 2 ^ nbits * 2 ^ nbits ||| pn % 2 ^ nbits =
      expected_pn / 2 ^ nbits * 2 ^ nbits + pn % 2 ^ nbits := by
  have hlow : pn % 2 ^ nbits < 2 ^ nbits := Nat.mod_lt _ (Nat.two_pow_pos nbits)
  rw [Nat.mul_comm]
  exact (Nat.two_pow_add_eq_or_of_lt hlow _).symm

/-- A number in the window is the candidate, or lies one window above or below it. -/
theorem window_cases {pn expected_pn pn_win pn_hwin : Nat} (hwin : pn_win = 2 * pn_hwin)
    (hpos : 0 < pn_hwin) (hlow : expected_pn < pn + pn_hwin) (hhigh : pn ≤ expected_pn + pn_hwin) :
    let candidate_pn := expected_pn / pn_win * pn_win + pn % pn_win
    pn = candidate_pn ∨ pn = candidate_pn + pn_win ∨ pn + pn_win = candidate_pn := by
  have hpn := Nat.div_add_mod' pn pn_win
  have hexpected := Nat.div_add_mod' expected_pn pn_win
  have hpn_mod := Nat.mod_lt pn (y := pn_win) (by omega)
  have hexpected_mod := Nat.mod_lt expected_pn (y := pn_win) (by omega)
  generalize pn / pn_win = p at *
  generalize expected_pn / pn_win = q at *
  have habove : p < q + 2 := by
    refine Nat.lt_of_mul_lt_mul_right (a := pn_win) ?_
    rw [Nat.add_mul]
    omega
  have hbelow : q < p + 2 := by
    refine Nat.lt_of_mul_lt_mul_right (a := pn_win) ?_
    rw [Nat.add_mul]
    omega
  obtain rfl | rfl | rfl : p = q ∨ p = q + 1 ∨ q = p + 1 := by omega
  · exact .inl hpn.symm
  · rw [Nat.add_mul, Nat.one_mul] at hpn
    exact .inr (.inl (by omega))
  · refine .inr (.inr ?_)
    rw [Nat.add_mul, Nat.one_mul]
    omega

/-- No sum leaves 64 bits, so the checks change nothing. -/
theorem checked_decode_pn_eq {truncated_pn pn_len largest_pn : Nat} (hlen : pn_len ≤ 4)
    (htruncated : truncated_pn < 2 ^ 63) (hlargest : largest_pn + 1 < 2 ^ 63) :
    checked_decode_pn truncated_pn pn_len largest_pn =
      some (decode_pn truncated_pn pn_len largest_pn) := by
  have hwin : 2 ^ (pn_len * 8) ≤ 2 ^ 32 := Nat.pow_le_pow_right (by omega) (by omega)
  have hfloor := Nat.div_mul_le_self (largest_pn + 1) (2 ^ (pn_len * 8))
  have hcandidate := Nat.or_lt_two_pow (Nat.lt_of_le_of_lt hfloor hlargest) htruncated
  have hexpected : checked_add largest_pn 1 = some (largest_pn + 1) :=
    checked_add_eq (by unfold U64_MAX; omega)
  unfold checked_decode_pn decode_pn
  dsimp only
  rw [hexpected, Option.bind_eq_bind, Option.bind_some]
  generalize 2 ^ (pn_len * 8) = pn_win at *
  generalize (largest_pn + 1) / pn_win * pn_win ||| truncated_pn = candidate_pn at *
  simp (disch := unfold U64_MAX; omega) only [checked_add_eq, Option.bind_some]
  split
  · rfl
  · split <;> rfl

/-- The lowest bytes of a number in the window give the number. -/
theorem decode_in_window {pn pn_len largest_pn : Nat} (hpn : pn < 2 ^ 62) (hlen : 1 ≤ pn_len)
    (hlow : largest_pn + 1 < pn + half_window pn_len)
    (hhigh : pn ≤ largest_pn + 1 + half_window pn_len) :
    decode_pn (pn % 2 ^ (pn_len * 8)) pn_len largest_pn = pn := by
  unfold half_window at hlow hhigh
  have hpos : 0 < 2 ^ (pn_len * 8) := Nat.two_pow_pos _
  have hwin : 2 ^ (pn_len * 8) = 2 * (2 ^ (pn_len * 8) / 2) := by
    have hdvd : 2 ∣ 2 ^ (pn_len * 8) := dvd_pow_self 2 (by omega)
    omega
  have hcases := window_cases hwin (by omega) hlow hhigh
  unfold decode_pn
  dsimp only at hcases ⊢
  rw [candidate_eq]
  generalize 2 ^ (pn_len * 8) / 2 = pn_hwin at *
  generalize 2 ^ (pn_len * 8) = pn_win at *
  generalize (largest_pn + 1) / pn_win * pn_win + pn % pn_win = candidate_pn at *
  rcases hcases with rfl | rfl | rfl
  · rw [if_neg (by omega), if_neg (by omega)]
  · rw [if_pos ⟨by omega, by omega⟩]
  · rw [if_neg (by omega), if_pos ⟨by omega, by omega⟩, Nat.add_sub_cancel]

/-! ## Round trips -/

/-- A number is encoded into as many bytes as its distance from the reference asks for, and read
back from them by a receiver in whose window it lies, without overflow. -/
theorem packet_numbers_round_trip {pn reference largest_pn cap : Nat} (hpn : pn < 2 ^ 62)
    (hcap : pn_length pn reference ≤ cap)
    (hlow : largest_pn + 1 < pn + half_window (pn_length pn reference))
    (hhigh : pn ≤ largest_pn + 1 + half_window (pn_length pn reference)) :
    ∃ pn_bytes, encode_pn pn reference cap = .ok pn_bytes ∧
      pn_bytes.length = pn_length pn reference ∧
      decode_pn (beNat pn_bytes) (pn_length pn reference) largest_pn = pn ∧
      checked_decode_pn (beNat pn_bytes) (pn_length pn reference) largest_pn = some pn := by
  obtain ⟨hpos, hle⟩ := pn_length_bounds pn reference
  have hbytes : beNat (toBe (pn_length pn reference) pn) =
      pn % 2 ^ (pn_length pn reference * 8) := by
    rw [beNat_toBe, Nat.mul_comm, Nat.pow_mul]
  have hdecoded := decode_in_window hpn hpos hlow hhigh
  have hhalf : half_window (pn_length pn reference) ≤ 2 ^ 31 := by
    have hwin : 2 ^ (pn_length pn reference * 8) ≤ 2 ^ 32 :=
      Nat.pow_le_pow_right (by omega) (by omega)
    unfold half_window
    omega
  refine ⟨toBe (pn_length pn reference) pn, ?_, toBe_length _ _, ?_, ?_⟩
  · exact if_neg (Nat.not_lt.mpr hcap)
  · rw [hbytes, hdecoded]
  · have hmod := Nat.mod_le pn (2 ^ (pn_length pn reference * 8))
    rw [hbytes, checked_decode_pn_eq hle (by omega) (by omega), hdecoded]

/-- The last packet number, for a receiver that has seen the one before it. -/
theorem last_packet_number_round_trips :
    ∃ pn_bytes, encode_pn (2 ^ 62 - 1) (2 ^ 62 - 2) 1 = .ok pn_bytes ∧ pn_bytes.length = 1 ∧
      decode_pn (beNat pn_bytes) 1 (2 ^ 62 - 2) = 2 ^ 62 - 1 ∧
      checked_decode_pn (beNat pn_bytes) 1 (2 ^ 62 - 2) = some (2 ^ 62 - 1) := by
  have hlen : pn_length (2 ^ 62 - 1) (2 ^ 62 - 2) = 1 := by decide
  have hhalf : half_window 1 = 128 := by decide
  have h := @packet_numbers_round_trip (2 ^ 62 - 1) (2 ^ 62 - 2) (2 ^ 62 - 2) 1 (by omega)
    (by omega) (by rw [hlen]; omega) (by rw [hlen]; omega)
  rwa [hlen] at h

/-- Half a window below the number expected next, the number is read as the one half a window
above. -/
theorem lower_edge_is_read_as_the_upper :
    73 < 200 ∧ 200 + 1 = 73 + half_window (pn_length 73 200) ∧ encode_pn 73 200 1 = .ok [73] ∧
      decode_pn (beNat [73]) (pn_length 73 200) 200 = 329 := by decide

end milli_http.packet.number
