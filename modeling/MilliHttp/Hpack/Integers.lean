-- The integers of HPACK and QPACK against the numbers their bytes stand for: the reader is exact
-- but for a tenth 7-bit group with more than one bit, whose high bits it loses.
import MilliHttp.Hpack.RoundTrip

open bytes

namespace milli_http.hpack.integers

/-! ## The number that bytes stand for -/

/-- Continuation bytes as 7-bit groups, the lowest first. -/
def group_sum : Bytes → Nat
  | [] => 0
  | b :: rest => b.toNat % 128 + 128 * group_sum rest

/-- The sum of the groups up to the first byte without a continuation bit, and how many there
are. -/
def groups : Bytes → Option (Nat × Nat)
  | [] => none
  | b :: rest =>
    if b.toNat < 128 then some (b.toNat, 1)
    else (groups rest).map fun (sum, count) => (b.toNat % 128 + 128 * sum, count + 1)

/-- The number at the front of a byte string and the bytes it takes, of any size; none where the
bytes end before it does. -/
def integer_of (prefix_bits : Nat) : Bytes → Option (Nat × Nat)
  | [] => none
  | first :: rest =>
    if first.toNat % 2 ^ prefix_bits < 2 ^ prefix_bits - 1 then
      some (first.toNat % 2 ^ prefix_bits, 1)
    else (groups rest).map fun (sum, count) => (2 ^ prefix_bits - 1 + sum, count + 1)

/-- What the reader returns is the number that stands there, or an error. -/
def DecodesExactly (prefix_bits : Nat) (buf : Bytes) : Prop :=
  ∀ r, decode_integer buf prefix_bits = .ok r → integer_of prefix_bits buf = some r

/-- What the writer wrote reads back as the value, and eleven bytes are room enough. -/
def ComesBack (prefix_bits value : Nat) (mask : UInt8) : Prop :=
  (∀ cap bs, encode_integer value prefix_bits mask cap = .ok bs →
      decode_integer bs prefix_bits = .ok (value, bs.length)) ∧
    ∀ cap ≥ 11, ∃ bs, encode_integer value prefix_bits mask cap = .ok bs

/-- The prefix is full, nine groups go on, and the tenth is the last one and has bits above its
lowest, while the sum without them still fits 64 bits. -/
def LosesBits (prefix_bits : Nat) (buf : Bytes) : Prop :=
  ∃ first nine last more, buf = first :: (nine ++ last :: more) ∧
    first.toNat % 2 ^ prefix_bits = 2 ^ prefix_bits - 1 ∧
    nine.length = 9 ∧ (∀ b ∈ nine, 128 ≤ b.toNat) ∧ 2 ≤ last.toNat ∧ last.toNat < 128 ∧
    2 ^ prefix_bits - 1 + group_sum nine + last.toNat % 2 * 2 ^ 63 < 2 ^ 64

theorem LosesBits.length_le {prefix_bits : Nat} {buf : Bytes} (h : LosesBits prefix_bits buf) :
    11 ≤ buf.length := by
  obtain ⟨first, nine, last, more, rfl, -, hnine, -⟩ := h
  simp only [List.length_cons, List.length_append]
  omega

/-! ## The loop of the reader -/

/-- The groups behind the first weigh 128 times as much. -/
theorem group_sum_cons (b : UInt8) (rest : Bytes) (shift : Nat) :
    group_sum (b :: rest) * 2 ^ shift =
      b.toNat % 128 * 2 ^ shift + group_sum rest * 2 ^ (shift + 7) := by
  have hpow : 2 ^ (shift + 7) = 128 * 2 ^ shift := by
    rw [Nat.pow_add]
    exact Nat.mul_comm _ _
  rw [group_sum, Nat.add_mul, hpow, Nat.mul_comm 128, Nat.mul_assoc]

theorem groups_append {full : Bytes} {last : UInt8} (hfull : ∀ b ∈ full, 128 ≤ b.toNat)
    (hlast : last.toNat < 128) (more : Bytes) :
    groups (full ++ last :: more) =
      some (group_sum full + last.toNat * 2 ^ (7 * full.length), full.length + 1) := by
  induction full with
  | nil =>
    rw [List.nil_append, groups, if_pos hlast]
    simp [group_sum]
  | cons b rest ih =>
    have hb := hfull b List.mem_cons_self
    have hpow : 2 ^ (7 * (b :: rest).length) = 128 * 2 ^ (7 * rest.length) := by
      rw [List.length_cons, Nat.mul_add, Nat.pow_add]
      exact Nat.mul_comm _ _
    rw [List.cons_append, groups, if_neg (by omega),
      ih fun c hc => hfull c (List.mem_cons_of_mem _ hc), hpow, group_sum, Option.map_some,
      List.length_cons, Nat.mul_left_comm last.toNat, Nat.add_assoc, ← Nat.mul_add]

/-- What a turn of the loop adds, while all of the group is below the top bit. -/
theorem addition_eq {b : UInt8} {shift : Nat} (h : shift + 7 ≤ 64) :
    (b &&& 0x7f).toNat <<< shift % 2 ^ 64 = b.toNat % 128 * 2 ^ shift := by
  have hgroup := Nat.mod_lt b.toNat (y := 2 ^ 7) (by decide)
  have hle : 2 ^ 7 * 2 ^ shift ≤ 2 ^ 64 := by
    rw [← Nat.pow_add]
    exact Nat.pow_le_pow_right (by decide) (by omega)
  have hlt := Nat.mul_lt_mul_of_pos_right hgroup (Nat.two_pow_pos shift)
  rw [(low_bits b).1, Nat.shiftLeft_eq]
  exact Nat.mod_eq_of_lt (Nat.lt_of_lt_of_le hlt hle)

/-- The loop takes groups that go on as they are, as long as the sum fits. -/
theorem decode_rest_run {full : Bytes} {shift value i : Nat}
    (hfull : ∀ b ∈ full, 128 ≤ b.toNat) (hshift : shift + 7 * full.length ≤ 63)
    (hfits : value + group_sum full * 2 ^ shift < 2 ^ 64) (rest : Bytes) :
    decode_rest (full ++ rest) shift value i =
      decode_rest rest (shift + 7 * full.length) (value + group_sum full * 2 ^ shift)
        (i + full.length) := by
  induction full generalizing shift value i with
  | nil => simp [group_sum]
  | cons b full ih =>
    have hb := hfull b List.mem_cons_self
    rw [List.length_cons] at hshift
    rw [group_sum_cons] at hfits ⊢
    rw [List.cons_append, decode_rest_cons, addition_eq (by omega), if_neg (by omega),
      if_neg (by rw [(low_bits b).2]; omega), if_neg (by omega),
      ih (fun c hc => hfull c (List.mem_cons_of_mem _ hc)) (by omega) (by omega),
      List.length_cons]
    congr 1 <;> omega

/-- The last byte of an integer: only what stays below the top bit of the word is added. -/
theorem decode_rest_last {last : UInt8} {shift value i : Nat} (hlast : last.toNat < 128)
    (hfits : value + last.toNat * 2 ^ shift % 2 ^ 64 < 2 ^ 64) (more : Bytes) :
    decode_rest (last :: more) shift value i =
      .ok (value + last.toNat * 2 ^ shift % 2 ^ 64, i + 1) := by
  rw [decode_rest_cons, (low_bits last).1, Nat.mod_eq_of_lt hlast, Nat.shiftLeft_eq,
    if_neg (by omega), if_pos ((low_bits last).2.mpr hlast)]

/-- Where the loop returns, it took at most nine groups that go on and a last one. -/
theorem decode_rest_took {rest : Bytes} {shift value i : Nat} {r : Nat × Nat}
    (hshift : shift ≤ 63) (h : decode_rest rest shift value i = .ok r) :
    ∃ full last more, rest = full ++ last :: more ∧ (∀ b ∈ full, 128 ≤ b.toNat) ∧
      last.toNat < 128 ∧ shift + 7 * full.length ≤ 63 ∧ r.1 < 2 ^ 64 ∧
      r = (value + group_sum full * 2 ^ shift + last.toNat * 2 ^ (shift + 7 * full.length) % 2 ^ 64,
        i + full.length + 1) := by
  induction rest generalizing shift value i with
  | nil => cases h
  | cons b rest ih =>
    rw [decode_rest_cons] at h
    split at h
    · cases h
    next hfits =>
    split at h
    · next hstop =>
      have hb := (low_bits b).2.mp hstop
      cases h
      rw [(low_bits b).1, Nat.mod_eq_of_lt hb, Nat.shiftLeft_eq] at hfits ⊢
      exact ⟨[], b, rest, rfl, by simp, hb, hshift, by omega, by simp [group_sum]⟩
    next hmore =>
    split at h
    · cases h
    next hroom =>
    have hb : 128 ≤ b.toNat := by
      rw [(low_bits b).2] at hmore
      omega
    obtain ⟨full, last, more, rfl, hfull, hlast, hlen, hlt, hr⟩ := ih (by omega) h
    refine ⟨b :: full, last, more, rfl, ?_, hlast, by rw [List.length_cons]; omega, hlt, ?_⟩
    · intro c hc
      rcases List.mem_cons.mp hc with rfl | hc
      · exact hb
      · exact hfull c hc
    · have hexp : shift + 7 * (full.length + 1) = shift + 7 + 7 * full.length := by omega
      rw [hr, addition_eq (by omega), group_sum_cons, List.length_cons, hexp]
      congr 1 <;> omega

/-! ## What the reader returns -/

/-- Behind a full prefix the number is what its groups add up to. -/
theorem integer_of_groups {first last : UInt8} {full more : Bytes} {prefix_bits : Nat}
    (hfirst : ¬ first.toNat % 2 ^ prefix_bits < 2 ^ prefix_bits - 1)
    (hfull : ∀ b ∈ full, 128 ≤ b.toNat) (hlast : last.toNat < 128) :
    integer_of prefix_bits (first :: (full ++ last :: more)) =
      some (2 ^ prefix_bits - 1 + (group_sum full + last.toNat * 2 ^ (7 * full.length)),
        full.length + 1 + 1) := by
  rw [integer_of, if_neg hfirst, groups_append hfull hlast]
  rfl

/-- A last group behind at most eight others loses nothing. -/
theorem last_group_fits {last count : Nat} (hlast : last < 128) (hcount : count ≤ 8) :
    last * 2 ^ (7 * count) % 2 ^ 64 = last * 2 ^ (7 * count) := by
  have hle : 2 ^ (7 * count) ≤ 2 ^ 56 := Nat.pow_le_pow_right (by decide) (by omega)
  have hmul := Nat.mul_le_mul (Nat.le_of_lt hlast) hle
  exact Nat.mod_eq_of_lt (Nat.lt_of_le_of_lt hmul (by decide))

/-- Behind nine others only its lowest bit stays. -/
theorem tenth_group (last : Nat) : last * 2 ^ 63 % 2 ^ 64 = last % 2 * 2 ^ 63 := by
  omega

theorem exact_of_no_lost_bits {prefix_bits : Nat} {buf : Bytes} (h : ¬ LosesBits prefix_bits buf) :
    DecodesExactly prefix_bits buf := by
  intro r hr
  match buf with
  | [] => cases hr
  | first :: rest =>
    rw [decode_integer_cons] at hr
    split at hr
    next hsmall =>
      cases hr
      rw [integer_of, if_pos hsmall]
    next hfirst =>
      obtain ⟨full, last, more, rfl, hfull, hlast, hlen, hlt, rfl⟩ :=
        decode_rest_took (Nat.zero_le _) hr
      rw [integer_of_groups hfirst hfull hlast]
      rw [Nat.zero_add, Nat.pow_zero, Nat.mul_one] at hlt ⊢
      suffices hexact : last.toNat * 2 ^ (7 * full.length) % 2 ^ 64 =
          last.toNat * 2 ^ (7 * full.length) by
        rw [hexact]
        congr 2 <;> omega
      rcases Nat.lt_or_ge full.length 9 with hfew | hnine
      · exact last_group_fits hlast (by omega)
      · have hlen9 : full.length = 9 := by omega
        have hone : last.toNat < 2 := by
          by_contra htwo
          have hmod := Nat.mod_lt first.toNat (Nat.two_pow_pos prefix_bits)
          refine h ⟨first, full, last, more, rfl, by omega, hlen9, hfull, by omega, hlast, ?_⟩
          rw [hlen9] at hlt
          rw [← tenth_group]
          exact hlt
        rw [hlen9]
        exact Nat.mod_eq_of_lt (by omega)

/-- A number of groups is made up of those that go on and a last one. -/
theorem groups_eq_some {rest : Bytes} {r : Nat × Nat} (h : groups rest = some r) :
    ∃ full last more, rest = full ++ last :: more ∧ (∀ b ∈ full, 128 ≤ b.toNat) ∧
      last.toNat < 128 ∧
      r = (group_sum full + last.toNat * 2 ^ (7 * full.length), full.length + 1) := by
  induction rest generalizing r with
  | nil => cases h
  | cons b rest ih =>
    rw [groups] at h
    split at h
    next hlast =>
      cases h
      exact ⟨[], b, rest, rfl, List.forall_mem_nil _, hlast, by simp [group_sum]⟩
    next hmore =>
      obtain ⟨r', hr', rfl⟩ := Option.map_eq_some_iff.mp h
      obtain ⟨full, last, more, rfl, hfull, hlast, rfl⟩ := ih hr'
      have hall : ∀ c ∈ b :: full, 128 ≤ c.toNat := List.forall_mem_cons.mpr ⟨by omega, hfull⟩
      have hgroups := groups_append hall hlast more
      rw [List.cons_append, groups, if_neg hmore, hr'] at hgroups
      exact ⟨b :: full, last, more, rfl, hall, hlast, Option.some.inj hgroups⟩

/-- A number takes at least its first byte. -/
theorem integer_of_takes {prefix_bits : Nat} {buf : Bytes} {r : Nat × Nat}
    (h : integer_of prefix_bits buf = some r) : 0 < r.2 ∧ 0 < buf.length := by
  cases buf with
  | nil => cases h
  | cons first rest =>
    rw [integer_of] at h
    split at h
    · cases h
      exact ⟨Nat.one_pos, Nat.succ_pos _⟩
    · obtain ⟨r', -, rfl⟩ := Option.map_eq_some_iff.mp h
      exact ⟨Nat.succ_pos _, Nat.succ_pos _⟩

/-- A number of 64 bits in at most eleven bytes is what the reader returns. -/
theorem decode_of_number {prefix_bits : Nat} {buf : Bytes} {r : Nat × Nat}
    (h : integer_of prefix_bits buf = some r) (hfits : r.1 < 2 ^ 64) (htaken : r.2 ≤ 11) :
    decode_integer buf prefix_bits = .ok r := by
  cases buf with
  | nil => cases h
  | cons first rest =>
    rw [decode_integer_cons]
    rw [integer_of] at h
    split at h
    next hsmall =>
      cases h
      rw [if_pos hsmall]
    next hfirst =>
      obtain ⟨r', hr', rfl⟩ := Option.map_eq_some_iff.mp h
      obtain ⟨full, last, more, rfl, hfull, hlast, rfl⟩ := groups_eq_some hr'
      dsimp only at hfits htaken ⊢
      have hexp : 0 + 7 * full.length = 7 * full.length := Nat.zero_add _
      rw [if_neg hfirst, decode_rest_run hfull (by omega) (by rw [Nat.pow_zero]; omega), hexp,
        decode_rest_last hlast, Nat.mod_eq_of_lt (by omega), Nat.pow_zero, Nat.mul_one]
      · congr 2 <;> omega
      · rw [Nat.mod_eq_of_lt (by omega), Nat.pow_zero, Nat.mul_one]
        omega

/-- What the reader returns is a number of 64 bits, read from at most eleven bytes. -/
theorem decode_within {prefix_bits : Nat} {buf : Bytes} {r : Nat × Nat} (hbits : prefix_bits ≤ 8)
    (h : decode_integer buf prefix_bits = .ok r) : r.1 < 2 ^ 64 ∧ r.2 ≤ 11 := by
  cases buf with
  | nil => cases h
  | cons first rest =>
    rw [decode_integer_cons] at h
    split at h
    next hsmall =>
      have hpow : 2 ^ prefix_bits ≤ 2 ^ 8 := Nat.pow_le_pow_right (by decide) hbits
      cases h
      dsimp only
      omega
    next =>
      obtain ⟨full, last, more, -, -, -, hlen, hlt, rfl⟩ := decode_rest_took (Nat.zero_le _) h
      exact ⟨hlt, by dsimp only; omega⟩

/-- Where no bits are lost the reader returns the numbers of 64 bits in at most eleven bytes, and
an error for the others. -/
theorem decode_integer_eq {prefix_bits : Nat} {buf : Bytes} (hbits : prefix_bits ≤ 8)
    (h : ¬ LosesBits prefix_bits buf) :
    (decode_integer buf prefix_bits).toOption =
      (integer_of prefix_bits buf).filter fun r => r.1 < 2 ^ 64 ∧ r.2 ≤ 11 := by
  rcases hread : decode_integer buf prefix_bits with e | r
  · refine (Option.filter_eq_none_iff.mpr fun r hr hlimits => ?_).symm
    have hlimits := of_decide_eq_true hlimits
    rw [decode_of_number hr hlimits.1 hlimits.2] at hread
    cases hread
  · rw [exact_of_no_lost_bits h r hread, Option.filter_some,
      if_pos (decide_eq_true (decode_within hbits hread))]
    rfl

theorem not_exact_of_lost_bits {prefix_bits : Nat} {buf : Bytes} (h : LosesBits prefix_bits buf) :
    ¬ DecodesExactly prefix_bits buf := by
  intro hexact
  obtain ⟨first, nine, last, more, rfl, hfirst, hlen, hfull, htwo, hlast, hfits⟩ := h
  have hback : decode_integer (first :: (nine ++ last :: more)) prefix_bits =
      .ok (2 ^ prefix_bits - 1 + group_sum nine + last.toNat % 2 * 2 ^ 63, 1 + 9 + 1) := by
    rw [decode_integer_cons, if_neg (by omega),
      decode_rest_run hfull (by omega) (by rw [Nat.pow_zero]; omega), hlen,
      decode_rest_last hlast (by rw [tenth_group, Nat.pow_zero]; omega), tenth_group,
      Nat.pow_zero, Nat.mul_one]
  have hnumber := hexact _ hback
  rw [integer_of_groups (by omega) hfull hlast, hlen] at hnumber
  have hvalue := congrArg Prod.fst (Option.some.inj hnumber)
  dsimp only at hvalue
  omega

/-! ## What the writer writes -/

theorem encode_rest_fits {fuel remaining i cap : Nat} (hfuel : 0 < fuel)
    (hlow : remaining < 128 ^ fuel) (hcap : i + fuel ≤ cap) :
    ∃ bs, encode_rest fuel remaining i cap = .ok bs := by
  induction fuel generalizing remaining i with
  | zero => omega
  | succ fuel ih =>
    rw [encode_rest, if_neg (by omega)]
    split
    next hmany =>
      have hfuel' : 0 < fuel := by
        rcases Nat.eq_zero_or_pos fuel with rfl | hpos
        · rw [Nat.zero_add, Nat.pow_one] at hlow
          omega
        · exact hpos
      have hlow' : remaining / 128 < 128 ^ fuel := by
        rw [Nat.pow_succ] at hlow
        exact Nat.div_lt_of_lt_mul (by rwa [Nat.mul_comm])
      obtain ⟨rest, hrest⟩ := ih hfuel' hlow' (i := i + 1) (by omega)
      rw [hrest]
      exact ⟨_, rfl⟩
    · exact ⟨_, rfl⟩

theorem comes_back {prefix_bits value : Nat} {mask : UInt8} (hbits : prefix_bits ≤ 8)
    (hmask : mask.toNat % 2 ^ prefix_bits = 0) (hvalue : value < 2 ^ 64) :
    ComesBack prefix_bits value mask := by
  constructor
  · intro cap bs h
    obtain ⟨_, _, _, _, hback⟩ := decode_encode_integer h hbits hmask hvalue
    have := hback []
    rwa [List.append_nil] at this
  · intro cap hcap
    rw [encode_integer, if_neg (by omega)]
    dsimp only
    split
    · exact ⟨_, rfl⟩
    · obtain ⟨rest, hrest⟩ :
          ∃ rest, encode_rest 10 (value - (2 ^ prefix_bits - 1)) 1 cap = .ok rest :=
        encode_rest_fits (by omega) (by omega) (by omega)
      rw [hrest]
      exact ⟨_, rfl⟩

/-- Every value comes back from what the writer wrote, and the reader is exact on a byte string if
and only if no bits of a tenth group are lost. -/
theorem integers_are_exact_until_the_tenth_group (prefix_bits : Nat)
    (hbits : 1 ≤ prefix_bits ∧ prefix_bits ≤ 8) :
    (∀ value < 2 ^ 64, ∀ mask : UInt8, mask.toNat % 2 ^ prefix_bits = 0 →
        ComesBack prefix_bits value mask) ∧
      ∀ buf, DecodesExactly prefix_bits buf ↔ ¬ LosesBits prefix_bits buf :=
  ⟨fun _ hvalue _ hmask => comes_back hbits.2 hmask hvalue,
    fun _ => ⟨fun h hlost => not_exact_of_lost_bits hlost h, exact_of_no_lost_bits⟩⟩

theorem prefix_of_five_is_exact_until_the_tenth_group :
    (1 ≤ 5 ∧ 5 ≤ 8) ∧
      (∀ value < 2 ^ 64, ∀ mask : UInt8, mask.toNat % 2 ^ 5 = 0 → ComesBack 5 value mask) ∧
      ∀ buf, DecodesExactly 5 buf ↔ ¬ LosesBits 5 buf :=
  ⟨by decide, integers_are_exact_until_the_tenth_group 5 (by decide)⟩

/-- 31 + 2 · 2^63 is read as 31. -/
theorem two_to_the_64th_is_lost :
    let buf : Bytes := [0x1f, 0x80, 0x80, 0x80, 0x80, 0x80, 0x80, 0x80, 0x80, 0x80, 0x02]
    decode_integer buf 5 = .ok (31, 11) ∧ integer_of 5 buf = some (31 + 2 ^ 64, 11) ∧
      ¬ DecodesExactly 5 buf := by
  have hread : decode_integer
      [0x1f, 0x80, 0x80, 0x80, 0x80, 0x80, 0x80, 0x80, 0x80, 0x80, 0x02] 5 = .ok (31, 11) := by
    decide
  have hnumber : integer_of 5
      [0x1f, 0x80, 0x80, 0x80, 0x80, 0x80, 0x80, 0x80, 0x80, 0x80, 0x02] =
        some (31 + 2 ^ 64, 11) := by
    decide
  refine ⟨hread, hnumber, fun hexact => ?_⟩
  have := hexact _ hread
  rw [hnumber] at this
  have hvalue := congrArg Prod.fst (Option.some.inj this)
  exact absurd hvalue (by decide)

end milli_http.hpack.integers
