-- Numbers as bits, the highest first, and codes none of whose words is the front of another: a
-- text of such words splits in one way only.
import MilliHttp.Lib.Bytes

open bytes

namespace prefix_code

/-! ## Bits -/

/-- The low `len` bits of a number, the highest first. -/
def bits : Nat → Nat → List Bool
  | 0, _ => []
  | len + 1, n => n.testBit len :: bits len n

/-- The bits of bytes, one byte after the other. -/
def byte_bits (bs : Bytes) : List Bool := bs.flatMap fun b => bits 8 b.toNat

@[simp] theorem bits_length (len n : Nat) : (bits len n).length = len := by
  induction len with
  | zero => rfl
  | succ len ih => rw [bits, List.length_cons, ih]

/-- The high bits and the low bits. -/
theorem bits_add (a b n : Nat) : bits (a + b) n = bits a (n / 2 ^ b) ++ bits b n := by
  induction a with
  | zero => rw [Nat.zero_add, bits, List.nil_append]
  | succ a ih =>
    rw [Nat.succ_add, bits, ih, bits, List.cons_append, Nat.testBit_div_two_pow]

/-- Bits above are not seen. -/
theorem bits_mod {len n m : Nat} (h : len ≤ m) : bits len (n % 2 ^ m) = bits len n := by
  induction len with
  | zero => rfl
  | succ len ih =>
    rw [bits, bits, ih (by omega), Nat.testBit_mod_two_pow, decide_eq_true (by omega),
      Bool.true_and]

theorem bits_append {a b x y : Nat} (hy : y < 2 ^ b) :
    bits (a + b) (x * 2 ^ b + y) = bits a x ++ bits b y := by
  have hhigh : (x * 2 ^ b + y) / 2 ^ b = x := by
    rw [Nat.mul_comm, Nat.mul_add_div (Nat.two_pow_pos b), Nat.div_eq_of_lt hy, Nat.add_zero]
  have hlow : (x * 2 ^ b + y) % 2 ^ b = y := by
    rw [Nat.mul_comm, Nat.mul_add_mod, Nat.mod_eq_of_lt hy]
  rw [bits_add, hhigh, ← bits_mod (Nat.le_refl b), hlow]

/-- Numbers below the range are told apart. -/
theorem bits_inj {len n m : Nat} (hn : n < 2 ^ len) (hm : m < 2 ^ len)
    (h : bits len n = bits len m) : n = m := by
  induction len generalizing n m with
  | zero =>
    rw [Nat.pow_zero] at hn hm
    omega
  | succ len ih =>
    rw [bits, bits] at h
    obtain ⟨htop, hrest⟩ := List.cons.inj h
    rw [← bits_mod (Nat.le_refl len), ← bits_mod (n := m) (Nat.le_refl len)] at hrest
    have hlow : n % 2 ^ len = m % 2 ^ len :=
      ih (Nat.mod_lt _ (Nat.two_pow_pos _)) (Nat.mod_lt _ (Nat.two_pow_pos _)) hrest
    have hhigh : n / 2 ^ len = m / 2 ^ len := by
      rw [Nat.pow_succ] at hn hm
      have hn' : n / 2 ^ len < 2 := Nat.div_lt_of_lt_mul hn
      have hm' : m / 2 ^ len < 2 := Nat.div_lt_of_lt_mul hm
      rw [Nat.testBit_eq_decide_div_mod_eq, Nat.testBit_eq_decide_div_mod_eq, decide_eq_decide,
        Nat.mod_eq_of_lt hn', Nat.mod_eq_of_lt hm'] at htop
      generalize n / 2 ^ len = x at hn' htop
      generalize m / 2 ^ len = y at hm' htop
      omega
    rw [← Nat.div_add_mod n (2 ^ len), hhigh, hlow, Nat.div_add_mod]

/-- All bits set. -/
theorem bits_ones (len : Nat) : bits len (2 ^ len - 1) = List.replicate len true := by
  suffices h : ∀ k m, k ≤ m → bits k (2 ^ m - 1) = List.replicate k true from
    h len len (Nat.le_refl _)
  intro k m hkm
  induction k with
  | zero => rfl
  | succ k ih =>
    rw [bits, ih (by omega), Nat.testBit_two_pow_sub_one, decide_eq_true (by omega),
      List.replicate_succ]

theorem bits_eq_ones {len n : Nat} (hn : n < 2 ^ len) :
    bits len n = List.replicate len true ↔ n = 2 ^ len - 1 := by
  have hpos := Nat.two_pow_pos len
  constructor
  · intro h
    rw [← bits_ones] at h
    exact bits_inj hn (by omega) h
  · rintro rfl
    exact bits_ones len

@[simp] theorem byte_bits_nil : byte_bits [] = [] := rfl

theorem byte_bits_cons (b : UInt8) (rest : Bytes) :
    byte_bits (b :: rest) = bits 8 b.toNat ++ byte_bits rest := List.flatMap_cons

theorem byte_bits_append (xs ys : Bytes) : byte_bits (xs ++ ys) = byte_bits xs ++ byte_bits ys :=
  List.flatMap_append

theorem byte_bits_concat (xs : Bytes) (b : UInt8) :
    byte_bits (xs ++ [b]) = byte_bits xs ++ bits 8 b.toNat := by
  rw [byte_bits_append, byte_bits_cons, byte_bits_nil, List.append_nil]

@[simp] theorem byte_bits_length (bs : Bytes) : (byte_bits bs).length = 8 * bs.length := by
  induction bs with
  | nil => rfl
  | cons b rest ih =>
    rw [byte_bits_cons, List.length_append, bits_length, ih, List.length_cons]
    omega

theorem byte_bits_inj {xs ys : Bytes} (h : byte_bits xs = byte_bits ys) : xs = ys := by
  induction xs generalizing ys with
  | nil =>
    have hlen := congrArg List.length h
    rw [byte_bits_length, byte_bits_length] at hlen
    exact (List.eq_nil_of_length_eq_zero (by simp only [List.length_nil] at hlen; omega)).symm
  | cons x xs ih =>
    cases ys with
    | nil =>
      have hlen := congrArg List.length h
      rw [byte_bits_length, byte_bits_length, List.length_cons, List.length_nil] at hlen
      omega
    | cons y ys =>
      rw [byte_bits_cons, byte_bits_cons] at h
      obtain ⟨hhead, htail⟩ := List.append_inj h (by rw [bits_length, bits_length])
      have hbyte : x.toNat = y.toNat := bits_inj x.toNat_lt y.toNat_lt hhead
      rw [UInt8.toNat_inj.mp hbyte, ih htail]

/-! ## Codes -/

variable {α : Type} {code : α → List Bool} {s s' : List α} {t t' : List Bool}

/-- No word is the front of another. -/
def PrefixFree (code : α → List Bool) : Prop := ∀ a b, code a <+: code b → a = b

/-- No word is at the front. -/
def Stuck (code : α → List Bool) (t : List Bool) : Prop := ∀ a, ¬ code a <+: t

/-- Words one after the other. -/
def spell (code : α → List Bool) (s : List α) : List Bool := s.flatMap code

@[simp] theorem spell_nil : spell code [] = [] := rfl

theorem spell_cons (a : α) (s : List α) : spell code (a :: s) = code a ++ spell code s :=
  List.flatMap_cons

theorem spell_append (s s' : List α) : spell code (s ++ s') = spell code s ++ spell code s' :=
  List.flatMap_append

/-- Two words at the front of one text are the same. -/
theorem PrefixFree.same (h : PrefixFree code) {a b : α} (ha : code a <+: t) (hb : code b <+: t) :
    a = b := by
  rcases List.prefix_or_prefix_of_prefix ha hb with hab | hba
  · exact h a b hab
  · exact (h b a hba).symm

/-- A text splits into words and a rest without one in one way only. -/
theorem PrefixFree.split_unique (h : PrefixFree code) (ht : Stuck code t) (ht' : Stuck code t')
    (heq : spell code s ++ t = spell code s' ++ t') : s = s' ∧ t = t' := by
  induction s generalizing s' with
  | nil =>
    cases s' with
    | nil => exact ⟨rfl, heq⟩
    | cons b s' =>
      refine absurd ?_ (ht b)
      rw [spell_nil, List.nil_append, spell_cons, List.append_assoc] at heq
      exact ⟨_, heq.symm⟩
  | cons a s ih =>
    cases s' with
    | nil =>
      refine absurd ?_ (ht' a)
      rw [spell_nil, List.nil_append, spell_cons, List.append_assoc] at heq
      exact ⟨_, heq⟩
    | cons b s' =>
      rw [spell_cons, spell_cons, List.append_assoc, List.append_assoc] at heq
      obtain rfl : a = b := h.same ⟨_, rfl⟩ ⟨_, heq.symm⟩
      obtain ⟨hs, hrest⟩ := ih (List.append_cancel_left heq)
      exact ⟨by rw [hs], hrest⟩

/-- The front of a text: the words that are whole in it, and the beginning of the next. -/
theorem PrefixFree.split_front (h : PrefixFree code) {p q e : List Bool} {n : Nat}
    (he : Stuck code e) (hshort : e.length < n) (hwords : ∀ a, (code a).length ≤ n)
    (heq : p ++ q = spell code s ++ e) :
    ∃ s₁ s₂ t, s = s₁ ++ s₂ ∧ p = spell code s₁ ++ t ∧ t ++ q = spell code s₂ ++ e ∧
      Stuck code t ∧ t.length < n := by
  induction s generalizing p with
  | nil =>
    rw [spell_nil, List.nil_append] at heq
    refine ⟨[], [], p, rfl, rfl, heq, fun a ha => he a ?_, ?_⟩
    · rw [← heq]
      exact ha.trans (List.prefix_append _ _)
    · have hlen := congrArg List.length heq
      rw [List.length_append] at hlen
      omega
  | cons a s ih =>
    have hword : code a <+: p ++ q := by
      rw [heq, spell_cons, List.append_assoc]
      exact List.prefix_append _ _
    rcases List.prefix_or_prefix_of_prefix hword (List.prefix_append p q) with hwhole | hpart
    · obtain ⟨rest, rfl⟩ := hwhole
      rw [spell_cons, List.append_assoc, List.append_assoc] at heq
      obtain ⟨s₁, s₂, t, rfl, rfl, hq, ht, hlen⟩ := ih (List.append_cancel_left heq)
      exact ⟨a :: s₁, s₂, t, rfl, by rw [spell_cons, List.append_assoc], hq, ht, hlen⟩
    · by_cases hsame : p = code a
      · subst hsame
        rw [spell_cons, List.append_assoc] at heq
        obtain ⟨s₁, s₂, t, rfl, hnil, hq, ht, hlen⟩ := ih (p := []) (by
          rw [List.nil_append]
          exact List.append_cancel_left heq)
        refine ⟨a :: s₁, s₂, t, rfl, ?_, hq, ht, hlen⟩
        rw [spell_cons, List.append_assoc, ← hnil, List.append_nil]
      · refine ⟨[], a :: s, p, rfl, rfl, heq, fun b hb => ?_, ?_⟩
        · obtain rfl : b = a := h.same (hb.trans (List.prefix_append p q)) hword
          exact hsame (hpart.eq_of_length (Nat.le_antisymm hpart.length_le hb.length_le))
        · have hlt : p.length < (code a).length :=
            Nat.lt_of_le_of_ne hpart.length_le fun hlen => hsame (hpart.eq_of_length hlen)
          exact Nat.lt_of_lt_of_le hlt (hwords a)

end prefix_code
