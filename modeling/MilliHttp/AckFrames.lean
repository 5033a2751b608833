-- ACK frames (connection/transmit.rs, frame/mod.rs and transport/recovery.rs): what the
-- peer's `on_ack_received` reads out of the frame a tracker's ranges were written into. The
-- buffer of the ranges can end between the two numbers of a pair, and then no frame is
-- written at all.
import MilliHttp.Lib.Ranges
import MilliHttp.Connection.Transmit

open bytes method ranges
open method.Method (bind_ok bind_eq_ok)

namespace milli_http.connection.ack_frames

open crypto varint frame transport RecvPnTracker

/-! ## The tracker's ranges -/

variable {l : List (Nat × Nat)}

theorem last_index_some {p : Nat × Nat → Bool} {i j : Nat}
    (h : last_index p i l = some j) : i ≤ j ∧ ∃ r, l[j - i]? = some r ∧ p r = true := by
  induction l generalizing i with
  | nil => cases h
  | cons r l ih =>
    unfold last_index at h
    cases hrest : last_index p (i + 1) l with
    | some k =>
      rw [hrest] at h
      cases h
      obtain ⟨hk, a, ha, hp⟩ := ih hrest
      refine ⟨by omega, a, ?_, hp⟩
      rw [show j - i = (j - (i + 1)) + 1 by omega, List.getElem?_cons_succ]
      exact ha
    | none =>
      simp only [hrest] at h
      split at h
      · cases h
        exact ⟨Nat.le_refl _, r, by simp, ‹_›⟩
      · cases h

theorem last_index_none {p : Nat × Nat → Bool} {i : Nat}
    (h : last_index p i l = none) : ∀ r ∈ l, p r = false := by
  induction l generalizing i with
  | nil => nofun
  | cons r l ih =>
    unfold last_index at h
    cases hrest : last_index p (i + 1) l with
    | some k =>
      rw [hrest] at h
      cases h
    | none =>
      simp only [hrest] at h
      split at h
      · cases h
      · rename_i hp
        intro a ha
        rcases List.mem_cons.mp ha with rfl | ha
        · simpa using hp
        · exact ih hrest a ha

theorem insert_range_cons (a : Nat × Nat) (l : List (Nat × Nat)) (start end_ : Nat) :
    insert_range (a :: l) start end_ =
      if a.1 > start then (start, end_) :: a :: l
      else a :: insert_range l start end_ := by
  unfold insert_range
  by_cases h : a.1 > start
  · simp [List.findIdx?_cons, h]
  · simp only [List.findIdx?_cons, h, decide_false, Bool.false_eq_true, if_false]
    generalize l.findIdx? _ = idx
    cases idx <;> simp

theorem mem_insert_range {start end_ : Nat} {r : Nat × Nat} :
    r ∈ insert_range l start end_ ↔ r = (start, end_) ∨ r ∈ l := by
  induction l with
  | nil => simp [insert_range]
  | cons a l ih =>
    rw [insert_range_cons]
    split
    · simp
    · simp only [List.mem_cons, ih]
      tauto

/-- A range that touches none of the others goes in between them. -/
theorem separated_insert_range {start end_ : Nat} (h : Separated l)
    (hr : start ≤ end_) (hap : ∀ a ∈ l, Before a (start, end_) ∨ Before (start, end_) a) :
    Separated (insert_range l start end_) := by
  induction l with
  | nil => exact separated_cons.mpr ⟨hr, nofun, separated_nil⟩
  | cons a l ih =>
    obtain ⟨ha, hbefore, hrest⟩ := separated_cons.mp h
    rw [insert_range_cons]
    have haside := hap a List.mem_cons_self
    split
    · rename_i hlt
      refine separated_cons.mpr ⟨hr, fun b hb => ?_, h⟩
      have hra : Before (start, end_) a := by
        refine haside.resolve_left fun hcontra => ?_
        simp only [Before] at hcontra
        omega
      rcases List.mem_cons.mp hb with rfl | hb
      · exact hra
      · have := hbefore b hb
        simp only [Before] at *
        omega
    · rename_i hle
      refine separated_cons.mpr ⟨ha, fun b hb => ?_, ih hrest fun b hb => hap b (by simp [hb])⟩
      rcases mem_insert_range.mp hb with rfl | hb
      · refine haside.resolve_right fun hcontra => ?_
        simp only [Before] at hcontra
        omega
      · exact hbefore b hb

/-- What a tracker's ranges always are. -/
structure Tidy (t : RecvPnTracker) : Prop where
  separated : Separated t.ranges
  room : t.ranges.length ≤ RecvPnTracker.MAX_RANGES

theorem insert_range_length (l : List (Nat × Nat)) (start end_ : Nat) :
    (insert_range l start end_).length = l.length + 1 := by
  induction l with
  | nil => rfl
  | cons a l ih =>
    rw [insert_range_cons]
    split <;> simp [ih]

theorem not_contains_ranges {t : RecvPnTracker} {pn : Nat} (h : t.contains pn = false) :
    ∀ r ∈ t.ranges, pn < r.1 ∨ r.2 < pn := by
  intro r hr
  simp only [contains, Bool.or_eq_false_iff, List.any_eq_false] at h
  have := h.2 r hr
  simp only [Bool.and_eq_true, decide_eq_true_eq, not_and_or] at this
  omega

/-- A new packet number goes beside the ranges it touches none of. -/
theorem tidy_record_new {t : RecvPnTracker} {pn : Nat} (h : Tidy t)
    (hap : ∀ a ∈ t.ranges, Before a (pn, pn) ∨ Before (pn, pn) a) : Tidy (t.record_new pn) := by
  obtain ⟨hsep, hroom⟩ := h
  unfold record_new
  split
  · rename_i dropped rest hranges
    rw [hranges] at hsep hroom hap
    split
    · refine ⟨separated_insert_range (separated_cons.mp hsep).2.2 (Nat.le_refl pn)
        fun a ha => hap a (List.mem_cons_of_mem _ ha), ?_⟩
      rw [insert_range_length]
      exact hroom
    · rename_i hlt
      rw [hranges] at hlt ⊢
      refine ⟨separated_insert_range hsep (Nat.le_refl pn) hap, ?_⟩
      rw [insert_range_length]
      omega
  · refine ⟨separated_insert_range separated_nil (Nat.le_refl pn) nofun, ?_⟩
    rw [insert_range_length]
    decide

/-- A packet number that joins two ranges leaves one in their place. -/
theorem separated_join {pn i j : Nat} {a b : Nat × Nat} (h : Separated l)
    (ha : l[i]? = some a) (hb : l[j]? = some b) (hpa : pn = a.2 + 1) (hpb : pn + 1 = b.1) :
    Separated (insert_range ((l.eraseIdx (max i j)).eraseIdx (min i j)) a.1 b.2) := by
  have hordered := h.ordered
  have hao := hordered a (List.mem_of_getElem? ha)
  have hbo := hordered b (List.mem_of_getElem? hb)
  obtain ⟨hi, rfl⟩ := List.getElem?_eq_some_iff.mp ha
  obtain ⟨hj, rfl⟩ := List.getElem?_eq_some_iff.mp hb
  have hij : i ≠ j := by
    rintro rfl
    omega
  refine separated_insert_range
    (h.sublist ((List.eraseIdx_sublist _ _).trans (List.eraseIdx_sublist _ _))) (by omega) ?_
  intro r hr
  -- The range kept is neither of the two.
  obtain ⟨k, hk, hkr⟩ : ∃ k, (k ≠ i ∧ k ≠ j) ∧ l[k]? = some r := by
    obtain ⟨k', hk', hget⟩ := List.mem_eraseIdx_iff_getElem?.mp hr
    rw [List.getElem?_eraseIdx] at hget
    split at hget
    · exact ⟨k', by omega, hget⟩
    · exact ⟨k' + 1, by omega, hget⟩
  obtain ⟨hkl, rfl⟩ := List.getElem?_eq_some_iff.mp hkr
  have hko := hordered l[k] (List.getElem_mem hkl)
  have hai := h.trichotomy hkl hi hk.1
  have hbj := h.trichotomy hkl hj hk.2
  simp only [Before] at *
  omega

/-- Recording a packet number keeps the ranges apart, and at most 32. -/
theorem tidy_record {t : RecvPnTracker} (h : Tidy t) (pn : Nat) : Tidy (t.record pn) := by
  unfold record
  split
  · exact h
  · rename_i hnew
    have hout := not_contains_ranges (show t.contains pn = false by simpa using hnew)
    have hord := h.separated.ordered
    split
    · rename_i i j hi hj
      obtain ⟨-, a, ha, hpa⟩ := last_index_some hi
      obtain ⟨-, b, hb, hpb⟩ := last_index_some hj
      simp only [Nat.sub_zero, beq_iff_eq] at ha hb hpa hpb
      refine ⟨?_, ?_⟩
      · simpa [List.getD_eq_getElem?_getD, ha, hb] using separated_join h.separated ha hb hpa hpb
      · have hil := (List.getElem?_eq_some_iff.mp ha).1
        have hjl := (List.getElem?_eq_some_iff.mp hb).1
        have hne : i ≠ j := by
          rintro rfl
          rw [ha] at hb
          cases hb
          have := hord a (List.mem_of_getElem? ha)
          omega
        have hroom := h.room
        simp only [insert_range_length, List.length_eraseIdx]
        split <;> split <;> omega
    · rename_i i hi hj
      obtain ⟨-, a, ha, hpa⟩ := last_index_some hi
      have hright := last_index_none hj
      simp only [Nat.sub_zero, beq_iff_eq, beq_eq_false_iff_ne] at ha hpa hright
      refine ⟨h.separated.modify ?_ ?_ ?_, by simpa using h.room⟩
      · intro r hr
        rw [ha] at hr
        cases hr
        have := hord a (List.mem_of_getElem? ha)
        dsimp only
        omega
      · exact fun r b _ _ hb => hb
      · intro r b hr hb hrb
        rw [ha] at hr
        cases hr
        have := hright b hb
        simp only [Before] at *
        omega
    · rename_i j hi hj
      obtain ⟨-, b, hb, hpb⟩ := last_index_some hj
      have hleft := last_index_none hi
      simp only [Nat.sub_zero, beq_iff_eq, beq_eq_false_iff_ne] at hb hpb hleft
      refine ⟨h.separated.modify ?_ ?_ ?_, by simpa using h.room⟩
      · intro r hr
        rw [hb] at hr
        cases hr
        have := hord b (List.mem_of_getElem? hb)
        dsimp only
        omega
      · intro r a hr ha har
        rw [hb] at hr
        cases hr
        have := hleft a ha
        simp only [Before] at *
        omega
      · exact fun r a _ _ ha => ha
    · rename_i hi hj
      have hleft := last_index_none hi
      have hright := last_index_none hj
      simp only [beq_eq_false_iff_ne] at hleft hright
      refine tidy_record_new h fun a ha => ?_
      have := hout a ha
      have := hleft a ha
      have := hright a ha
      simp only [Before]
      omega

/-- The tracker after a sequence of received packet numbers. -/
def recorded (pns : List Nat) : RecvPnTracker := pns.foldl RecvPnTracker.record .new

theorem tidy_recorded (pns : List Nat) : Tidy (recorded pns) := by
  have hall : ∀ t, Tidy t → Tidy (pns.foldl record t) := by
    induction pns with
    | nil => exact fun t h => h
    | cons pn pns ih => exact fun t h => ih _ (tidy_record h pn)
  exact hall .new ⟨separated_nil, by decide⟩

/-! ## Pairs in the buffer -/

/-- The bytes of pairs of varints. -/
def pair_bytes (pairs : List (Nat × Nat)) : Bytes :=
  pairs.flatMap fun p => varint_bytes p.1 ++ varint_bytes p.2

/-- How many bytes pairs of varints take. -/
def pairs_len (pairs : List (Nat × Nat)) : Nat :=
  (pairs.map fun p => varint_len p.1 + varint_len p.2).sum

/-- A buffer of `cap` bytes that is filled with the pairs ends between the two numbers of
one. -/
def EndsInPair (cap : Nat) (pairs : List (Nat × Nat)) : Prop :=
  ∃ before p after, pairs = before ++ p :: after ∧ pairs_len before + varint_len p.1 ≤ cap ∧
    cap < pairs_len before + varint_len p.1 + varint_len p.2

/-- All numbers can be written as varints. -/
def Writable (pairs : List (Nat × Nat)) : Prop := ∀ p ∈ pairs, p.1 ≤ MAX_VARINT ∧ p.2 ≤ MAX_VARINT

@[simp] theorem pair_bytes_nil : pair_bytes [] = [] := rfl

@[simp] theorem pair_bytes_cons (p : Nat × Nat) (pairs : List (Nat × Nat)) :
    pair_bytes (p :: pairs) = varint_bytes p.1 ++ varint_bytes p.2 ++ pair_bytes pairs := rfl

@[simp] theorem pairs_len_nil : pairs_len [] = 0 := rfl

@[simp] theorem pairs_len_cons (p : Nat × Nat) (pairs : List (Nat × Nat)) :
    pairs_len (p :: pairs) = varint_len p.1 + varint_len p.2 + pairs_len pairs := by
  simp [pairs_len]

theorem pair_bytes_length (pairs : List (Nat × Nat)) :
    (pair_bytes pairs).length = pairs_len pairs := by
  induction pairs with
  | nil => rfl
  | cons p pairs ih => simp [ih, Nat.add_assoc]

theorem length_le_pairs_len (pairs : List (Nat × Nat)) : pairs.length ≤ pairs_len pairs := by
  induction pairs with
  | nil => simp
  | cons p pairs ih =>
    have := varint_len_pos p.1
    simp only [List.length_cons, pairs_len_cons]
    omega

theorem varint_bytes_ne_nil (value : Nat) : varint_bytes value ≠ [] := by
  intro h
  have hlen := varint_bytes_length value
  have := varint_len_pos value
  rw [h] at hlen
  simp at hlen
  omega

variable {pairs : List (Nat × Nat)}

theorem ends_in_pair_cons {cap : Nat} {p : Nat × Nat} :
    EndsInPair cap (p :: pairs) ↔
      (varint_len p.1 ≤ cap ∧ cap < varint_len p.1 + varint_len p.2) ∨
      (varint_len p.1 + varint_len p.2 ≤ cap ∧
        EndsInPair (cap - (varint_len p.1 + varint_len p.2)) pairs) := by
  constructor
  · rintro ⟨before, q, after, heq, hle, hlt⟩
    cases before with
    | nil =>
      cases heq
      simp only [pairs_len_nil, Nat.zero_add] at hle hlt
      exact .inl ⟨hle, hlt⟩
    | cons b before =>
      obtain ⟨rfl, rfl⟩ := List.cons.inj heq
      simp only [pairs_len_cons] at hle hlt
      exact .inr ⟨by omega, before, q, after, rfl, by omega, by omega⟩
  · rintro (⟨hle, hlt⟩ | ⟨hfit, before, q, after, rfl, hle, hlt⟩)
    · exact ⟨[], p, pairs, rfl, by simpa using hle, by simpa using hlt⟩
    · refine ⟨p :: before, q, after, rfl, ?_, ?_⟩ <;> simp only [pairs_len_cons] <;> omega

theorem encode_varint_of_le {value cap : Nat} (h : value ≤ MAX_VARINT) (hcap : varint_len value ≤ cap) :
    encode_varint value cap = .ok (varint_bytes value) := by
  rw [encode_varint, if_neg (by omega), if_neg (by omega)]

theorem encode_varint_of_full {value cap : Nat} (h : value ≤ MAX_VARINT)
    (hcap : cap < varint_len value) :
    encode_varint value cap = .error (.BufferTooSmall (varint_len value)) := by
  rw [encode_varint, if_neg (by omega), if_pos hcap]

/-- The buffer holds the pairs of the highest ranges, and, when it ends inside a pair, the first
number of the next one. -/
theorem ack_range_bytes_spec {smallest : Nat} {rest : List (Nat × Nat)} {out : Bytes}
    (hw : Writable (gaps smallest rest)) (hout : out.length ≤ 256) :
    (¬EndsInPair (256 - out.length) (gaps smallest rest) ∧
      ∃ k, ack_range_bytes smallest rest out = out ++ pair_bytes (gaps smallest (rest.take k))) ∨
    (EndsInPair (256 - out.length) (gaps smallest rest) ∧
      ∃ pairs gap, Writable pairs ∧ gap ≤ MAX_VARINT ∧
        ack_range_bytes smallest rest out = out ++ pair_bytes pairs ++ varint_bytes gap) := by
  induction rest generalizing smallest out with
  | nil =>
    refine .inl ⟨?_, 0, by simp [ack_range_bytes, gaps]⟩
    rintro ⟨before, p, after, heq, -⟩
    simp [gaps] at heq
  | cons r rest ih =>
    obtain ⟨s, e⟩ := r
    rw [gaps] at hw ⊢
    obtain ⟨hgap, hlen⟩ := hw _ List.mem_cons_self
    rw [ends_in_pair_cons]
    dsimp only at hgap hlen ⊢
    by_cases hroom : varint_len (smallest - e - 2) ≤ 256 - out.length
    · rw [ack_range_bytes, encode_varint_of_le hgap hroom]
      dsimp only
      by_cases hroom' : varint_len (smallest - e - 2) + varint_len (e - s) ≤ 256 - out.length
      · rw [encode_varint_of_le hlen (by simp; omega)]
        dsimp only
        have hlength : (out ++ varint_bytes (smallest - e - 2) ++ varint_bytes (e - s)).length =
            out.length + (varint_len (smallest - e - 2) + varint_len (e - s)) := by
          simp
        have hrest := @ih s (out ++ varint_bytes (smallest - e - 2) ++ varint_bytes (e - s))
          (fun p hp => hw p (List.mem_cons_of_mem _ hp)) (by omega)
        rw [hlength, show 256 - (out.length + (varint_len (smallest - e - 2) + varint_len (e - s))) =
          256 - out.length - (varint_len (smallest - e - 2) + varint_len (e - s)) by omega] at hrest
        rcases hrest with ⟨hno, k, hk⟩ | ⟨hyes, pairs, gap, hpairs, hg, hk⟩
        · refine .inl ⟨?_, k + 1, ?_⟩
          · rintro (⟨-, hlt⟩ | ⟨-, hends⟩)
            · omega
            · exact hno hends
          · rw [hk, List.take_succ_cons, gaps, pair_bytes_cons]
            simp only [List.append_assoc]
        · refine .inr ⟨.inr ⟨hroom', hyes⟩, (smallest - e - 2, e - s) :: pairs, gap, ?_, hg, ?_⟩
          · intro p hp
            rcases List.mem_cons.mp hp with rfl | hp
            · exact ⟨hgap, hlen⟩
            · exact hpairs p hp
          · rw [hk, pair_bytes_cons]
            simp only [List.append_assoc]
      · -- The gap fits, the length of the range does not.
        rw [encode_varint_of_full hlen (by simp; omega)]
        exact .inr ⟨.inl ⟨hroom, by omega⟩, [], smallest - e - 2, List.forall_mem_nil _, hgap, by simp⟩
    · rw [ack_range_bytes, encode_varint_of_full hgap (by omega)]
      refine .inl ⟨?_, 0, by simp [gaps]⟩
      rintro (⟨hle, -⟩ | ⟨hle, -⟩) <;> omega

/-! ## Reading pairs -/

theorem read_varint_bytes {value : Nat} (h : value ≤ MAX_VARINT) (rest : Bytes) :
    read_varint (varint_bytes value ++ rest) = (.ok value, rest) := by
  have hdrop : (varint_bytes value ++ rest).drop (varint_len value) = rest := by
    rw [← varint_bytes_length value, List.drop_left]
  simp only [read_varint, decode_varint_bytes h, hdrop]

theorem read_varint_nil : read_varint [] = (.error frame_encoding_error, []) := rfl

theorem read_pair {p : Nat × Nat} (h : p.1 ≤ MAX_VARINT ∧ p.2 ≤ MAX_VARINT) (rest : Bytes) :
    (do let _ ← read_varint; let _ ← read_varint : Reader Unit)
      (varint_bytes p.1 ++ varint_bytes p.2 ++ rest) = (.ok (), rest) := by
  rw [List.append_assoc, bind_ok (read_varint_bytes h.1 _),
    bind_ok (read_varint_bytes h.2 _)]
  rfl

theorem Writable.tail {p : Nat × Nat} (h : Writable (p :: pairs)) : Writable pairs :=
  fun q hq => h q (List.mem_cons_of_mem p hq)

theorem pair_ne_nil (p : Nat × Nat) (rest : Bytes) :
    varint_bytes p.1 ++ varint_bytes p.2 ++ rest ≠ [] := by
  simp [varint_bytes_ne_nil]

theorem count_pairs_bytes (h : Writable pairs) {fuel : Nat}
    (hfuel : pairs.length ≤ fuel) : count_pairs fuel (pair_bytes pairs) = .ok pairs.length := by
  induction pairs generalizing fuel with
  | nil => cases fuel <;> simp [count_pairs]
  | cons p pairs ih =>
    cases fuel with
    | zero => simp at hfuel
    | succ fuel =>
      have hcount := ih h.tail (show pairs.length ≤ fuel by simpa using hfuel)
      rw [pair_bytes_cons, count_pairs, if_neg (pair_ne_nil p _),
        read_pair (h p List.mem_cons_self)]
      simp only [hcount, except_ok_bind]
      rfl

/-- A first number without its second ends the count in an error. -/
theorem count_pairs_torn (h : Writable pairs) {gap : Nat}
    (hgap : gap ≤ MAX_VARINT) {fuel : Nat} (hfuel : pairs.length < fuel) :
    count_pairs fuel (pair_bytes pairs ++ varint_bytes gap) = .error frame_encoding_error := by
  induction pairs generalizing fuel with
  | nil =>
    obtain ⟨fuel, rfl⟩ : ∃ n, fuel = n + 1 := ⟨fuel - 1, by simp at hfuel; omega⟩
    have hread : (do let _ ← read_varint; let _ ← read_varint : Reader Unit) (varint_bytes gap) =
        (.error frame_encoding_error, []) := by
      have hfirst := read_varint_bytes hgap []
      rw [List.append_nil] at hfirst
      rw [bind_ok hfirst, Method.bind_error read_varint_nil]
    rw [pair_bytes_nil, List.nil_append, count_pairs, if_neg (varint_bytes_ne_nil gap), hread]
  | cons p pairs ih =>
    cases fuel with
    | zero => simp at hfuel
    | succ fuel =>
      have hcount := ih h.tail (show pairs.length < fuel by simpa using hfuel)
      rw [pair_bytes_cons, List.append_assoc, count_pairs, if_neg (pair_ne_nil p _),
        read_pair (h p List.mem_cons_self)]
      simp only [hcount]
      rfl

theorem ack_range_pairs_bytes (h : Writable pairs) {fuel : Nat}
    (hfuel : pairs.length ≤ fuel) : ack_range_pairs fuel (pair_bytes pairs) = .ok pairs := by
  induction pairs generalizing fuel with
  | nil => cases fuel <;> simp [ack_range_pairs]
  | cons p pairs ih =>
    cases fuel with
    | zero => simp at hfuel
    | succ fuel =>
      obtain ⟨h₁, h₂⟩ := h p List.mem_cons_self
      have hrest := ih h.tail (show pairs.length ≤ fuel by simpa using hfuel)
      have hdrop : (varint_bytes p.1 ++ (varint_bytes p.2 ++ pair_bytes pairs)).drop
          (varint_len p.1) = varint_bytes p.2 ++ pair_bytes pairs := by
        rw [← varint_bytes_length p.1, List.drop_left]
      have hdrop' : (varint_bytes p.1 ++ (varint_bytes p.2 ++ pair_bytes pairs)).drop
          (varint_len p.1 + varint_len p.2) = pair_bytes pairs := by
        rw [← List.drop_drop, hdrop, ← varint_bytes_length p.2, List.drop_left]
      rw [pair_bytes_cons, ack_range_pairs, if_neg (pair_ne_nil p _), List.append_assoc,
        decode_varint_bytes h₁, except_ok_bind]
      dsimp only
      rw [hdrop, decode_varint_bytes h₂, except_ok_bind]
      dsimp only
      rw [hdrop', hrest]
      rfl

theorem skip_pairs_bytes (h : Writable pairs) (rest : Bytes) :
    skip_pairs pairs.length (pair_bytes pairs ++ rest) = (.ok (), rest) := by
  induction pairs with
  | nil => rfl
  | cons p pairs ih =>
    obtain ⟨h₁, h₂⟩ := h p List.mem_cons_self
    rw [List.length_cons, skip_pairs, pair_bytes_cons]
    simp only [List.append_assoc]
    rw [bind_ok (read_varint_bytes h₁ _), bind_ok (read_varint_bytes h₂ _)]
    exact ih h.tail

theorem read_pairs_bytes (h : Writable pairs) :
    read_pairs pairs.length (pair_bytes pairs) = (.ok (pair_bytes pairs), []) := by
  have hskip := skip_pairs_bytes h []
  rw [List.append_nil] at hskip
  rw [read_pairs, bind_ok (Method.get_run _), bind_ok hskip,
    bind_ok (Method.get_run _)]
  simp

/-! ## The frame -/

/-- The bytes of an ACK frame without ECN counts. -/
def ack_bytes (largest_ack first_ack_range : Nat) (pairs : List (Nat × Nat)) : Bytes :=
  varint_bytes 0x02 ++ varint_bytes largest_ack ++ varint_bytes 0 ++ varint_bytes pairs.length ++
    varint_bytes first_ack_range ++ pair_bytes pairs

/-- The ACK frame that carries these bytes. -/
def ack_frame (largest_ack first_ack_range : Nat) (ack_ranges : Bytes) : AckFrame :=
  { largest_ack, ack_delay := 0, first_ack_range, ack_ranges, ecn := none }

/-- Room for any ACK frame whose ranges came out of the buffer of 256 bytes. -/
def ACK_FRAME_ROOM : Nat := 5 * 8 + 256

theorem write_varint_of_le {cap value : Nat} {out : Bytes} (h : value ≤ MAX_VARINT)
    (hcap : out.length + 8 ≤ cap) :
    write_varint cap value out = (.ok (), out ++ varint_bytes value) := by
  have hlen := varint_len_le value
  rw [write_varint, encode_varint_of_le h (by omega)]

theorem encode_ack {largest first : Nat} {cap : Nat}
    (hlargest : largest ≤ MAX_VARINT) (hfirst : first ≤ MAX_VARINT) (hpairs : Writable pairs)
    (hlen : pairs_len pairs ≤ 256) (hcap : ACK_FRAME_ROOM ≤ cap) :
    encode (.Ack (ack_frame largest first (pair_bytes pairs))) cap =
      .ok (ack_bytes largest first pairs) := by
  unfold ACK_FRAME_ROOM at hcap
  have hcount := length_le_pairs_len pairs
  have hmax : pairs.length ≤ MAX_VARINT := by
    unfold MAX_VARINT
    omega
  have hwalk := count_pairs_bytes hpairs
    (show pairs.length ≤ (pair_bytes pairs).length by rw [pair_bytes_length]; exact hcount)
  have h2 := varint_len_le 0x02
  have hl := varint_len_le largest
  have h0 := varint_len_le 0
  have hn := varint_len_le pairs.length
  have hf := varint_len_le first
  have hrun : write_frame cap (.Ack (ack_frame largest first (pair_bytes pairs))) [] =
      (.ok (), ack_bytes largest first pairs) := by
    simp only [write_frame, ack_frame, Option.isSome_none, Bool.false_eq_true, if_false, hwalk]
    rw [bind_ok (write_varint_of_le (by decide) (by simp; omega)),
      bind_ok (write_varint_of_le hlargest (by simp; omega)),
      bind_ok (write_varint_of_le (by decide) (by simp; omega)),
      bind_ok (Method.lift_run _ _),
      bind_ok (write_varint_of_le hmax (by simp; omega)),
      bind_ok (write_varint_of_le hfirst (by simp; omega))]
    have hroom : ¬cap - ([] ++ varint_bytes 2 ++ varint_bytes largest ++ varint_bytes 0 ++
        varint_bytes pairs.length ++ varint_bytes first).length < (pair_bytes pairs).length := by
      simp [pair_bytes_length]
      omega
    have hbytes := bind_ok (f := fun _ : Unit => (pure () : Writer))
      (show write_bytes cap (pair_bytes pairs) ([] ++ varint_bytes 2 ++ varint_bytes largest ++
        varint_bytes 0 ++ varint_bytes pairs.length ++ varint_bytes first) = (.ok (), _) from
        if_neg hroom)
    exact hbytes
  rw [encode, hrun]

/-- The frame reads back. -/
theorem decode_ack {largest first : Nat} (hlargest : largest ≤ MAX_VARINT)
    (hfirst : first ≤ MAX_VARINT) (hpairs : Writable pairs) (hlen : pairs_len pairs ≤ 256) :
    decode (ack_bytes largest first pairs) =
      .ok (.Ack (ack_frame largest first (pair_bytes pairs)), (ack_bytes largest first pairs).length) := by
  have hmax : pairs.length ≤ MAX_VARINT := by
    have := length_le_pairs_len pairs
    unfold MAX_VARINT
    omega
  have hrun : (do let frame_type ← read_varint; read_frame frame_type : Reader Frame)
      (ack_bytes largest first pairs) =
        (.ok (.Ack (ack_frame largest first (pair_bytes pairs))), []) := by
    unfold ack_bytes
    simp only [List.append_assoc]
    rw [bind_ok (read_varint_bytes (by decide) _)]
    simp only [read_frame, read_frame.read_ack]
    rw [bind_ok (read_varint_bytes hlargest _), bind_ok (read_varint_bytes (by decide) _),
      bind_ok (read_varint_bytes hmax _), bind_ok (read_varint_bytes hfirst _),
      bind_ok (read_pairs_bytes hpairs)]
    rfl
  rw [decode, hrun]
  simp

/-- A packet number past the varints, or a torn pair, is not written. -/
theorem encode_ack_fails {largest first : Nat} {ack_ranges : Bytes} {cap : Nat}
    (h : MAX_VARINT < largest ∨
      count_pairs ack_ranges.length ack_ranges = .error frame_encoding_error) :
    (encode (.Ack (ack_frame largest first ack_ranges)) cap).toOption = none := by
  rw [encode]
  rcases hrun : write_frame cap (.Ack (ack_frame largest first ack_ranges)) [] with ⟨e | _, out⟩
  · rfl
  · exfalso
    simp only [write_frame, ack_frame] at hrun
    obtain ⟨_, out₁, -, hrun⟩ := bind_eq_ok hrun
    obtain ⟨_, out₂, hlargest, hrun⟩ := bind_eq_ok hrun
    obtain ⟨_, out₃, -, hrun⟩ := bind_eq_ok hrun
    obtain ⟨_, out₄, hcount, -⟩ := bind_eq_ok hrun
    rcases h with h | h
    · rw [write_varint, encode_varint, if_pos (by omega)] at hlargest
      cases hlargest
    · rw [Method.lift_run, h] at hcount
      cases hcount

/-! ## What the peer reads -/

/-- The bytes of the ACK frame of a tracker, written into `cap` bytes. -/
def encoded_ack (t : RecvPnTracker) (cap : Nat) : Option Bytes :=
  (build_ack_frame t).bind fun ack => (encode (.Ack ack) cap).toOption

/-- The pairs that tell the ranges below the highest one. -/
def gaps_below_highest (t : RecvPnTracker) : List (Nat × Nat) :=
  match t.ranges.reverse with
  | [] => []
  | (highest_start, _) :: rest => gaps highest_start rest

/-- Given room for any ACK frame, a tracker that recorded something gets one, and its peer
reads from it what the highest ranges of the tracker cover, however many pairs it keeps. -/
def ReportsReceived (t : RecvPnTracker) : Prop :=
  t.ranges ≠ [] → ∀ cap, ACK_FRAME_ROOM ≤ cap →
    ∃ out ack pairs, encoded_ack t cap = some out ∧
      decode out = .ok (.Ack ack, out.length) ∧
      ack_range_pairs ack.ack_ranges.length ack.ack_ranges = .ok pairs ∧
      ∀ n, ∃ k, 1 ≤ k ∧ k ≤ RecvPnTracker.MAX_RANGES ∧
        ∀ (sent : SentPacketTracker) (level : Level),
          (sent.on_ack_received level ack.largest_ack ack.first_ack_range
              (pairs.take n)).2.entries.Perm
            (sent.entries.filter fun pkt =>
              !(pkt.level == level && decide (Covers (t.ranges.reverse.take k) pkt.pn)))

/-- The pairs read back are the ranges they were made from. -/
theorem more_ranges_gaps {smallest : Nat} (h : Descends smallest l) :
    SentPacketTracker.more_ranges smallest (gaps smallest l) = l := by
  induction l generalizing smallest with
  | nil => rfl
  | cons r l ih =>
    obtain ⟨s, e⟩ := r
    obtain ⟨he, hs, hrest⟩ := h
    rw [gaps, SentPacketTracker.more_ranges, if_neg (by omega)]
    have hlargest : smallest - (smallest - e - 2) - 2 = e := by omega
    have hsmallest : e - (e - s) = s := by omega
    simp only [hlargest, hsmallest, ih hrest]

theorem on_ack_received_entries (sent : SentPacketTracker) (level : Level)
    (largest_ack first_ack_range : Nat) (pairs : List (Nat × Nat)) :
    (sent.on_ack_received level largest_ack first_ack_range pairs).2.entries.Perm
      (sent.entries.filter fun pkt => !(pkt.level == level &&
        decide (Covers ((largest_ack - first_ack_range, largest_ack) ::
          SentPacketTracker.more_ranges (largest_ack - first_ack_range) pairs) pkt.pn))) := by
  have hsplit := (drain_split (fun pkt => pkt.level == level &&
    ((largest_ack - first_ack_range, largest_ack) ::
      SentPacketTracker.more_ranges (largest_ack - first_ack_range) pairs).any
        fun r => pkt.pn ≥ r.1 && pkt.pn ≤ r.2) sent.entries).2
  have hcovers : ∀ (l : List (Nat × Nat)) (n : Nat),
      (l.any fun r => n ≥ r.1 && n ≤ r.2) = decide (Covers l n) := by
    intro l n
    rw [Bool.eq_iff_iff, List.any_eq_true, decide_eq_true_eq]
    simp [Covers]
  simp only [← hcovers]
  exact hsplit

theorem ack_range_bytes_length {smallest : Nat} {rest : List (Nat × Nat)} {out : Bytes}
    (hout : out.length ≤ 256) : (ack_range_bytes smallest rest out).length ≤ 256 := by
  have hfits : ∀ {value cap : Nat} {b : Bytes}, encode_varint value cap = .ok b → b.length ≤ cap := by
    intro value cap b h
    unfold encode_varint at h
    split at h
    · cases h
    · split at h
      · cases h
      · cases h
        simp
        omega
  induction rest generalizing smallest out with
  | nil => exact hout
  | cons r rest ih =>
    obtain ⟨s, e⟩ := r
    unfold ack_range_bytes
    split
    · exact hout
    · rename_i gap hgap
      have hgaplen := hfits hgap
      split
      · simp only [List.length_append]
        omega
      · rename_i len hlen
        have hlenlen := hfits hlen
        refine ih ?_
        simp only [List.length_append] at hlenlen ⊢
        omega

/-- The ACK frame reports what was received exactly if its largest packet number is one a
varint can hold and its range buffer does not end inside a pair. -/
theorem reports_received_iff {t : RecvPnTracker} (h : Tidy t) :
    ReportsReceived t ↔
      (∀ r ∈ t.ranges, r.2 ≤ MAX_VARINT) ∧ ¬EndsInPair 256 (gaps_below_highest t) := by
  have hmem : ∀ r, r ∈ t.ranges ↔ r ∈ t.ranges.reverse := fun r => List.mem_reverse.symm
  cases hr : t.ranges.reverse with
  | nil =>
    have hnil : t.ranges = [] := List.reverse_eq_nil_iff.mp hr
    refine iff_of_true (fun hne => absurd hnil hne) ⟨by simp [hnil], ?_⟩
    rintro ⟨before, p, after, heq, -⟩
    simp [gaps_below_highest, hr] at heq
  | cons r rest =>
    obtain ⟨s, e⟩ := r
    have hne : t.ranges ≠ [] := fun hnil => by simp [hnil] at hr
    have hdesc : Descends s rest := h.separated.descends hr
    have hse : s ≤ e := h.separated.ordered (s, e) ((hmem _).mpr (by simp [hr]))
    have hgaps : gaps_below_highest t = gaps s rest := by simp [gaps_below_highest, hr]
    have hframe : ∀ cap, encoded_ack t cap =
        (encode (.Ack (ack_frame e (e - s) (ack_range_bytes s rest []))) cap).toOption := by
      intro cap
      simp [encoded_ack, build_ack_frame, hr, ack_frame]
    rw [hgaps]
    by_cases hmax : e ≤ MAX_VARINT
    · have hall : ∀ r ∈ t.ranges, r.2 ≤ MAX_VARINT := by
        intro r hrm
        rw [hmem, hr] at hrm
        rcases List.mem_cons.mp hrm with rfl | hrm
        · exact hmax
        · have := hdesc.lt r hrm
          omega
      have hw : ∀ {l}, Descends s l → Writable (gaps s l) := by
        intro l hl p hp
        have := gaps_lt hl p hp
        exact ⟨by omega, by omega⟩
      rcases @ack_range_bytes_spec _ _ [] (hw hdesc) (by simp) with
        ⟨hno, k, hk⟩ | ⟨hyes, pairs, gap, hpairs, hgap, hk⟩
      · refine iff_of_true (fun _ cap hcap => ?_) ⟨hall, hno⟩
        rw [List.nil_append] at hk
        have hlen : pairs_len (gaps s (rest.take k)) ≤ 256 := by
          rw [← pair_bytes_length, ← hk]
          exact ack_range_bytes_length (by simp)
        have hwk := hw (hdesc.take k)
        have hfirst : e - s ≤ MAX_VARINT := by omega
        have hpairs := ack_range_pairs_bytes hwk
          (show (gaps s (rest.take k)).length ≤ (pair_bytes (gaps s (rest.take k))).length by
            rw [pair_bytes_length]; exact length_le_pairs_len _)
        refine ⟨_, _, gaps s (rest.take k), ?_, decode_ack hmax hfirst hwk hlen, hpairs, fun n => ?_⟩
        · rw [hframe, hk, encode_ack hmax hfirst hwk hlen hcap]
          rfl
        · -- The highest range, and as many below it as the receiver keeps.
          refine ⟨min (min n k) rest.length + 1, by omega, ?_, fun sent level => ?_⟩
          · have hroom := h.room
            rw [← List.length_reverse, hr, List.length_cons] at hroom
            omega
          · have htake : (gaps s (rest.take k)).take n =
                gaps s (rest.take (min (min n k) rest.length)) := by
              rw [gaps_take, List.take_take, List.take_eq_take_iff.mpr]
              omega
            have hlow : e - (e - s) = s := by omega
            have hentries := on_ack_received_entries sent level e (e - s)
              ((gaps s (rest.take k)).take n)
            rw [hlow, htake, more_ranges_gaps (hdesc.take _), ← htake] at hentries
            rw [hr, List.take_succ_cons]
            exact hentries
      · refine iff_of_false (fun hrep => ?_) (fun hc => hc.2 hyes)
        obtain ⟨out, ack, pairs', henc, -⟩ := hrep hne _ (Nat.le_refl ACK_FRAME_ROOM)
        have htorn := count_pairs_torn hpairs hgap
          (show pairs.length < (ack_range_bytes s rest []).length by
            have hp := length_le_pairs_len pairs
            have hg := varint_len_pos gap
            rw [hk]
            simp [pair_bytes_length]
            omega)
        rw [List.nil_append] at hk
        rw [hframe, encode_ack_fails (.inr (by rw [hk] at htorn ⊢; exact htorn))] at henc
        cases henc
    · refine iff_of_false (fun hrep => ?_) (fun hc => hmax (hc.1 (s, e) ((hmem _).mpr (by simp [hr]))))
      obtain ⟨out, ack, pairs', henc, -⟩ := hrep hne _ (Nat.le_refl ACK_FRAME_ROOM)
      rw [hframe, encode_ack_fails (.inl (by omega))] at henc
      cases henc

/-- ACK frames report exactly what was received, whatever packet numbers arrive in whatever
order, unless a packet number is past the varints or the range buffer ends inside a pair. -/
theorem ack_frames_report_received_iff (pns : List Nat) :
    ReportsReceived (recorded pns) ↔
      (∀ r ∈ (recorded pns).ranges, r.2 ≤ MAX_VARINT) ∧
        ¬EndsInPair 256 (gaps_below_highest (recorded pns)) :=
  reports_received_iff (tidy_recorded pns)

/-- Thirty packets, with large jumps of the packet number between them. -/
def sparse_packets : List Nat :=
  [0, 20000] ++ (List.range 28).map fun i => 20000 + (i + 1) * (2 ^ 30 + 2)

/-- The gap above the lowest range takes the last four bytes of the buffer: no ACK is written. -/
theorem sparse_packets_get_no_ack : ¬ReportsReceived (recorded sparse_packets) := by
  intro h
  obtain ⟨out, ack, pairs, henc, -⟩ := h (by decide +kernel) _ (Nat.le_refl ACK_FRAME_ROOM)
  have hnone : encoded_ack (recorded sparse_packets) ACK_FRAME_ROOM = none := by decide +kernel
  rw [hnone] at henc
  cases henc

end milli_http.connection.ack_frames
