-- The filter against replayed packets (connection/mod.rs): what a tracker says about a packet
-- number after any sequence of `record` calls. A full tracker gives up its lowest range and
-- takes everything up to its end for received.
import MilliHttp.AckFrames

open ranges

namespace milli_http.connection.replay_filter

open varint ack_frames RecvPnTracker

/-! ## One packet number -/

theorem contains_iff (t : RecvPnTracker) (n : Nat) :
    t.contains n = true ↔ (∃ f ∈ t.floor, n ≤ f) ∨ Covers t.ranges n := by
  simp [RecvPnTracker.contains, Covers, Option.any_eq_true]

theorem covers_insert_range (l : List (Nat × Nat)) (start end_ n : Nat) :
    Covers (insert_range l start end_) n ↔ Covers l n ∨ start ≤ n ∧ n ≤ end_ := by
  simp only [Covers, mem_insert_range]
  constructor
  · rintro ⟨r, rfl | hr, hn⟩
    · exact .inr hn
    · exact .inl ⟨r, hr, hn⟩
  · rintro (⟨r, hr, hn⟩ | hn)
    · exact ⟨r, .inr hr, hn⟩
    · exact ⟨_, .inl rfl, hn⟩

/-- Without two of its ranges a list covers what the others do. -/
theorem covers_erase_two {l : List (Nat × Nat)} {i j : Nat} {a b : Nat × Nat} (ha : l[i]? = some a)
    (hb : l[j]? = some b) (hij : i ≠ j) (n : Nat) :
    Covers l n ↔ Covers ((l.eraseIdx (max i j)).eraseIdx (min i j)) n ∨
      (a.1 ≤ n ∧ n ≤ a.2) ∨ (b.1 ≤ n ∧ n ≤ b.2) := by
  rcases Nat.lt_or_gt_of_ne hij with hlt | hgt
  · rw [Nat.max_eq_right (Nat.le_of_lt hlt), Nat.min_eq_left (Nat.le_of_lt hlt)]
    have hkept : (l.eraseIdx j)[i]? = some a := by rw [List.getElem?_eraseIdx_of_lt hlt, ha]
    rw [covers_eraseIdx hb, covers_eraseIdx hkept]
    tauto
  · rw [Nat.max_eq_left (Nat.le_of_lt hgt), Nat.min_eq_right (Nat.le_of_lt hgt)]
    have hkept : (l.eraseIdx i)[j]? = some b := by rw [List.getElem?_eraseIdx_of_lt hgt, hb]
    rw [covers_eraseIdx ha, covers_eraseIdx hkept]
    tauto

/-- A packet number joins the ranges, or takes the place of the lowest one. -/
inductive Joins (t t' : RecvPnTracker) (pn : Nat) : Prop
  | kept (hfloor : t'.floor = t.floor) (hcovers : ∀ n, Covers t'.ranges n ↔ Covers t.ranges n ∨ n = pn)
  | evicted {dropped next : Nat × Nat} {rest : List (Nat × Nat)}
      (hranges : t.ranges = dropped :: next :: rest)
      (hfloor : t'.floor = some (t.floor.elim dropped.2 (max · dropped.2)))
      (hcovers : ∀ n, Covers t'.ranges n ↔ Covers (next :: rest) n ∨ n = pn)

theorem joins_record_new (t : RecvPnTracker) (pn : Nat) : Joins t (t.record_new pn) pn := by
  have hsingle : ∀ (l : List (Nat × Nat)) n,
      Covers (insert_range l pn pn) n ↔ Covers l n ∨ n = pn := by
    intro l n
    rw [covers_insert_range]
    have : pn ≤ n ∧ n ≤ pn ↔ n = pn := by omega
    rw [this]
  unfold record_new
  split
  · rename_i dropped rest hranges
    split
    · rename_i hfull
      cases rest with
      | nil =>
        rw [hranges] at hfull
        simp [MAX_RANGES] at hfull
      | cons next rest => exact .evicted hranges rfl (hsingle _)
    · exact .kept rfl (hsingle _)
  · rename_i hranges
    refine .kept rfl fun n => ?_
    rw [hsingle, hranges]

theorem joins_record {t : RecvPnTracker} (h : Tidy t) {pn : Nat} (hnew : t.contains pn = false) :
    Joins t (t.record pn) pn := by
  have hord := h.separated.ordered
  unfold record
  rw [if_neg (by simp [hnew])]
  split
  · rename_i i j hi hj
    obtain ⟨-, a, ha, hpa⟩ := last_index_some hi
    obtain ⟨-, b, hb, hpb⟩ := last_index_some hj
    simp only [Nat.sub_zero, beq_iff_eq] at ha hb hpa hpb
    have hao := hord a (List.mem_of_getElem? ha)
    have hbo := hord b (List.mem_of_getElem? hb)
    have hij : i ≠ j := by
      rintro rfl
      rw [ha] at hb
      cases hb
      omega
    refine .kept rfl fun n => ?_
    simp only [List.getD_eq_getElem?_getD, ha, hb, Option.getD_some]
    rw [covers_insert_range, covers_erase_two ha hb hij]
    have hjoined : a.1 ≤ n ∧ n ≤ b.2 ↔ ((a.1 ≤ n ∧ n ≤ a.2) ∨ (b.1 ≤ n ∧ n ≤ b.2)) ∨ n = pn := by omega
    rw [hjoined]
    simp only [or_assoc, or_comm]
  · rename_i i hi hj
    obtain ⟨-, a, ha, hpa⟩ := last_index_some hi
    simp only [Nat.sub_zero, beq_iff_eq] at ha hpa
    have hao := hord a (List.mem_of_getElem? ha)
    refine .kept rfl fun n => ?_
    rw [covers_modify ha, covers_eraseIdx ha]
    have hlonger : a.1 ≤ n ∧ n ≤ pn ↔ (a.1 ≤ n ∧ n ≤ a.2) ∨ n = pn := by omega
    rw [hlonger, or_assoc]
  · rename_i j hi hj
    obtain ⟨-, b, hb, hpb⟩ := last_index_some hj
    simp only [Nat.sub_zero, beq_iff_eq] at hb hpb
    have hbo := hord b (List.mem_of_getElem? hb)
    refine .kept rfl fun n => ?_
    rw [covers_modify hb, covers_eraseIdx hb]
    have hlonger : pn ≤ n ∧ n ≤ b.2 ↔ (b.1 ≤ n ∧ n ≤ b.2) ∨ n = pn := by omega
    rw [hlonger, or_assoc]
  · exact joins_record_new t pn

/-! ## Any sequence of packet numbers -/

/-- What a tracker knows after some packet numbers. -/
structure Filters (t : RecvPnTracker) (pns : List Nat) : Prop where
  tidy : Tidy t
  covered : ∀ n, Covers t.ranges n → n ∈ pns
  received : ∀ n ∈ pns, t.contains n = true
  /-- The ranges reach above the floor. -/
  above : ∀ f ∈ t.floor, ∃ n, f < n ∧ Covers t.ranges n

theorem filters_new : Filters .new [] :=
  ⟨⟨separated_nil, by decide⟩, nofun, nofun, nofun⟩

theorem filters_record {t : RecvPnTracker} {pns : List Nat} (h : Filters t pns) (pn : Nat) :
    Filters (t.record pn) (pns ++ [pn]) := by
  have htidy := tidy_record h.tidy pn
  by_cases hold : t.contains pn = true
  · rw [record_of_contains hold]
    refine ⟨h.tidy, fun n hn => List.mem_append_left _ (h.covered n hn), fun n hn => ?_, h.above⟩
    rcases List.mem_append.mp hn with hn | hn
    · exact h.received n hn
    · rwa [List.mem_singleton.mp hn]
  · have hnew : t.contains pn = false := by simpa using hold
    rcases joins_record h.tidy hnew with
      ⟨hfloor, hcovers⟩ | @⟨dropped, next, rest, hranges, hfloor, hcovers⟩
    · refine ⟨htidy, fun n hn => ?_, fun n hn => ?_, fun f hf => ?_⟩
      · rcases (hcovers n).mp hn with hn | rfl
        · exact List.mem_append_left _ (h.covered n hn)
        · simp
      · rw [contains_iff, hfloor, hcovers]
        rcases List.mem_append.mp hn with hn | hn
        · rcases (contains_iff t n).mp (h.received n hn) with hn | hn
          · exact .inl hn
          · exact .inr (.inl hn)
        · exact .inr (.inr (List.mem_singleton.mp hn))
      · obtain ⟨n, hlt, hn⟩ := h.above f (hfloor ▸ hf)
        exact ⟨n, hlt, (hcovers n).mpr (.inl hn)⟩
    · have hsep := h.tidy.separated
      rw [hranges] at hsep
      obtain ⟨-, hbefore, hnext⟩ := separated_cons.mp hsep
      have hgap := hbefore next List.mem_cons_self
      have hordered := hnext.ordered next List.mem_cons_self
      simp only [Before] at hgap
      have hsplit : ∀ n, Covers t.ranges n ↔
          (dropped.1 ≤ n ∧ n ≤ dropped.2) ∨ Covers (next :: rest) n := by
        intro n
        rw [hranges, covers_cons]
      -- The new floor is at least the old one and the end of the range given up.
      have hraised : ∃ f ∈ (t.record pn).floor, dropped.2 ≤ f ∧ ∀ g ∈ t.floor, g ≤ f := by
        refine ⟨_, hfloor, ?_⟩
        cases t.floor with
        | none => exact ⟨Nat.le_refl _, by simp⟩
        | some g =>
          refine ⟨Nat.le_max_right _ _, fun g' hg' => ?_⟩
          cases hg'
          exact Nat.le_max_left _ _
      obtain ⟨f, hf, hdropped, hold⟩ := hraised
      refine ⟨htidy, fun n hn => ?_, fun n hn => ?_, fun f' hf' => ?_⟩
      · rcases (hcovers n).mp hn with hn | rfl
        · exact List.mem_append_left _ (h.covered n ((hsplit n).mpr (.inr hn)))
        · simp
      · rw [contains_iff, hcovers]
        rcases List.mem_append.mp hn with hn | hn
        · rcases (contains_iff t n).mp (h.received n hn) with ⟨g, hg, hn⟩ | hn
          · exact .inl ⟨f, hf, Nat.le_trans hn (hold g hg)⟩
          · rcases (hsplit n).mp hn with hn | hn
            · exact .inl ⟨f, hf, Nat.le_trans hn.2 hdropped⟩
            · exact .inr (.inl hn)
        · exact .inr (.inr (List.mem_singleton.mp hn))
      · rw [hfloor] at hf'
        have hcases : f' = dropped.2 ∨ dropped.2 < f' ∧ t.floor = some f' := by
          cases hg : t.floor with
          | none =>
            rw [hg] at hf'
            cases hf'
            exact .inl rfl
          | some g =>
            rw [hg] at hf'
            cases hf'
            simp only [Option.elim_some, Option.some.injEq]
            omega
        rcases hcases with rfl | ⟨hlt, hg⟩
        · exact ⟨next.1, by omega, (hcovers _).mpr (.inl ⟨next, by simp, Nat.le_refl _, hordered⟩)⟩
        · obtain ⟨n, hn, hcover⟩ := h.above f' hg
          refine ⟨n, hn, (hcovers n).mpr (.inl (((hsplit n).mp hcover).resolve_left ?_))⟩
          omega

theorem filters_recorded (pns : List Nat) : Filters (recorded pns) pns := by
  have hall : ∀ before t, Filters t before →
      Filters (pns.foldl RecvPnTracker.record t) (before ++ pns) := by
    induction pns with
    | nil =>
      intro before t h
      simpa using h
    | cons pn pns ih =>
      intro before t h
      simpa using ih (before ++ [pn]) (t.record pn) (filters_record h pn)
  exact hall [] .new filters_new

theorem Filters.largest {t : RecvPnTracker} {pns : List Nat} (h : Filters t pns) :
    t.largest = pns.max? := by
  unfold RecvPnTracker.largest
  cases hlast : t.ranges.getLast? with
  | none =>
    have hempty : t.ranges = [] := List.getLast?_eq_none_iff.mp hlast
    have hpns : pns = [] := by
      refine List.eq_nil_iff_forall_not_mem.mpr fun n hn => ?_
      rcases (contains_iff t n).mp (h.received n hn) with ⟨f, hf, -⟩ | hcover
      · obtain ⟨m, -, hm⟩ := h.above f hf
        simp [hempty] at hm
      · simp [hempty] at hcover
    rw [hpns]
    rfl
  | some r =>
    obtain ⟨hcover, hle⟩ := h.tidy.separated.last hlast
    refine (List.max?_eq_some_iff.mpr ⟨h.covered _ hcover, fun n hn => ?_⟩).symm
    rcases (contains_iff t n).mp (h.received n hn) with ⟨f, hf, hn⟩ | hn
    · obtain ⟨m, hlt, hm⟩ := h.above f hf
      have := hle m hm
      omega
    · exact hle n hn

/-- After any packet numbers, none beyond the largest a packet can have, the tracker has 32
ranges at most, in order and apart; it contains every number recorded, and none above the floor
that was not; and it knows the largest. No sum of `record` leaves 64 bits. -/
theorem replays_are_filtered (pns : List Nat) (hpns : ∀ pn ∈ pns, pn ≤ MAX_VARINT) :
    Separated (recorded pns).ranges ∧
    (recorded pns).ranges.length ≤ 32 ∧
    (∀ pn ∈ pns, (recorded pns).contains pn = true) ∧
    (∀ pn, pn ∉ pns → (∀ f ∈ (recorded pns).floor, f < pn) → (recorded pns).contains pn = false) ∧
    (recorded pns).largest = pns.max? ∧
    ∀ r ∈ (recorded pns).ranges, r.2 + 1 < 2 ^ 64 := by
  have h := filters_recorded pns
  refine ⟨h.tidy.separated, h.tidy.room, h.received, fun pn hpn habove => ?_, h.largest, fun r hr => ?_⟩
  · rw [← Bool.not_eq_true, contains_iff]
    rintro (⟨f, hf, hle⟩ | hcover)
    · exact absurd hle (Nat.not_le.mpr (habove f hf))
    · exact hpn (h.covered pn hcover)
  · have hin := h.covered r.2 ⟨r, hr, h.tidy.separated.ordered r hr, Nat.le_refl _⟩
    have := hpns r.2 hin
    unfold MAX_VARINT at this
    omega

/-- Numbers apart, one between two others, one again, and one below them all. -/
theorem some_replays_are_filtered :
    (recorded [4, 6, 5, 9, 6, 1]).contains 6 = true ∧
    (recorded [4, 6, 5, 9, 6, 1]).contains 7 = false ∧
    (recorded [4, 6, 5, 9, 6, 1]).largest = some 9 := by
  have h := replays_are_filtered [4, 6, 5, 9, 6, 1] (by decide)
  exact ⟨h.2.2.1 6 (by decide), h.2.2.2.1 7 (by decide) (by decide), h.2.2.2.2.1⟩

end milli_http.connection.replay_filter
