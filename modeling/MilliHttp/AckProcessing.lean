-- Processing an ACK frame (transport/recovery.rs and connection/recv.rs): which packets leave
-- the tracker, and which are reported. Sixteen ranges below the first one are looked at, and 32
-- packets are reported.
import MilliHttp.FrameCodec
import MilliHttp.Standin

open bytes method

namespace milli_http.connection.ack_processing

open crypto frame transport Connection

/-! ## The numbers an ACK encodes -/

/-- The ranges pairs of gap and length tell below `smallest`. A peer can write pairs that lead
below 0: those ranges hold no packet number. -/
def encoded_ranges : Int → List (Nat × Nat) → List (Int × Int)
  | _, [] => []
  | smallest, (gap, ack_range) :: rest =>
    let range_largest := smallest - gap - 2
    (range_largest - ack_range, range_largest) :: encoded_ranges (range_largest - ack_range) rest

/-- All ranges of an ACK. -/
def ranges_of (largest_ack first_ack_range : Nat) (pairs : List (Nat × Nat)) : List (Int × Int) :=
  ((largest_ack : Int) - first_ack_range, (largest_ack : Int)) ::
    encoded_ranges (largest_ack - first_ack_range) pairs

/-- A packet of the level whose number is in one of the ranges. -/
def Acked (level : Level) (ranges : List (Int × Int)) (pkt : SentPacket) : Prop :=
  pkt.level = level ∧ ∃ r ∈ ranges, r.1 ≤ (pkt.pn : Int) ∧ (pkt.pn : Int) ≤ r.2

instance (level : Level) (ranges : List (Int × Int)) (pkt : SentPacket) :
    Decidable (Acked level ranges pkt) := inferInstanceAs (Decidable (_ ∧ ∃ r ∈ _, _))

theorem encoded_ranges_take (smallest : Int) (pairs : List (Nat × Nat)) (k : Nat) :
    encoded_ranges smallest (pairs.take k) = (encoded_ranges smallest pairs).take k := by
  induction pairs generalizing smallest k with
  | nil => simp [encoded_ranges]
  | cons p pairs ih =>
    cases k with
    | zero => rfl
    | succ k => simp [encoded_ranges, ih]

/-- The ranges go down. -/
theorem encoded_ranges_lt (smallest : Int) (pairs : List (Nat × Nat)) :
    (∀ r ∈ encoded_ranges smallest pairs, r.2 < smallest) ∧
    (encoded_ranges smallest pairs).Pairwise fun a b => b.2 < a.1 := by
  induction pairs generalizing smallest with
  | nil => exact ⟨nofun, .nil⟩
  | cons p pairs ih =>
    obtain ⟨gap, ack_range⟩ := p
    obtain ⟨hbelow, hpair⟩ := ih (smallest - gap - 2 - ack_range)
    refine ⟨fun r hr => ?_, List.pairwise_cons.mpr ⟨hbelow, hpair⟩⟩
    rcases List.mem_cons.mp hr with rfl | hr
    · dsimp only
      omega
    · have := hbelow r hr
      omega

theorem ranges_of_descend (largest_ack first_ack_range : Nat) (pairs : List (Nat × Nat)) :
    (ranges_of largest_ack first_ack_range pairs).Pairwise fun a b => b.2 < a.1 :=
  List.pairwise_cons.mpr (encoded_ranges_lt _ pairs)

/-- Below 0 there are no packet numbers. -/
theorem encoded_ranges_below {smallest : Int} (h : smallest ≤ 1) (pairs : List (Nat × Nat)) (n : Nat) :
    ∀ r ∈ encoded_ranges smallest pairs, ¬(n : Int) ≤ r.2 := by
  intro r hr
  cases pairs with
  | nil => cases hr
  | cons p pairs =>
    obtain ⟨gap, ack_range⟩ := p
    rcases List.mem_cons.mp hr with rfl | hr
    · dsimp only
      omega
    · have := (encoded_ranges_lt _ pairs).1 r hr
      omega

/-- The ranges the source computes, with its checks and saturating subtractions, hold the numbers
that are encoded. -/
theorem more_ranges_iff (smallest : Int) (pairs : List (Nat × Nat)) (n : Nat) :
    (∃ r ∈ SentPacketTracker.more_ranges smallest.toNat pairs, r.1 ≤ n ∧ n ≤ r.2) ↔
      ∃ r ∈ encoded_ranges smallest pairs, r.1 ≤ (n : Int) ∧ (n : Int) ≤ r.2 := by
  induction pairs generalizing smallest with
  | nil => simp [SentPacketTracker.more_ranges, encoded_ranges]
  | cons p pairs ih =>
    obtain ⟨gap, ack_range⟩ := p
    unfold SentPacketTracker.more_ranges encoded_ranges
    split
    · rename_i hlow
      refine iff_of_false (by simp) ?_
      rintro ⟨r, hr, -, hn⟩
      rcases List.mem_cons.mp hr with rfl | hr
      · dsimp only at hn
        omega
      · exact encoded_ranges_below (by omega) pairs n r hr hn
    · rename_i hlow
      have hsmallest : smallest.toNat - gap - 2 - ack_range =
          (smallest - gap - 2 - ack_range).toNat := by omega
      have hhead : (smallest.toNat - gap - 2 - ack_range ≤ n ∧ n ≤ smallest.toNat - gap - 2) ↔
          smallest - gap - 2 - ack_range ≤ (n : Int) ∧ (n : Int) ≤ smallest - gap - 2 := by omega
      have hrest := ih (smallest - gap - 2 - ack_range)
      rw [← hsmallest] at hrest
      simp only [List.mem_cons, exists_eq_or_imp]
      rw [hhead, hrest]

/-! ## What an ACK does -/

/-- What the loop of the source removes. -/
def is_acked (level : Level) (largest_ack first_ack_range : Nat) (pairs : List (Nat × Nat))
    (pkt : SentPacket) : Bool :=
  decide (Acked level (ranges_of largest_ack first_ack_range pairs) pkt)

/-- The largest of the packets removed so far. -/
def later (best : Option SentPacket) (pkt : SentPacket) : Option SentPacket :=
  match best with
  | none => some pkt
  | some prev => if pkt.pn > prev.pn then some pkt else some prev

theorem on_ack_received_eq (t : SentPacketTracker) (level : Level) (largest_ack first_ack_range : Nat)
    (pairs : List (Nat × Nat)) :
    t.on_ack_received level largest_ack first_ack_range pairs =
      let (kept, removed) := drain (is_acked level largest_ack first_ack_range pairs) t.entries.length 0
        t.entries
      ({ newly_acked := removed.take 32, largest_newly_acked := removed.foldl later none }, ⟨kept⟩) := by
  have hacked : is_acked level largest_ack first_ack_range pairs = fun pkt =>
      pkt.level == level && ((largest_ack - first_ack_range, largest_ack) ::
        SentPacketTracker.more_ranges (largest_ack - first_ack_range) pairs).any
          fun r => pkt.pn ≥ r.1 && pkt.pn ≤ r.2 := by
    funext pkt
    have hmore := more_ranges_iff ((largest_ack : Int) - first_ack_range) pairs pkt.pn
    have hfirst : ((largest_ack : Int) - first_ack_range).toNat = largest_ack - first_ack_range := by
      omega
    have hhead : ((largest_ack : Int) - first_ack_range ≤ (pkt.pn : Int) ∧
        (pkt.pn : Int) ≤ (largest_ack : Int)) ↔
        largest_ack - first_ack_range ≤ pkt.pn ∧ pkt.pn ≤ largest_ack := by omega
    rw [hfirst] at hmore
    rw [Bool.eq_iff_iff]
    simp only [is_acked, Acked, ranges_of, List.mem_cons, exists_eq_or_imp, decide_eq_true_eq,
      Bool.and_eq_true, beq_iff_eq, List.any_eq_true, ge_iff_le]
    rw [hhead, ← hmore]
  rw [hacked]
  rfl

/-- The packet is the one with the largest number. -/
def IsLargest (best : Option SentPacket) (packets : List SentPacket) : Prop :=
  match best with
  | none => packets = []
  | some pkt => pkt ∈ packets ∧ ∀ q ∈ packets, q.pn ≤ pkt.pn

theorem later_foldl (packets : List SentPacket) (best : SentPacket) :
    ∃ pkt, packets.foldl later (some best) = some pkt ∧ (pkt = best ∨ pkt ∈ packets) ∧
      best.pn ≤ pkt.pn ∧ ∀ q ∈ packets, q.pn ≤ pkt.pn := by
  induction packets generalizing best with
  | nil => exact ⟨best, rfl, .inl rfl, Nat.le_refl _, nofun⟩
  | cons p packets ih =>
    rw [List.foldl_cons, later]
    split
    · obtain ⟨pkt, hfold, hmem, hle, hall⟩ := ih p
      refine ⟨pkt, hfold, .inr ?_, by omega, List.forall_mem_cons.mpr ⟨hle, hall⟩⟩
      rcases hmem with rfl | hmem
      · exact List.mem_cons_self
      · exact List.mem_cons_of_mem p hmem
    · obtain ⟨pkt, hfold, hmem, hle, hall⟩ := ih best
      exact ⟨pkt, hfold, hmem.imp_right (List.mem_cons_of_mem p), hle,
        List.forall_mem_cons.mpr ⟨by omega, hall⟩⟩

theorem later_is_largest (packets : List SentPacket) : IsLargest (packets.foldl later none) packets := by
  cases packets with
  | nil => rfl
  | cons p packets =>
    obtain ⟨pkt, hfold, hmem, hle, hall⟩ := later_foldl packets p
    have hpkt : (p :: packets).foldl later none = some pkt := hfold
    rw [hpkt]
    exact ⟨List.mem_cons.mpr hmem, List.forall_mem_cons.mpr ⟨hle, hall⟩⟩

theorem IsLargest.perm {best : Option SentPacket} {packets packets' : List SentPacket}
    (h : IsLargest best packets) (hp : packets.Perm packets') : IsLargest best packets' := by
  cases best with
  | none =>
    cases (h : packets = [])
    exact hp.nil_eq.symm
  | some pkt => exact ⟨hp.mem_iff.mp h.1, fun q hq => h.2 q (hp.mem_iff.mpr hq)⟩

/-! ## Exactness -/

/-- The pairs the connection takes over from an ACK. -/
def MAX_PAIRS : Nat := 16

/-- The packets of the level in the ranges of the ACK leave the tracker and no others do, each of
them is reported once, and the largest is the one with the largest number. -/
def Exact (t : SentPacketTracker) (level : Level) (ack : AckFrame) (pairs : List (Nat × Nat)) : Prop :=
  let ranges := ranges_of ack.largest_ack ack.first_ack_range pairs
  let acked := t.entries.filter fun pkt => Acked level ranges pkt
  let (result, t') := t.on_ack_received level ack.largest_ack ack.first_ack_range (pairs.take MAX_PAIRS)
  t'.entries.Perm (t.entries.filter fun pkt => ¬Acked level ranges pkt) ∧
    result.newly_acked.Perm acked ∧ IsLargest result.largest_newly_acked acked

/-- The ranges the connection does not look at. -/
def ranges_left_out (ack : AckFrame) (pairs : List (Nat × Nat)) : List (Int × Int) :=
  (ranges_of ack.largest_ack ack.first_ack_range pairs).drop (MAX_PAIRS + 1)

theorem acked_split (level : Level) (ack : AckFrame) (pairs : List (Nat × Nat)) (pkt : SentPacket) :
    Acked level (ranges_of ack.largest_ack ack.first_ack_range pairs) pkt ↔
      Acked level (ranges_of ack.largest_ack ack.first_ack_range (pairs.take MAX_PAIRS)) pkt ∨
      Acked level (ranges_left_out ack pairs) pkt := by
  have htake : ranges_of ack.largest_ack ack.first_ack_range (pairs.take MAX_PAIRS) =
      (ranges_of ack.largest_ack ack.first_ack_range pairs).take (MAX_PAIRS + 1) := by
    rw [ranges_of, encoded_ranges_take]
    rfl
  rw [htake]
  simp only [Acked, ranges_left_out, ← and_or_left, ← or_and_right, ← exists_or, ← List.mem_append,
    List.take_append_drop]

theorem acked_apart {level : Level} {ack : AckFrame} {pairs : List (Nat × Nat)} {pkt : SentPacket}
    (h : Acked level (ranges_of ack.largest_ack ack.first_ack_range (pairs.take MAX_PAIRS)) pkt) :
    ¬Acked level (ranges_left_out ack pairs) pkt := by
  obtain ⟨-, r, hr, hlow, -⟩ := h
  rintro ⟨-, r', hr', -, hhigh⟩
  have hdescend := ranges_of_descend ack.largest_ack ack.first_ack_range pairs
  rw [← List.take_append_drop (MAX_PAIRS + 1) (ranges_of ack.largest_ack ack.first_ack_range pairs)]
    at hdescend
  have htake : r ∈ (ranges_of ack.largest_ack ack.first_ack_range pairs).take (MAX_PAIRS + 1) := by
    rw [ranges_of, encoded_ranges_take] at hr
    exact hr
  have := (List.pairwise_append.mp hdescend).2.2 r htake r' hr'
  omega

/-- Processing is exact exactly if there are no more packets to report than fit, and no packet
lies in a range left out. -/
theorem exact_iff (t : SentPacketTracker) (level : Level) (ack : AckFrame) (pairs : List (Nat × Nat)) :
    Exact t level ack pairs ↔
      (t.entries.filter fun pkt =>
        Acked level (ranges_of ack.largest_ack ack.first_ack_range pairs) pkt).length ≤ 32 ∧
      ∀ pkt ∈ t.entries, ¬Acked level (ranges_left_out ack pairs) pkt := by
  have hsplit := drain_split (is_acked level ack.largest_ack ack.first_ack_range (pairs.take MAX_PAIRS))
    t.entries
  unfold Exact
  rw [on_ack_received_eq]
  rcases hdrain : drain (is_acked level ack.largest_ack ack.first_ack_range (pairs.take MAX_PAIRS))
    t.entries.length 0 t.entries with ⟨kept, removed⟩
  rw [hdrain] at hsplit
  dsimp only at hsplit ⊢
  obtain ⟨hremoved, hkept⟩ := hsplit
  constructor
  · rintro ⟨hrest, hnew, -⟩
    refine ⟨?_, fun pkt hpkt hlate => ?_⟩
    · rw [← hnew.length_eq, List.length_take]
      exact Nat.min_le_left _ _
    · -- A packet in a range left out stays in the tracker.
      have hstays : pkt ∈ kept := by
        refine hkept.mem_iff.mpr (List.mem_filter.mpr ⟨hpkt, ?_⟩)
        simp only [is_acked, Bool.not_eq_true', decide_eq_false_iff_not]
        exact fun hearly => acked_apart hearly hlate
      have hgone := (List.mem_filter.mp (hrest.mem_iff.mp hstays)).2
      simp only [decide_not, Bool.not_eq_true', decide_eq_false_iff_not] at hgone
      exact hgone ((acked_split level ack pairs pkt).mpr (.inr hlate))
  · rintro ⟨hfits, hnone⟩
    have hsame : ∀ pkt ∈ t.entries,
        is_acked level ack.largest_ack ack.first_ack_range (pairs.take MAX_PAIRS) pkt =
          decide (Acked level (ranges_of ack.largest_ack ack.first_ack_range pairs) pkt) := by
      intro pkt hpkt
      rw [is_acked, decide_eq_decide, acked_split level ack pairs]
      exact (or_iff_left (hnone pkt hpkt)).symm
    have hacked := List.filter_congr hsame
    have hothers : t.entries.filter (fun pkt =>
        !is_acked level ack.largest_ack ack.first_ack_range (pairs.take MAX_PAIRS) pkt) =
        t.entries.filter fun pkt =>
          ¬Acked level (ranges_of ack.largest_ack ack.first_ack_range pairs) pkt :=
      List.filter_congr fun pkt hpkt => by rw [hsame pkt hpkt, decide_not]
    rw [hacked] at hremoved
    rw [hothers] at hkept
    refine ⟨hkept, ?_, (later_is_largest removed).perm hremoved⟩
    rw [List.take_of_length_le (by rw [hremoved.length_eq]; exact hfits)]
    exact hremoved

/-- For every tracker and every ACK frame that decodes: its ranges can be read, the dispatch hands
the first 16 pairs to the tracker, and that is exact exactly if at most 32 tracked packets are
acknowledged and none of them lies in a range behind these. -/
theorem acks_are_exact_iff {B : Build} (c : Connection B) (level : Level) (now : Instant)
    {buf : Bytes} {ack : AckFrame} {consumed : Nat} (h : decode buf = .ok (.Ack ack, consumed)) :
    ∃ pairs, ack_range_pairs ack.ack_ranges.length ack.ack_ranges = .ok pairs ∧
      dispatch_frame level now (.Ack ack) c = (.ok (), on_ack level now ack (pairs.take MAX_PAIRS) c) ∧
      (Exact c.sent_tracker level ack pairs ↔
        (c.sent_tracker.entries.filter fun pkt =>
          Acked level (ranges_of ack.largest_ack ack.first_ack_range pairs) pkt).length ≤ 32 ∧
        ∀ pkt ∈ c.sent_tracker.entries, ¬Acked level (ranges_left_out ack pairs) pkt) := by
  obtain ⟨pairs, hpairs⟩ := decode_ack_paired h
  refine ⟨pairs, hpairs, ?_, exact_iff c.sent_tracker level ack pairs⟩
  simp only [dispatch_frame, handle_ack, Method.bind_run, Method.lift_run, hpairs, Method.modify_run]
  rfl

/-! ## Acknowledgements of a burst -/

/-- The first packets of a burst. -/
def burst (n : Nat) : SentPacketTracker :=
  ⟨(List.range n).map fun pn => ⟨pn, .Application, 1000 * (pn + 1), 1200, true, true⟩⟩

/-- Packet 5 and, below a gap, 1 and 2 are acknowledged. -/
theorem two_ranges_are_exact : Exact (burst 6) .Application ⟨5, 0, 0, [1, 1], none⟩ [(1, 1)] := by
  obtain ⟨pairs, hpairs, -, hexact⟩ := acks_are_exact_iff
    { standin.client .default_params with sent_tracker := burst 6 } .Application 7000
    (show decode [0x02, 5, 0, 1, 0, 1, 1] = .ok (.Ack ⟨5, 0, 0, [1, 1], none⟩, 7) from rfl)
  obtain rfl : [(1, 1)] = pairs := Except.ok.inj hpairs
  exact hexact.mpr (by decide)

/-- Of 33 packets that are acknowledged at once one is not reported. -/
theorem the_33rd_is_not_reported : ¬∀ (t : SentPacketTracker) (level : Level) (buf : Bytes)
    (ack : AckFrame) (consumed : Nat) (pairs : List (Nat × Nat)),
    decode buf = .ok (.Ack ack, consumed) →
    ack_range_pairs ack.ack_ranges.length ack.ack_ranges = .ok pairs → Exact t level ack pairs := by
  intro h
  have hexact := h (burst 33) .Application [0x02, 32, 0, 0, 32] ⟨32, 0, 32, [], none⟩ 5 [] rfl rfl
  have hfits := ((exact_iff _ _ _ _).mp hexact).1
  revert hfits
  decide

end milli_http.connection.ack_processing
