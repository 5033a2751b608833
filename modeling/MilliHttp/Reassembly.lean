-- Reassembly of a CRYPTO stream (connection/recv.rs): fragments of one byte string, in any order
-- and as often as may be, make up the string again. A fragment that needs a 17th range is
-- stored but not tracked.
import MilliHttp.Lib.Run
import MilliHttp.Lib.Spans
import MilliHttp.Connection.Trackers

open bytes spans run

namespace milli_http.connection.reassembly

open CryptoReassemblyBuf

/-! ## Merging -/

theorem merged_after {l : List (Nat × Nat)} {start stop b : Nat} (hl : ∀ a ∈ l, b < a.1)
    (hstart : b < start) : ∀ a ∈ merged start stop l, b < a.1 := by
  induction l generalizing start stop with
  | nil =>
    intro a ha
    cases List.mem_singleton.mp ha
    exact hstart
  | cons r l ih =>
    obtain ⟨s, e⟩ := r
    obtain ⟨hs, hrest⟩ := List.forall_mem_cons.mp hl
    unfold merged
    split
    · exact List.forall_mem_cons.mpr ⟨hstart, hl⟩
    · split
      · exact List.forall_mem_cons.mpr ⟨hs, ih hrest hstart⟩
      · exact ih hrest (by dsimp only at hs; omega)

theorem spaced_merged {l : List (Nat × Nat)} {start stop : Nat} (h : Spaced l) (hlt : start < stop) :
    Spaced (merged start stop l) := by
  induction l generalizing start stop with
  | nil => exact spaced_cons.mpr ⟨hlt, nofun, spaced_nil⟩
  | cons r l ih =>
    obtain ⟨s, e⟩ := r
    obtain ⟨hr, hbefore, hrest⟩ := spaced_cons.mp h
    unfold merged
    split
    · rename_i hgap
      refine spaced_cons.mpr ⟨hlt, fun a ha => ?_, h⟩
      rcases List.mem_cons.mp ha with rfl | ha
      · exact hgap
      · have := hbefore a ha
        dsimp only at this hr ⊢
        omega
    · split
      · rename_i hbelow
        exact spaced_cons.mpr ⟨hr, merged_after hbefore hbelow, ih hrest hlt⟩
      · exact ih hrest (by dsimp only at hr; omega)

theorem holds_merged {l : List (Nat × Nat)} {start stop : Nat} (h : Spaced l) (hlt : start < stop)
    (n : Nat) : Holds (merged start stop l) n ↔ Holds l n ∨ start ≤ n ∧ n < stop := by
  induction l generalizing start stop with
  | nil => simp [merged]
  | cons r l ih =>
    obtain ⟨s, e⟩ := r
    obtain ⟨hr, hbefore, hrest⟩ := spaced_cons.mp h
    dsimp only at hr
    unfold merged
    split
    · rw [holds_cons, or_comm]
    · split
      · rw [holds_cons, holds_cons, ih hrest hlt, or_assoc]
      · rename_i hover hunder
        have hunion : min start s ≤ n ∧ n < max stop e ↔ (start ≤ n ∧ n < stop) ∨ s ≤ n ∧ n < e := by
          omega
        rw [holds_cons, ih hrest (by omega), hunion]
        simp only [or_assoc, or_comm]

/-- Merging stays within the larger of the two ends. -/
theorem merged_within {l : List (Nat × Nat)} {start stop b : Nat} (hl : ∀ a ∈ l, a.2 ≤ b)
    (hstop : stop ≤ b) : ∀ a ∈ merged start stop l, a.2 ≤ b := by
  induction l generalizing start stop with
  | nil =>
    intro a ha
    cases List.mem_singleton.mp ha
    exact hstop
  | cons r l ih =>
    obtain ⟨s, e⟩ := r
    obtain ⟨he, hrest⟩ := List.forall_mem_cons.mp hl
    unfold merged
    split
    · exact List.forall_mem_cons.mpr ⟨hstop, hl⟩
    · split
      · exact List.forall_mem_cons.mpr ⟨he, ih hrest hstop⟩
      · exact ih hrest (by dsimp only at he; omega)

/-- Two ranges overlap or touch. -/
def Touches (a : Nat × Nat) (start stop : Nat) : Prop := a.1 ≤ stop ∧ start ≤ a.2

instance (a : Nat × Nat) (start stop : Nat) : Decidable (Touches a start stop) :=
  inferInstanceAs (Decidable (_ ∧ _))

theorem merged_length (start stop : Nat) (l : List (Nat × Nat)) :
    (merged start stop l).length ≤ l.length + 1 := by
  induction l generalizing start stop with
  | nil => exact Nat.le_refl 1
  | cons r l ih =>
    unfold merged
    split
    · exact Nat.le_refl _
    · split
      · simpa using ih start stop
      · exact Nat.le_trans (ih _ _) (by simp)

/-- A range that touches another takes no room of its own. -/
theorem merged_length_of_touches {start stop : Nat} {l : List (Nat × Nat)} (h : Spaced l)
    (htouches : ∃ a ∈ l, Touches a start stop) :
    (merged start stop l).length ≤ l.length := by
  induction l with
  | nil =>
    obtain ⟨a, ha, -⟩ := htouches
    cases ha
  | cons r l ih =>
    obtain ⟨s, e⟩ := r
    obtain ⟨hr, hbefore, hrest⟩ := spaced_cons.mp h
    obtain ⟨a, ha, hle, hge⟩ := htouches
    unfold merged
    split
    · -- All ranges start behind the new one.
      rename_i hgap
      rcases List.mem_cons.mp ha with rfl | ha
      · exact absurd hle (Nat.not_le.mpr hgap)
      · have := hbefore a ha
        dsimp only at this hr
        omega
    · split
      · rename_i hbelow
        rcases List.mem_cons.mp ha with rfl | ha
        · exact absurd hge (Nat.not_le.mpr hbelow)
        · simpa using ih hrest ⟨a, ha, hle, hge⟩
      · exact merged_length _ _ l

/-! ## Calls and what they bring -/

/-- A call on the buffer. -/
inductive Call where
  | insert (offset : Nat) (data : Bytes)
  | advance (n : Nat)
  deriving DecidableEq, Repr

/-- The buffer after a call. -/
def apply : Call → CryptoReassemblyBuf → CryptoReassemblyBuf
  | .insert offset data, r =>
    match r.insert offset data with
    | .ok r' => r'
    | .error _ => r
  | .advance n, r => r.advance n

/-- The calls the owner makes: fragments of `S` that are accepted, and `advance` over contiguous
data. -/
def Proper (S : Bytes) (r : CryptoReassemblyBuf) : Call → Prop
  | .insert offset data =>
    offset + data.length ≤ S.length ∧ data = (S.drop offset).take data.length ∧
      (r.insert offset data).toBool = true
  | .advance n => n ≤ r.contiguous_len

/-- The call is no `insert` that needs a 17th range. -/
def FindsRoom (r : CryptoReassemblyBuf) : Call → Prop
  | .insert offset data =>
    data = [] ∨ offset + data.length ≤ r.delivered ∨ r.ranges.length < 16 ∨
      ∃ a ∈ r.ranges, Touches a (offset - r.delivered) (offset + data.length - r.delivered)
  | .advance _ => True

instance (S : Bytes) (r : CryptoReassemblyBuf) (call : Call) : Decidable (Proper S r call) :=
  match call with
  | .insert _ _ => inferInstanceAs (Decidable (_ ∧ _ ∧ _))
  | .advance n => inferInstanceAs (Decidable (n ≤ r.contiguous_len))

instance (r : CryptoReassemblyBuf) (call : Call) : Decidable (FindsRoom r call) :=
  match call with
  | .insert _ _ => inferInstanceAs (Decidable (_ ∨ _ ∨ _ ∨ _))
  | .advance _ => isTrue trivial

/-- The call inserts the byte at stream offset `n`. -/
def Brings (n : Nat) : Call → Prop
  | .insert offset data => offset ≤ n ∧ n < offset + data.length
  | .advance _ => False

instance (n : Nat) (call : Call) : Decidable (Brings n call) :=
  match call with
  | .insert _ _ => inferInstanceAs (Decidable (_ ∧ _))
  | .advance _ => isFalse id

/-- The byte at stream offset `n` is inserted by one of the calls. -/
def Inserted (calls : List (CryptoReassemblyBuf × Call)) (n : Nat) : Prop :=
  ∃ x ∈ calls, Brings n x.2

instance (calls : List (CryptoReassemblyBuf × Call)) (n : Nat) : Decidable (Inserted calls n) :=
  inferInstanceAs (Decidable (∃ x ∈ calls, Brings n x.2))

/-- The longest run from `start` on of positions with the property has length `k`. -/
def LongestRun (P : Nat → Prop) (start k : Nat) : Prop :=
  (∀ i < k, P (start + i)) ∧ ¬P (start + k)

/-- The contiguous data is the part of `S` from the delivery frontier on that has been inserted
without a gap. -/
def Delivers (S : Bytes) (calls : List (CryptoReassemblyBuf × Call)) (r : CryptoReassemblyBuf) :
    Prop :=
  ∃ k, LongestRun (Inserted calls) r.delivered k ∧ r.delivered + k ≤ S.length ∧
    r.contiguous_data = (S.drop r.delivered).take k

theorem inserted_append {calls : List (CryptoReassemblyBuf × Call)} {r : CryptoReassemblyBuf}
    {call : Call} {n : Nat} :
    Inserted (calls ++ [(r, call)]) n ↔ Inserted calls n ∨ Brings n call := by
  simp [Inserted, or_and_right, exists_or]

/-! ## The invariant -/

/-- The ranges are the bytes inserted and not delivered yet, and the buffer holds them. -/
structure Faithful (S : Bytes) (calls : List (CryptoReassemblyBuf × Call))
    (r : CryptoReassemblyBuf) : Prop where
  spaced : Spaced r.ranges
  few : r.ranges.length ≤ 16
  within : ∀ a ∈ r.ranges, a.2 ≤ r.buf.length
  tracked : ∀ n, Holds r.ranges n ↔ Inserted calls (r.delivered + n)
  stored : ∀ n, Holds r.ranges n → r.buf[n]? = S[r.delivered + n]?
  known : ∀ n, Inserted calls n → n < S.length
  frontier : r.delivered ≤ S.length

theorem contiguous_len_eq (r : CryptoReassemblyBuf) : r.contiguous_len = front r.ranges := by
  unfold contiguous_len front
  rfl

theorem faithful_new (S : Bytes) (N : Nat) : Faithful S [] (.new N) where
  spaced := spaced_nil
  few := Nat.zero_le 16
  within := nofun
  tracked n := by simp [new, Inserted]
  stored n h := absurd h (not_holds_nil n)
  known n h := by simp [Inserted] at h
  frontier := Nat.zero_le S.length

theorem Faithful.delivers {S : Bytes} {calls : List (CryptoReassemblyBuf × Call)}
    {r : CryptoReassemblyBuf} (h : Faithful S calls r) : Delivers S calls r := by
  have hfrontier := h.frontier
  obtain ⟨hheld, hmissing⟩ := h.spaced.front
  rw [← contiguous_len_eq] at hheld hmissing
  refine ⟨r.contiguous_len, ⟨fun i hi => (h.tracked i).mp (hheld i hi), ?_⟩, ?_, ?_⟩
  · rwa [← h.tracked]
  · -- The last byte of the run has been inserted, so it is a byte of `S`.
    rcases Nat.eq_zero_or_pos r.contiguous_len with hzero | hpos
    · omega
    · have hlast := h.known _ ((h.tracked _).mp (hheld (r.contiguous_len - 1) (by omega)))
      omega
  · refine List.ext_getElem? fun i => ?_
    rw [contiguous_data, List.getElem?_take, List.getElem?_take, List.getElem?_drop]
    by_cases hi : i < r.contiguous_len
    · rw [if_pos hi, if_pos hi, h.stored i (hheld i hi)]
    · rw [if_neg hi, if_neg hi]

/-! ## Inserting -/

/-- What a write leaves at each position. -/
theorem getElem?_overwrite {dst src : Bytes} {pos : Nat} (h : pos + src.length ≤ dst.length)
    (n : Nat) :
    (overwrite dst pos src)[n]? =
      if pos ≤ n ∧ n < pos + src.length then src[n - pos]? else dst[n]? := by
  have htake : (dst.take pos).length = pos := List.length_take_of_le (by omega)
  unfold overwrite
  rcases Nat.lt_or_ge n pos with hlt | hge
  · rw [if_neg (by omega), List.append_assoc, List.getElem?_append_left (by omega),
      List.getElem?_take, if_pos hlt]
  · rw [List.append_assoc, List.getElem?_append_right (by omega), htake]
    rcases Nat.lt_or_ge (n - pos) src.length with hin | hout
    · rw [if_pos (by omega), List.getElem?_append_left hin]
    · rw [if_neg (by omega), List.getElem?_append_right hout, List.getElem?_drop]
      congr 1
      omega

/-- A fragment has the bytes of the string at its place. -/
theorem getElem?_fragment {S data : Bytes} {offset n : Nat}
    (h : data = (S.drop offset).take data.length) (hle : offset ≤ n)
    (hlt : n < offset + data.length) : data[n - offset]? = S[n]? := by
  rw [h, List.getElem?_take, if_pos (by omega), List.getElem?_drop, Nat.add_sub_cancel' hle]

variable {S : Bytes} {calls : List (CryptoReassemblyBuf × Call)} {r r' : CryptoReassemblyBuf}
  {offset : Nat} {data : Bytes}

/-- An `insert` that is empty or all delivered already changes nothing. -/
theorem insert_stale (h : data = [] ∨ offset + data.length ≤ r.delivered) :
    r.insert offset data = .ok r := by
  unfold CryptoReassemblyBuf.insert
  by_cases hdata : data = []
  · rw [if_pos hdata]
  · rw [if_neg hdata, if_pos (h.resolve_left hdata)]

/-- Any other `insert` that is accepted and whose range fits in the list writes the part behind
the frontier and merges its range. -/
theorem insert_eq (h : r.insert offset data = .ok r') (hdata : data ≠ [])
    (hnew : r.delivered < offset + data.length)
    (hfits : (merged (offset - r.delivered) (offset + data.length - r.delivered)
      r.ranges).length ≤ 16) :
    offset + data.length - r.delivered ≤ r.buf.length ∧
      r' = {
        buf := overwrite r.buf (offset - r.delivered) (data.drop (r.delivered - offset))
        delivered := r.delivered
        ranges := merged (offset - r.delivered) (offset + data.length - r.delivered) r.ranges } := by
  have hstart : offset + (r.delivered - offset) - r.delivered = offset - r.delivered := by omega
  have hend : offset - r.delivered + (data.length - (r.delivered - offset)) =
      offset + data.length - r.delivered := by
    omega
  rw [CryptoReassemblyBuf.insert, if_neg hdata, if_neg (Nat.not_le.mpr hnew)] at h
  dsimp only at h
  rw [hstart, List.length_drop, hend] at h
  split at h
  · cases h
  · simp only [merge_range, if_pos hfits] at h
    cases h
    exact ⟨Nat.le_of_not_lt ‹_›, rfl⟩

theorem FindsRoom.fits (h : FindsRoom r (.insert offset data)) (hr : Spaced r.ranges)
    (hfew : r.ranges.length ≤ 16) (hdata : data ≠ []) (hnew : r.delivered < offset + data.length) :
    (merged (offset - r.delivered) (offset + data.length - r.delivered) r.ranges).length ≤ 16 := by
  rcases h with h | h | h | h
  · exact absurd h hdata
  · exact absurd h (Nat.not_le.mpr hnew)
  · exact Nat.le_trans (merged_length _ _ _) h
  · exact Nat.le_trans (merged_length_of_touches hr h) hfew

theorem Faithful.insert (h : Faithful S calls r) (hproper : Proper S r (.insert offset data))
    (hroom : FindsRoom r (.insert offset data)) :
    Faithful S (calls ++ [(r, .insert offset data)]) (apply (.insert offset data) r) := by
  obtain ⟨hin, hpart, haccepted⟩ := hproper
  have hknown : ∀ n, Inserted (calls ++ [(r, .insert offset data)]) n → n < S.length := by
    intro n hn
    rcases inserted_append.mp hn with hn | ⟨-, hlt⟩
    · exact h.known n hn
    · omega
  by_cases hstale : data = [] ∨ offset + data.length ≤ r.delivered
  · have hsame : apply (.insert offset data) r = r := by simp only [apply, insert_stale hstale]
    rw [hsame]
    refine ⟨h.spaced, h.few, h.within, fun n => ?_, fun n hn => h.stored n hn, hknown, h.frontier⟩
    rw [h.tracked, inserted_append, iff_self_or]
    rintro ⟨hle, hlt⟩
    rcases hstale with rfl | hstale
    · rw [List.length_nil] at hlt
      omega
    · omega
  · obtain ⟨hdata, hnew⟩ := not_or.mp hstale
    replace hnew := Nat.lt_of_not_le hnew
    cases hr' : r.insert offset data with
    | error e =>
      rw [hr'] at haccepted
      cases haccepted
    | ok r' =>
      have hfits := hroom.fits h.spaced h.few hdata hnew
      obtain ⟨hbuf, heq⟩ := insert_eq hr' hdata hnew hfits
      have happly : apply (.insert offset data) r = r' := by simp only [apply, hr']
      have hpos : 0 < data.length := List.length_pos_iff.mpr hdata
      have hlt : offset - r.delivered < offset + data.length - r.delivered := by omega
      -- What is behind the frontier of the new fragment.
      have hbrings : ∀ n, Brings (r.delivered + n) (.insert offset data) ↔
          offset - r.delivered ≤ n ∧ n < offset + data.length - r.delivered := by
        intro n
        unfold Brings
        dsimp only
        omega
      have hlen : offset - r.delivered + (data.drop (r.delivered - offset)).length =
          offset + data.length - r.delivered := by
        rw [List.length_drop]
        omega
      rw [happly, heq]
      refine ⟨spaced_merged h.spaced hlt, hfits, ?_, fun n => ?_, fun n hn => ?_, hknown,
        h.frontier⟩
      · dsimp only
        rw [overwrite_length (by omega)]
        exact merged_within h.within hbuf
      · rw [holds_merged h.spaced hlt, h.tracked, inserted_append, hbrings]
      · dsimp only
        rw [getElem?_overwrite (by omega), hlen]
        split
        · rename_i hwritten
          rw [List.getElem?_drop,
            ← getElem?_fragment hpart (n := r.delivered + n) (by omega) (by omega)]
          congr 1
          omega
        · rename_i hkept
          exact h.stored n (((holds_merged h.spaced hlt n).mp hn).resolve_right hkept)

/-! ## Advancing -/

/-- The ranges are counted from the new frontier on. -/
theorem advance_ranges (r : CryptoReassemblyBuf) (n : Nat) :
    (r.advance n).ranges = shift n r.ranges := by
  unfold advance shift
  dsimp only
  congr 1
  funext ⟨s, e⟩
  dsimp only
  split
  · rfl
  · split
    · rename_i hs
      rw [Nat.sub_eq_zero_of_le (Nat.le_of_lt hs)]
    · rfl

theorem Faithful.advance {n : Nat} (h : Faithful S calls r) (hproper : Proper S r (.advance n)) :
    Faithful S (calls ++ [(r, .advance n)]) (apply (.advance n) r) := by
  have hsame : ∀ i, Inserted (calls ++ [(r, .advance n)]) i ↔ Inserted calls i := by
    intro i
    rw [inserted_append]
    exact or_iff_left id
  have hcontiguous : n ≤ r.contiguous_len := hproper
  have hn : n ≤ r.buf.length ∧ r.delivered + n ≤ S.length := by
    have hfrontier := h.frontier
    rcases Nat.eq_zero_or_pos n with rfl | hpos
    · exact ⟨Nat.zero_le _, hfrontier⟩
    · -- The byte before the new frontier has been inserted.
      have hlast := h.spaced.front.1 (n - 1) (by rw [← contiguous_len_eq]; omega)
      have hknown := h.known _ ((h.tracked _).mp hlast)
      obtain ⟨a, ha, -, hlt⟩ := hlast
      have := h.within a ha
      omega
  obtain ⟨hbuf, hfrontier⟩ := hn
  show Faithful S _ (r.advance n)
  refine ⟨?_, ?_, ?_, fun i => ?_, fun i hi => ?_, fun i hi => h.known i ((hsame i).mp hi),
    hfrontier⟩
  · rw [advance_ranges]
    exact h.spaced.shift n
  · exact Nat.le_trans (List.length_filterMap_le _ _) h.few
  · intro a ha
    rw [advance_ranges] at ha
    obtain ⟨b, hb, hlt, rfl⟩ := mem_shift.mp ha
    have := h.within b hb
    simp only [CryptoReassemblyBuf.advance, List.length_append, List.length_drop,
      List.length_replicate]
    omega
  · rw [advance_ranges, holds_shift, h.tracked, hsame, ← Nat.add_assoc]
    rfl
  · rw [advance_ranges, holds_shift] at hi
    obtain ⟨b, hb, hle, hlt⟩ := id hi
    have := h.within b hb
    have hstored := h.stored _ hi
    simp only [CryptoReassemblyBuf.advance]
    rw [List.getElem?_append_left (by rw [List.length_drop]; omega), List.getElem?_drop, hstored,
      Nat.add_assoc]

/-! ## Runs -/

/-- Fragments of a string in any order and as often as may be, none of which needs a 17th range,
with `advance` over contiguous data between them: the contiguous data is what has been inserted
from the delivery frontier on without a gap, at every point. -/
theorem fragments_make_up_the_string {N : Nat} {run : List Call}
    (hproper : Along apply (Proper S) (.new N) run) (hroom : Along apply FindsRoom (.new N) run) :
    Always apply (Delivers S) (.new N) run := by
  intro pre hpre
  have hboth : Along apply (fun r call => Proper S r call ∧ FindsRoom r call) (.new N) pre :=
    fun x hx => ⟨hproper.upto hpre x hx, hroom.upto hpre x hx⟩
  refine Faithful.delivers (history (Faithful S) ?_ hboth (faithful_new S N))
  rintro calls r call ⟨hproper, hroom⟩ h
  cases call with
  | insert offset data => exact h.insert hproper hroom
  | advance n => exact h.advance hproper

/-- Two fragments in the wrong order, one of them twice, and an `advance` between. -/
theorem two_fragments_make_up_the_string :
    Always apply (Delivers [1, 2, 3, 4]) (.new 8)
      [.insert 2 [3, 4], .insert 0 [1, 2, 3], .advance 3, .insert 2 [3, 4]] :=
  fragments_make_up_the_string (by decide +kernel) (by decide +kernel)

/-- Every other byte of a string of 33 from the last to the first. -/
def every_other : List Call := (List.range 17).map fun i => .insert (2 * (16 - i)) [7]

/-- The 17th separate range is stored but not tracked: the data at the frontier is never
reported, though it has been inserted. -/
theorem the_17th_range_is_lost :
    Along apply (Proper (List.replicate 33 7)) (.new 64) every_other ∧
      ¬Always apply (Delivers (List.replicate 33 7)) (.new 64) every_other := by
  refine ⟨by decide +kernel, fun h => ?_⟩
  obtain ⟨k, ⟨-, hmissing⟩, hk, hdata⟩ := h every_other (List.prefix_refl every_other)
  have hnone : (final apply (.new 64) every_other).contiguous_data = [] := by decide +kernel
  have hstart : (final apply (.new 64) every_other).delivered = 0 := by decide +kernel
  have hfirst : Inserted (trace apply (.new 64) every_other) 0 := by decide +kernel
  rw [hstart, Nat.zero_add] at hmissing hk
  rw [hnone, hstart, List.drop_zero] at hdata
  rcases Nat.eq_zero_or_pos k with rfl | hpos
  · exact hmissing hfirst
  · have hlen := congrArg List.length hdata
    rw [List.length_take, List.length_replicate, List.length_nil] at hlen
    rw [List.length_replicate] at hk
    omega

end milli_http.connection.reassembly
