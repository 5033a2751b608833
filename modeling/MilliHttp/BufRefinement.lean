-- The byte buffer as a pair of lists, what is visible and what is hidden: every call does the same
-- to both, on either kind of storage.
import MilliHttp.Buf

open bytes

namespace milli_http.buf

open Buf

/-! ## How a buffer holds two lists -/

inductive Backing where
  | heap
  | static
  deriving DecidableEq, Repr

/-- What is visible, then what is hidden, then what a fixed slice has behind them. -/
inductive Holds (N : Nat) : Backing → Buf → Lists → Prop
  | heap {v h : Bytes} {capacity : Nat} (hsize : v.length + h.length ≤ N) :
    Holds N .heap ⟨.Heap (v ++ h) capacity, h.length⟩ ⟨v, h⟩
  | static {v h slack : Bytes} (hsize : v.length + h.length ≤ N)
    (hmem : N ≤ v.length + h.length + slack.length) :
    Holds N .static ⟨.Static (v ++ h ++ slack) (v.length + h.length), h.length⟩ ⟨v, h⟩

/-- The buffer is on the heap, and not every allocation is granted. -/
def Starved (k : Backing) (grants : Grants) : Prop := k = .heap ∧ ∃ size, grants size = false

variable {N : Nat} {k : Backing} {grants : Grants} {b b' : Buf} {p p' : Lists} {data : Bytes}

theorem Holds.size_le (h : Holds N k b p) : p.size ≤ N := by
  cases h with
  | heap hsize => exact hsize
  | static hsize _ => exact hsize

theorem Holds.len_eq (h : Holds N k b p) : b.len = p.visible.length := by
  cases h with
  | heap _ => simp [len, phys_len]
  | static _ _ => simp [len, phys_len]

theorem Holds.hidden_eq (h : Holds N k b p) : b.hidden = p.hidden.length := by
  cases h <;> rfl

theorem Holds.as_slice_eq (h : Holds N k b p) : b.as_slice = p.visible := by
  have hlen := h.len_eq
  cases h with
  | heap _ => rw [as_slice, hlen]; exact List.take_left' rfl
  | static _ _ =>
    rw [as_slice, hlen]
    dsimp only
    rw [List.append_assoc]
    exact List.take_left' rfl

/-- Both kinds of storage show and hide the same bytes, whatever else they have. -/
theorem heap_of_eq {v vis hid : Bytes} {capacity hidden : Nat} (hv : v = vis ++ hid)
    (hhidden : hidden = hid.length) (hsize : vis.length + hid.length ≤ N) :
    Holds N .heap ⟨.Heap v capacity, hidden⟩ ⟨vis, hid⟩ := by
  subst hv hhidden
  exact .heap hsize

theorem static_of_eq {mem vis hid : Bytes} {len hidden : Nat} (slack : Bytes)
    (hmem : mem = vis ++ hid ++ slack) (hlen : len = vis.length + hid.length)
    (hhidden : hidden = hid.length) (hsize : vis.length + hid.length ≤ N)
    (hroom : N ≤ mem.length) : Holds N .static ⟨.Static mem len, hidden⟩ ⟨vis, hid⟩ := by
  subst hmem hlen hhidden
  refine .static hsize ?_
  rw [List.length_append, List.length_append] at hroom
  exact hroom

/-! ## One call -/

/-- The last visible bytes go, and what is hidden moves up. -/
theorem truncate_gone {keep gone hid : Bytes} (h : Holds N k b ⟨keep ++ gone, hid⟩)
    (hgone : gone ≠ []) : ∃ b', b.truncate keep.length = .ok b' ∧ Holds N k b' ⟨keep, hid⟩ := by
  have hlen := h.len_eq
  have hshort : ¬ keep.length ≥ b.len := by
    have := List.length_pos_of_ne_nil hgone
    rw [hlen, List.length_append]
    omega
  rw [truncate, if_neg hshort, hlen]
  cases h with
  | @heap _ _ capacity hsize =>
    obtain ⟨rest, hmove, -⟩ : ∃ rest, (_ : Outcome Unit Bytes) = .ok (keep ++ hid ++ rest) ∧ _ :=
      move_up keep gone hid []
    rw [List.append_nil] at hmove
    rw [List.length_append] at hsize
    dsimp only
    rw [hmove]
    refine ⟨_, rfl, heap_of_eq ?_ rfl (by omega)⟩
    rw [← List.length_append]
    exact List.take_left' rfl
  | @static _ _ slack hsize hmem =>
    obtain ⟨rest, hmove, hrest⟩ :
        ∃ rest, (_ : Outcome Unit Bytes) = .ok (keep ++ hid ++ rest) ∧ _ :=
      move_up keep gone hid slack
    rw [List.length_append] at hsize hmem
    dsimp only
    rw [hmove]
    refine ⟨_, rfl, static_of_eq _ rfl rfl rfl (by omega) ?_⟩
    rw [List.length_append, List.length_append, hrest]
    omega

theorem truncate_holds (h : Holds N k b p) (len : Nat) :
    ∃ b', b.truncate len = .ok b' ∧ Holds N k b' { p with visible := p.visible.take len } := by
  by_cases hall : p.visible.length ≤ len
  · refine ⟨b, if_pos (by rw [h.len_eq]; exact hall), ?_⟩
    rw [List.take_of_length_le hall]
    exact h
  · have htake : (p.visible.take len).length = len := by
      rw [List.length_take]
      omega
    have hgone : p.visible.drop len ≠ [] := by
      rw [Ne, List.drop_eq_nil_iff]
      exact hall
    have hsplit : Holds N k b ⟨p.visible.take len ++ p.visible.drop len, p.hidden⟩ := by
      rw [List.take_append_drop]
      exact h
    have hcut := truncate_gone hsplit hgone
    rwa [htake] at hcut

/-- A vector that grows keeps its bytes, unless its allocation is refused. -/
theorem reserve_heap (N : Nat) (grants : Grants) (v : Bytes) (capacity hidden additional : Nat) :
    (∃ capacity', reserve_clamped N grants ⟨.Heap v capacity, hidden⟩ additional =
        .ok ⟨.Heap v capacity', hidden⟩) ∨
      (reserve_clamped N grants ⟨.Heap v capacity, hidden⟩ additional = .panic ∧
        ∃ size, grants size = false) := by
  rw [reserve_clamped]
  dsimp only
  split
  · exact .inl ⟨_, rfl⟩
  split
  · exact .inl ⟨_, rfl⟩
  split
  · exact .inl ⟨_, rfl⟩
  next hrefused => exact .inr ⟨rfl, _, Bool.eq_false_iff.mpr hrefused⟩

/-- Bytes go behind the visible ones, as long as all fit. -/
theorem extend_holds (grants : Grants) (h : Holds N k b p)
    (hfits : p.size + data.length ≤ N) :
    (∃ b', b.extend_from_slice N grants data = .ok b' ∧
        Holds N k b' { p with visible := p.visible ++ data }) ∨
      (b.extend_from_slice N grants data = .panic ∧ Starved k grants) := by
  have hlen := h.len_eq
  cases h with
  | @heap vis hid capacity hsize =>
    rw [Lists.size] at hfits
    dsimp only at hfits
    have hphys : phys_len ⟨.Heap (vis ++ hid) capacity, hid.length⟩ = vis.length + hid.length :=
      List.length_append
    have hroom : ¬ phys_len ⟨.Heap (vis ++ hid) capacity, hid.length⟩ + data.length > N := by
      omega
    rw [extend_from_slice]
    dsimp only
    rw [if_neg hroom]
    rcases reserve_heap N grants (vis ++ hid) capacity hid.length data.length with
      ⟨capacity', hgrown⟩ | ⟨hpanic, hrefused⟩
    · refine .inl ?_
      rw [hgrown, Outcome.ok_bind]
      dsimp only
      have hat : (vis ++ hid ++ data).length - hid.length - data.length = vis.length := by
        rw [List.length_append, List.length_append]
        omega
      have hholds : Holds N .heap ⟨.Heap (vis ++ data ++ hid) capacity', hid.length⟩
          ⟨vis ++ data, hid⟩ :=
        heap_of_eq rfl rfl (by rw [List.length_append]; omega)
      split
      · rw [hat, rotate_left_from_ok]
        exact ⟨_, rfl, hholds⟩
      next hstill =>
        refine ⟨_, rfl, ?_⟩
        rcases Nat.eq_zero_or_pos hid.length with hnone | hsome
        · rw [List.eq_nil_of_length_eq_zero hnone, List.append_nil] at hholds ⊢
          exact hholds
        · have hdata : data = [] := by
            by_contra hne
            exact hstill ⟨hsome, hne⟩
          simp only [hdata, List.append_nil] at hholds ⊢
          exact hholds
    · refine .inr ⟨?_, rfl, hrefused⟩
      rw [hpanic]
      rfl
  | @static vis hid slack hsize hmem =>
    refine .inl ?_
    rw [Lists.size] at hfits
    dsimp only at hfits
    have hcap : ¬ vis.length + hid.length + data.length > min N (vis ++ hid ++ slack).length := by
      rw [List.length_append, List.length_append]
      omega
    obtain ⟨moved, hmove, hmoved, hput⟩ :
        ∃ moved, (_ : Outcome Unit Bytes) = .ok moved ∧ _ ∧ _ :=
      room_made vis hid slack data (by omega)
    have hin : vis.length + data.length ≤ moved.length := by
      rw [hmoved, List.length_append, List.length_append]
      omega
    rw [extend_from_slice]
    dsimp only
    rw [if_neg hcap, Nat.add_sub_cancel, hmove, Outcome.ok_bind, if_pos hin, hput]
    refine ⟨_, rfl, static_of_eq _ rfl ?_ rfl ?_ ?_⟩
    · rw [List.length_append]
      omega
    · rw [List.length_append]
      omega
    · simp only [List.length_append, List.length_drop]
      omega

/-- Bytes that do not fit are refused, on either kind of storage. -/
theorem extend_refused (h : Holds N k b p) (hfull : p.size + data.length > N) :
    b.extend_from_slice N grants data = .err () := by
  rw [Lists.size] at hfull
  cases h with
  | @heap vis hid capacity hsize =>
    have hphys : phys_len ⟨.Heap (vis ++ hid) capacity, hid.length⟩ = vis.length + hid.length :=
      List.length_append
    rw [extend_from_slice]
    exact if_pos (by rw [hphys]; exact hfull)
  | static hsize hmem =>
    rw [extend_from_slice]
    exact if_pos (Nat.lt_of_le_of_lt (Nat.min_le_left _ _) hfull)

/-- The caller of a mutable slice writes to what is visible. -/
theorem write_holds {w : Bytes → Outcome Unit Bytes} {visible : Bytes} (h : Holds N k b p)
    (hwrite : w p.visible = .ok visible) (hkeeps : visible.length = p.visible.length) :
    ∃ b', b.as_mut_slice w = .ok b' ∧ Holds N k b' { p with visible := visible } := by
  have hlen := h.len_eq
  rw [as_mut_slice, hlen]
  cases h with
  | heap hsize =>
    dsimp only at hwrite hkeeps ⊢
    rw [List.take_left' rfl, List.drop_left' rfl, hwrite, Outcome.ok_bind]
    exact ⟨_, rfl, heap_of_eq rfl rfl (by omega)⟩
  | static hsize hmem =>
    dsimp only at hwrite hkeeps ⊢
    rw [List.append_assoc, List.take_left' rfl, List.drop_left' rfl, hwrite, Outcome.ok_bind,
      ← List.append_assoc]
    refine ⟨_, rfl, static_of_eq _ rfl (by omega) rfl (by omega) ?_⟩
    rw [List.length_append, List.length_append]
    omega

theorem write_panics {w : Bytes → Outcome Unit Bytes} (h : Holds N k b p)
    (hwrite : w p.visible = .panic) : b.as_mut_slice w = .panic := by
  have hlen := h.len_eq
  rw [as_mut_slice, hlen]
  cases h with
  | heap hsize =>
    dsimp only at hwrite ⊢
    rw [List.take_left' rfl, hwrite]
    rfl
  | static hsize hmem =>
    dsimp only at hwrite ⊢
    rw [List.append_assoc, List.take_left' rfl, hwrite]
    rfl

theorem hide_holds (h : Holds N k b p) {n : Nat} (hn : n ≤ p.visible.length) :
    b.hide_tail n = .ok { b with hidden := b.hidden + n } ∧
      Holds N k { b with hidden := b.hidden + n }
        { visible := p.visible.take (p.visible.length - n)
          hidden := p.visible.drop (p.visible.length - n) ++ p.hidden } := by
  refine ⟨if_pos (by rw [h.len_eq]; exact hn), ?_⟩
  cases h with
  | @heap vis hid capacity hsize =>
    refine heap_of_eq ?_ ?_ ?_
    · rw [← List.append_assoc, List.take_append_drop]
    · rw [List.length_append, List.length_drop]
      dsimp only at hn ⊢
      omega
    · rw [List.length_append, List.length_drop, List.length_take]
      dsimp only at hn ⊢
      omega
  | @static vis hid slack hsize hmem =>
    refine static_of_eq slack ?_ ?_ ?_ ?_ ?_
    · rw [← List.append_assoc, List.take_append_drop]
    · rw [List.length_append, List.length_drop, List.length_take]
      dsimp only at hn ⊢
      omega
    · rw [List.length_append, List.length_drop]
      dsimp only at hn ⊢
      omega
    · rw [List.length_append, List.length_drop, List.length_take]
      dsimp only at hn ⊢
      omega
    · rw [List.length_append, List.length_append]
      exact hmem

theorem unhide_holds (h : Holds N k b p) :
    Holds N k b.unhide_tail.1 { visible := p.visible ++ p.hidden, hidden := [] } := by
  cases h with
  | heap hsize =>
    refine heap_of_eq (List.append_nil _).symm rfl ?_
    rw [List.length_append]
    exact hsize
  | @static vis hid slack hsize hmem =>
    refine static_of_eq slack (by rw [List.append_nil]) ?_ rfl ?_ ?_
    · rw [List.length_append]
      rfl
    · rw [List.length_append]
      exact hsize
    · rw [List.length_append, List.length_append]
      exact hmem

theorem clear_holds (h : Holds N k b p) : Holds N k b.clear Lists.empty := by
  cases h with
  | heap _ => exact heap_of_eq rfl rfl (Nat.zero_le _)
  | static _ hmem =>
    refine static_of_eq _ rfl rfl rfl (Nat.zero_le _) ?_
    rw [List.length_append, List.length_append]
    exact hmem

/-- Bytes drained from the front: the others move forward, and the end is cut off. -/
theorem drain_holds (h : Holds N k b p) {n : Nat} (hn : n ≤ p.visible.length) :
    ∃ b', b.buf_drain_front n = .ok b' ∧ Holds N k b' { p with visible := p.visible.drop n } := by
  have hgone : (p.visible.take n).length = n := by
    rw [List.length_take]
    omega
  have hkeep : (p.visible.drop n).length = p.visible.length - n := List.length_drop
  have hcopy : (copy_within p.visible n p.visible.length 0 : Outcome Unit Bytes) =
      .ok (p.visible.drop n ++ p.visible.drop (p.visible.length - n)) := by
    rw [bytes.copy_within, if_pos (by omega), List.take_of_length_le (by omega), overwrite, hkeep,
      List.take_zero, List.nil_append, Nat.zero_add]
  obtain ⟨b', hb', hmoved⟩ := write_holds h
    (w := fun slice => copy_within slice n slice.length 0) hcopy (copy_within_length hcopy)
  obtain ⟨b'', hb'', hcut⟩ := truncate_holds hmoved (b.len - n)
  refine ⟨b'', ?_, ?_⟩
  · rw [buf_drain_front, hb', Outcome.ok_bind, hb'']
  · rw [h.len_eq, List.take_left' hkeep] at hcut
    exact hcut

/-- A capacity that changes is not seen. -/
theorem try_reserve_holds (grants : Grants) (h : Holds N k b p) (additional : Nat) :
    Holds N k (b.try_reserve N grants additional).1 p ∧
      ((b.try_reserve N grants additional).2 = true ∨ Starved k grants) := by
  cases h with
  | heap hsize =>
    rw [try_reserve]
    dsimp only
    split
    · exact ⟨.heap hsize, .inl rfl⟩
    split
    · exact ⟨.heap hsize, .inl rfl⟩
    next hfirst =>
    refine ⟨.heap hsize, .inr ⟨rfl, ?_⟩⟩
    unfold try_reserve_exact at hfirst
    split at hfirst
    · cases hfirst
    split at hfirst
    · cases hfirst
    next hrefused => exact ⟨_, Bool.eq_false_iff.mpr hrefused⟩
  | static hsize hmem => exact ⟨.static hsize hmem, .inl rfl⟩

theorem shrink_to_holds (h : Holds N k b p) (min_capacity : Nat) :
    Holds N k (b.shrink_to grants min_capacity) p := by
  cases h with
  | @heap vis hid capacity hsize =>
    rw [shrink_to]
    dsimp only
    split
    · exact .heap hsize
    split
    next hnil => exact heap_of_eq hnil.symm rfl hsize
    split <;> exact .heap hsize
  | static hsize hmem => exact .static hsize hmem

theorem shrink_to_fit_holds (grants : Grants) (h : Holds N k b p) :
    (∃ b', b.shrink_to_fit grants = .ok b' ∧ Holds N k b' p) ∨
      (b.shrink_to_fit grants = .panic ∧ Starved k grants) := by
  cases h with
  | heap hsize =>
    rw [shrink_to_fit]
    dsimp only
    split
    · exact .inl ⟨_, rfl, .heap hsize⟩
    split
    · exact .inl ⟨_, rfl, .heap hsize⟩
    next hrefused =>
      rw [not_or] at hrefused
      exact .inr ⟨rfl, rfl, _, Bool.eq_false_iff.mpr hrefused.2⟩
  | static hsize hmem => exact .inl ⟨_, rfl, .static hsize hmem⟩

/-! ## Every call -/

/-- The call ends for both, or for neither, with the same reply. -/
inductive Same (N : Nat) (k : Backing) : Option (Buf × Reply) → Option (Lists × Reply) → Prop
  | ends : Same N k none none
  | goes {b : Buf} {p : Lists} {r : Reply} (h : Holds N k b p) :
    Same N k (some (b, r)) (some (p, r))

/-- What an allocation that is refused can do: end the program, or make `try_reserve` fail. -/
inductive Excused (N : Nat) (k : Backing) (op : Op) :
    Option (Buf × Reply) → Option (Lists × Reply) → Prop
  | ends {y : Option (Lists × Reply)} : Excused N k op none y
  | refused {b : Buf} {p : Lists} {n : Nat} (hop : op = .try_reserve n) (h : Holds N k b p) :
    Excused N k op (some (b, .refused)) (some (p, .done))

theorem same_of_ok {x : Outcome Unit Buf} {failure : Reply}
    (h : ∃ b', x = .ok b' ∧ Holds N k b' p') :
    Same N k (answer b failure x) (some (p', .done)) := by
  obtain ⟨b', rfl, hb'⟩ := h
  exact .goes hb'

theorem extend_same (h : Holds N k b p) (data : Bytes) (failure : Reply) (op : Op) :
    Same N k (answer b failure (b.extend_from_slice N grants data))
        (some (p.extend N data failure)) ∨
      (Starved k grants ∧ Excused N k op (answer b failure (b.extend_from_slice N grants data))
        (some (p.extend N data failure))) := by
  rw [Lists.extend]
  split
  next hfull =>
    rw [extend_refused h hfull]
    exact .inl (.goes h)
  next hfits =>
    rcases extend_holds grants h (Nat.not_lt.mp hfits) with hok | ⟨hpanic, hstarved⟩
    · exact .inl (same_of_ok hok)
    · rw [hpanic]
      exact .inr ⟨hstarved, .ends⟩

/-- Every call does to the buffer what it does to the lists, but for an allocation refused. -/
theorem apply_same (grants : Grants) (h : Holds N k b p) (op : Op) :
    Same N k (b.apply N grants op) (p.apply N op) ∨
      (Starved k grants ∧ Excused N k op (b.apply N grants op) (p.apply N op)) := by
  cases op with
  | extend_from_slice data => exact extend_same h data .refused _
  | push byte => exact extend_same h [byte] (.returned byte) _
  | truncate len => exact .inl (same_of_ok (truncate_holds h len))
  | hide_tail n =>
    refine .inl ?_
    rw [apply, Lists.apply]
    split
    next hn => exact same_of_ok ⟨_, hide_holds h hn⟩
    next hn =>
      have hpanic : b.hide_tail n = .panic := if_neg (by rw [h.len_eq]; exact hn)
      rw [hpanic]
      exact .ends
  | unhide_tail =>
    refine .inl ?_
    have hcount : b.unhide_tail.2 = p.hidden.length := h.hidden_eq
    rw [apply, Lists.apply, hcount]
    exact .goes (unhide_holds h)
  | clear => exact .inl (.goes (clear_holds h))
  | write w => exact .inl (same_of_ok (write_holds h rfl (w.keeps _)))
  | copy_within lo hi dest =>
    refine .inl ?_
    rw [apply, Lists.apply]
    split
    next visible hcopy => exact same_of_ok (write_holds h hcopy (copy_within_length hcopy))
    next hfails =>
      have hpanic : (bytes.copy_within p.visible lo hi dest : Outcome Unit Bytes) = .panic := by
        unfold bytes.copy_within at hfails ⊢
        split
        next hin => exact absurd (if_pos hin) (hfails _)
        · rfl
      rw [write_panics h hpanic]
      exact .ends
  | buf_drain_front n =>
    refine .inl ?_
    rw [apply, Lists.apply]
    split
    next hn => exact same_of_ok (drain_holds h hn)
    next hn =>
      have hcopy : (copy_within p.visible n p.visible.length 0 : Outcome Unit Bytes) = .panic :=
        if_neg fun hin => hn hin.1
      rw [buf_drain_front,
        write_panics h (w := fun slice => copy_within slice n slice.length 0) hcopy]
      exact .ends
  | try_reserve n =>
    obtain ⟨hholds, hfits⟩ := try_reserve_holds grants h n
    rw [apply, Lists.apply]
    generalize b.try_reserve N grants n = x at hholds hfits
    obtain ⟨b', fits⟩ := x
    cases fits with
    | true => exact .inl (.goes hholds)
    | false =>
      rcases hfits with hfits | hstarved
      · cases hfits
      · exact .inr ⟨hstarved, .refused rfl hholds⟩
  | shrink_to min_capacity => exact .inl (.goes (shrink_to_holds h min_capacity))
  | shrink_to_fit =>
    rcases shrink_to_fit_holds grants h with hok | ⟨hpanic, hstarved⟩
    · exact .inl (same_of_ok hok)
    · rw [apply, hpanic]
      exact .inr ⟨hstarved, .ends⟩

end milli_http.buf
