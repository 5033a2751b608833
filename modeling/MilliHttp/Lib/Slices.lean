-- Bytes moved inside a slice: a copy onto another place of it, and a rotation of its tail.
import MilliHttp.Lib.Bytes

namespace bytes

variable {ε : Type} {a b c src tail : Bytes}

/-- `buf.copy_within(lo..hi, dest)`. -/
def copy_within (buf : Bytes) (lo hi dest : Nat) : Outcome ε Bytes :=
  if lo ≤ hi ∧ hi ≤ buf.length ∧ dest + (hi - lo) ≤ buf.length then
    .ok (overwrite buf dest ((buf.drop lo).take (hi - lo)))
  else .panic

/-- `buf[pos..].rotate_left(mid)`. -/
def rotate_left_from (buf : Bytes) (pos mid : Nat) : Outcome ε Bytes :=
  if pos ≤ buf.length ∧ mid ≤ buf.length - pos then
    .ok (buf.take pos ++ (buf.drop pos).drop mid ++ (buf.drop pos).take mid)
  else .panic

/-- A copy behind the first bytes takes the place of as many. -/
theorem overwrite_append (a tail src : Bytes) :
    overwrite (a ++ tail) a.length src = a ++ src ++ tail.drop src.length := by
  rw [overwrite, List.take_left' rfl, List.drop_append, List.drop_of_length_le (by omega),
    List.nil_append, Nat.add_sub_cancel_left]

/-- The middle of three parts is what a range of its bounds reads. -/
theorem middle (a b c : Bytes) : ((a ++ b ++ c).drop a.length).take b.length = b := by
  rw [List.append_assoc, List.drop_left' rfl, List.take_left' rfl]

theorem copy_within_ok {dest : Nat} (h : dest + b.length ≤ (a ++ b ++ c).length) :
    (copy_within (a ++ b ++ c) a.length (a.length + b.length) dest : Outcome ε Bytes) =
      .ok (overwrite (a ++ b ++ c) dest b) := by
  have hlen : (a ++ b ++ c).length = a.length + b.length + c.length := by
    rw [List.length_append, List.length_append]
  rw [copy_within, if_pos (by omega), Nat.add_sub_cancel_left, middle]

theorem copy_within_length {buf buf' : Bytes} {lo hi dest : Nat}
    (h : (copy_within buf lo hi dest : Outcome ε Bytes) = .ok buf') :
    buf'.length = buf.length := by
  unfold copy_within at h
  split at h
  next hin =>
    cases h
    refine overwrite_length ?_
    rw [List.length_take, List.length_drop]
    omega
  · cases h

/-- The two parts behind the first change places. -/
theorem rotate_left_from_ok (a b c : Bytes) :
    (rotate_left_from (a ++ b ++ c) a.length b.length : Outcome ε Bytes) = .ok (a ++ c ++ b) := by
  have hlen : (a ++ b ++ c).length = a.length + b.length + c.length := by
    rw [List.length_append, List.length_append]
  rw [rotate_left_from, if_pos (by omega), List.append_assoc a b c, List.take_left' rfl,
    List.drop_left' rfl, List.drop_left' rfl, List.take_left' rfl]

/-- A last part moved up over the one before it, with what it leaves behind. -/
theorem move_up (keep gone last slack : Bytes) :
    ∃ rest, (if last.length > 0 then
          copy_within (keep ++ gone ++ last ++ slack) (keep ++ gone).length
            ((keep ++ gone).length + last.length) keep.length
        else .ok (keep ++ gone ++ last ++ slack) : Outcome ε Bytes) = .ok (keep ++ last ++ rest) ∧
      rest.length = gone.length + slack.length := by
  by_cases hlast : last.length > 0
  · refine ⟨(gone ++ last ++ slack).drop last.length, ?_, ?_⟩
    · have hroom : keep.length + last.length ≤ (keep ++ gone ++ last ++ slack).length := by
        simp only [List.length_append]
        omega
      rw [if_pos hlast, copy_within_ok hroom, List.append_assoc, List.append_assoc,
        overwrite_append, ← List.append_assoc]
    · simp only [List.length_drop, List.length_append]
      omega
  · obtain rfl : last = [] := List.eq_nil_of_length_eq_zero (by omega)
    refine ⟨gone ++ slack, ?_, List.length_append⟩
    rw [if_neg hlast, List.append_nil, List.append_nil, List.append_assoc]

/-- A last part moved down to make room for bytes in front of it, and those bytes put there. -/
theorem room_made (a last slack more : Bytes) (h : more.length ≤ slack.length) :
    ∃ moved, (if last.length > 0 ∧ more ≠ [] then
          copy_within (a ++ last ++ slack) a.length (a.length + last.length)
            (a.length + more.length)
        else .ok (a ++ last ++ slack) : Outcome ε Bytes) = .ok moved ∧
      moved.length = (a ++ last ++ slack).length ∧
      overwrite moved a.length more = a ++ more ++ last ++ slack.drop more.length := by
  have hlen : (a ++ last ++ slack).length = a.length + last.length + slack.length := by
    rw [List.length_append, List.length_append]
  by_cases hmoves : last.length > 0 ∧ more ≠ []
  · rw [if_pos hmoves, copy_within_ok (by omega)]
    refine ⟨_, rfl, overwrite_length (by omega), ?_⟩
    have hgap : ((last ++ slack).take more.length).length = more.length := by
      rw [List.length_take, List.length_append]
      omega
    have hdrop : ((last ++ slack).drop more.length).drop last.length = slack.drop more.length := by
      rw [List.drop_drop, Nat.add_comm, ← List.drop_drop, List.drop_left' rfl]
    have hmoved : overwrite (a ++ last ++ slack) (a.length + more.length) last =
        a ++ (last ++ slack).take more.length ++ last ++ slack.drop more.length := by
      have hat : a.length + more.length = (a ++ (last ++ slack).take more.length).length := by
        rw [List.length_append, hgap]
      have hsplit : a ++ last ++ slack =
          a ++ (last ++ slack).take more.length ++ (last ++ slack).drop more.length := by
        rw [List.append_assoc, List.append_assoc, List.take_append_drop]
      rw [hat]
      nth_rewrite 1 [hsplit]
      rw [overwrite_append, hdrop]
    rw [hmoved, List.append_assoc, List.append_assoc, overwrite_append, List.drop_left' hgap,
      ← List.append_assoc]
  · refine ⟨_, if_neg hmoves, rfl, ?_⟩
    rw [List.append_assoc, overwrite_append]
    rcases Nat.eq_zero_or_pos last.length with hlast | hlast
    · rw [List.eq_nil_of_length_eq_zero hlast, List.nil_append, List.append_nil]
    · have hmore : more = [] := by
        by_contra hne
        exact hmoves ⟨hlast, hne⟩
      rw [hmore, List.append_nil, List.length_nil, List.drop_zero, List.drop_zero,
        List.append_assoc]

end bytes
