-- The frame codec (frame/mod.rs): what `encode` writes, `decode` reads back, whatever comes
-- behind it, and what `decode` reads, it takes from the front of its input.
import MilliHttp.Lib.Codec
import MilliHttp.Connection.Dispatch

open bytes method codec

namespace milli_http.frame

open varint

/-! ## Fields -/

theorem round_varint (cap value : Nat) : RoundTrips (write_varint cap value) read_varint value := by
  intro out u out' h
  unfold write_varint encode_varint at h
  split at h
  · rename_i b hb
    cases h
    split at hb
    · cases hb
    · rename_i hmax
      split at hb
      · cases hb
      · cases hb
        refine ⟨_, rfl, fun rest => ?_⟩
        rw [read_varint, decode_varint_bytes (by omega)]
        simp
  · cases h

theorem round_bytes (cap : Nat) (data : Bytes) :
    RoundTrips (write_bytes cap data) (read_bytes data.length) data := by
  intro out u out' h
  unfold write_bytes at h
  split at h
  · cases h
  · cases h
    refine ⟨data, rfl, fun rest => ?_⟩
    simp [read_bytes]

/-! ## ACK ranges -/

theorem read_varint_eq_ok {buf rest : Bytes} {value : Nat} (h : read_varint buf = (.ok value, rest)) :
    ∃ n, decode_varint buf = .ok (value, n) ∧ rest = buf.drop n ∧ 0 < n ∧ n ≤ buf.length := by
  unfold read_varint at h
  split at h
  · rename_i v n hdecode
    cases h
    exact ⟨n, hdecode, rfl, decode_varint_consumed hdecode⟩
  · cases h

theorem read_varint_append {buf rest : Bytes} {value : Nat} (h : read_varint buf = (.ok value, rest))
    (more : Bytes) : read_varint (buf ++ more) = (.ok value, rest ++ more) := by
  obtain ⟨n, hdecode, rfl, -, hn⟩ := read_varint_eq_ok h
  rw [read_varint, decode_varint_append hdecode]
  dsimp only
  rw [List.drop_append_of_le_length hn]

theorem takes_varint : Takes 1 read_varint := by
  intro buf value rest h
  obtain ⟨n, -, rfl, hpos, hn⟩ := read_varint_eq_ok h
  exact ⟨buf.take n, (List.take_append_drop n buf).symm, by simp; omega⟩

theorem skip_counted {fuel : Nat} {raw : Bytes} {count : Nat} (hfuel : raw.length ≤ fuel)
    (h : count_pairs fuel raw = .ok count) (rest : Bytes) :
    skip_pairs count (raw ++ rest) = (.ok (), rest) := by
  induction fuel generalizing raw count with
  | zero =>
    cases h
    obtain rfl : raw = [] := List.length_eq_zero_iff.mp (by omega)
    rfl
  | succ fuel ih =>
    unfold count_pairs at h
    split at h
    · rename_i hempty
      cases h
      subst hempty
      rfl
    · split at h
      · rename_i u tail hpair
        obtain ⟨gap, mid, hgap, hrest⟩ := Method.bind_eq_ok hpair
        obtain ⟨len, tail', hlen, hend⟩ := Method.bind_eq_ok hrest
        cases hend
        obtain ⟨n, hn, hcount⟩ := except_bind_eq_ok h
        cases hcount
        obtain ⟨b, rfl, hb⟩ := takes_varint _ _ _ hgap
        obtain ⟨b', rfl, hb'⟩ := takes_varint _ _ _ hlen
        simp only [List.length_append] at hfuel
        rw [skip_pairs, Method.bind_run, read_varint_append hgap]
        dsimp only
        rw [Method.bind_run, read_varint_append hlen]
        exact ih (by omega) hn
      · cases h

theorem round_pairs (cap : Nat) {raw : Bytes} {count : Nat}
    (h : count_pairs raw.length raw = .ok count) :
    RoundTrips (write_bytes cap raw) (read_pairs count) raw := by
  intro out u out' hrun
  unfold write_bytes at hrun
  split at hrun
  · cases hrun
  · cases hrun
    refine ⟨raw, rfl, fun rest => ?_⟩
    simp [read_pairs, Method.bind_run, skip_counted (Nat.le_refl _) h]

/-! ## Frames -/

/-- What the types of the source promise of a frame: the arrays have their lengths, and a connection
id is at most 20 bytes. An application close has no frame type. -/
def WellFormed : Frame → Prop
  | .NewConnectionId f => f.connection_id.length ≤ 20 ∧ f.stateless_reset_token.length = 16
  | .PathChallenge data => data.length = 8
  | .PathResponse data => data.length = 8
  | .ConnectionClose f => f.is_application = true → f.frame_type = 0
  | _ => True

/-- The reader of one frame. -/
def read_one : Reader Frame := do
  let frame_type ← read_varint
  read_frame frame_type

theorem round_padding (cap : Nat) : RoundTrips (write_frame cap .Padding) read_one .Padding := by
  intro out u out' h
  change write_bytes cap [0x00] out = _ at h
  unfold write_bytes at h
  split at h
  · cases h
  · cases h
    exact ⟨[0x00], rfl, fun rest => rfl⟩

/-- A STREAM frame has its length, and its offset unless that is 0. -/
theorem round_stream (cap : Nat) (f : StreamFrame) :
    RoundTrips (write_frame cap (.Stream f)) read_one (.Stream f) := by
  obtain ⟨stream_id, offset, data, fin⟩ := f
  have hdata := (round_varint cap data.length).bind (round_bytes cap data)
  by_cases hoffset : offset > 0
  · cases fin with
    | true =>
      simp only [write_frame, if_pos hoffset]
      exact (round_varint cap 0x0f).bind ((round_varint cap stream_id).bind
        ((round_varint cap offset).bind (hdata.last rfl)))
    | false =>
      simp only [write_frame, if_pos hoffset]
      exact (round_varint cap 0x0e).bind ((round_varint cap stream_id).bind
        ((round_varint cap offset).bind (hdata.last rfl)))
  · obtain rfl : offset = 0 := by omega
    cases fin with
    | true =>
      exact (round_varint cap 0x0b).bind ((round_varint cap stream_id).bind (hdata.last rfl))
    | false =>
      exact (round_varint cap 0x0a).bind ((round_varint cap stream_id).bind (hdata.last rfl))

/-- An ACK frame has as many pairs as its raw ranges hold. -/
theorem round_ack (cap : Nat) (ack : AckFrame) :
    RoundTrips (write_frame cap (.Ack ack)) read_one (.Ack ack) := by
  obtain ⟨largest_ack, ack_delay, first_ack_range, ack_ranges, ecn⟩ := ack
  cases ecn with
  | none =>
    refine (round_varint cap 0x02).bind ((round_varint cap largest_ack).bind
      ((round_varint cap ack_delay).bind (.checked fun count hcount => ?_)))
    exact (round_varint cap count).bind ((round_varint cap first_ack_range).bind
      ((round_pairs cap hcount).bind ((RoundTrips.pure none).last rfl)))
  | some ecn =>
    obtain ⟨ect0, ect1, ecn_ce⟩ := ecn
    refine (round_varint cap 0x03).bind ((round_varint cap largest_ack).bind
      ((round_varint cap ack_delay).bind (.checked fun count hcount => ?_)))
    have hecn : RoundTrips (do write_varint cap ect0; write_varint cap ect1; write_varint cap ecn_ce)
        read_frame.read_ecn (some { ect0, ect1, ecn_ce }) :=
      (round_varint cap ect0).bind ((round_varint cap ect1).bind ((round_varint cap ecn_ce).last rfl))
    exact (round_varint cap count).bind ((round_varint cap first_ack_range).bind
      ((round_pairs cap hcount).bind (hecn.last rfl)))

theorem frames_round_trip (cap : Nat) {frame : Frame} (h : WellFormed frame) :
    RoundTrips (write_frame cap frame) read_one frame := by
  cases frame with
  | Padding => exact round_padding cap
  | Ping => exact (round_varint cap 0x01).last rfl
  | ResetStream f =>
    exact (round_varint cap 0x04).bind ((round_varint cap f.stream_id).bind
      ((round_varint cap f.error_code).bind ((round_varint cap f.final_size).last rfl)))
  | StopSending f =>
    exact (round_varint cap 0x05).bind ((round_varint cap f.stream_id).bind
      ((round_varint cap f.error_code).last rfl))
  | Crypto f =>
    exact (round_varint cap 0x06).bind ((round_varint cap f.offset).bind
      ((round_varint cap f.data.length).bind ((round_bytes cap f.data).last rfl)))
  | NewToken token =>
    exact (round_varint cap 0x07).bind ((round_varint cap token.length).bind
      ((round_bytes cap token).last rfl))
  | MaxData v => exact (round_varint cap 0x10).bind ((round_varint cap v).last rfl)
  | MaxStreamData f =>
    exact (round_varint cap 0x11).bind ((round_varint cap f.stream_id).bind
      ((round_varint cap f.max_data).last rfl))
  | MaxStreams f =>
    obtain ⟨bidirectional, max_streams⟩ := f
    cases bidirectional with
    | true => exact (round_varint cap 0x12).bind ((round_varint cap max_streams).last rfl)
    | false => exact (round_varint cap 0x13).bind ((round_varint cap max_streams).last rfl)
  | DataBlocked v => exact (round_varint cap 0x14).bind ((round_varint cap v).last rfl)
  | StreamDataBlocked f =>
    exact (round_varint cap 0x15).bind ((round_varint cap f.stream_id).bind
      ((round_varint cap f.data_limit).last rfl))
  | StreamsBlocked f =>
    obtain ⟨bidirectional, max_streams⟩ := f
    cases bidirectional with
    | true => exact (round_varint cap 0x16).bind ((round_varint cap max_streams).last rfl)
    | false => exact (round_varint cap 0x17).bind ((round_varint cap max_streams).last rfl)
  | RetireConnectionId seq => exact (round_varint cap 0x19).bind ((round_varint cap seq).last rfl)
  | PathChallenge data =>
    refine (round_varint cap 0x1a).bind ?_
    have hlen : data.length = 8 := h
    exact (hlen ▸ round_bytes cap data).last rfl
  | PathResponse data =>
    refine (round_varint cap 0x1b).bind ?_
    have hlen : data.length = 8 := h
    exact (hlen ▸ round_bytes cap data).last rfl
  | HandshakeDone => exact (round_varint cap 0x1e).last rfl
  | ConnectionClose f =>
    obtain ⟨is_application, error_code, frame_type, reason⟩ := f
    cases is_application with
    | true =>
      have hzero : frame_type = 0 := h rfl
      subst hzero
      exact (round_varint cap 0x1d).bind ((round_varint cap error_code).bind
        ((round_varint cap reason.length).bind ((round_bytes cap reason).last rfl)))
    | false =>
      exact (round_varint cap 0x1c).bind ((round_varint cap error_code).bind
        ((round_varint cap frame_type).bind ((round_varint cap reason.length).bind
          ((round_bytes cap reason).last rfl))))
  | NewConnectionId f =>
    obtain ⟨sequence_number, retire_prior_to, connection_id, token⟩ := f
    obtain ⟨hcid, htoken⟩ := h
    refine (round_varint cap 0x18).bind ((round_varint cap sequence_number).bind
      ((round_varint cap retire_prior_to).bind ((round_varint cap connection_id.length).bind ?_)))
    rw [if_neg (Nat.not_lt.mpr hcid)]
    refine (round_bytes cap connection_id).bind ?_
    have hlen : token.length = 16 := htoken
    exact (hlen ▸ round_bytes cap token).last rfl
  | Stream f => exact round_stream cap f
  | Ack ack => exact round_ack cap ack

/-! ## What is taken -/

theorem takes_bytes (len : Nat) : Takes 0 (read_bytes len) := by
  intro buf data rest h
  unfold read_bytes at h
  split at h
  · cases h
  · cases h
    exact ⟨buf.take len, (List.take_append_drop len buf).symm, Nat.zero_le _⟩

theorem takes_rest : Takes 0 read_rest := by
  intro buf data rest h
  cases h
  exact ⟨buf, (List.append_nil buf).symm, Nat.zero_le _⟩

theorem takes_skip_pairs (count : Nat) : Takes 0 (skip_pairs count) := by
  induction count with
  | zero => exact takes_pure ()
  | succ count ih =>
    exact (takes_varint.mono (Nat.zero_le 1)).bind fun _ =>
      (takes_varint.mono (Nat.zero_le 1)).bind fun _ => ih

theorem takes_pairs (count : Nat) : Takes 0 (read_pairs count) := by
  intro buf raw rest h
  obtain ⟨start, mid, hget, hskip⟩ := Method.bind_eq_ok h
  cases hget
  obtain ⟨u, mid, hskip', hend⟩ := Method.bind_eq_ok hskip
  obtain ⟨tail, mid, hget, hpure⟩ := Method.bind_eq_ok hend
  cases hget
  cases hpure
  exact takes_skip_pairs count _ _ _ hskip'

theorem takes_field : Takes 0 read_varint := takes_varint.mono (Nat.zero_le 1)

theorem takes_ack (has_ecn : Bool) : Takes 0 (read_frame.read_ack has_ecn) := by
  have hecn : Takes 0 read_frame.read_ecn :=
    takes_field.bind fun _ => takes_field.bind fun _ => takes_field.bind fun _ => takes_pure _
  refine takes_field.bind fun _ => takes_field.bind fun _ => takes_field.bind fun count => ?_
  refine takes_field.bind fun _ => (takes_pairs count).bind fun _ => ?_
  exact takes_ite (hecn.bind fun _ => takes_pure _) ((takes_pure none).bind fun _ => takes_pure _)

theorem takes_stream (has_offset has_length fin : Bool) :
    Takes 0 (read_frame.read_stream has_offset has_length fin) := by
  have hdata : ∀ f : Bytes → Frame, Takes 0 (if has_length then do
      let data ← read_varint >>= read_bytes
      pure (f data) else do
      let data ← read_rest
      pure (f data)) := fun f =>
    takes_ite ((takes_field.bind takes_bytes).bind fun _ => takes_pure _)
      (takes_rest.bind fun _ => takes_pure _)
  refine takes_field.bind fun _ => ?_
  exact takes_ite (takes_field.bind fun _ => hdata _) ((takes_pure 0).bind fun _ => hdata _)

theorem takes_frame (frame_type : Nat) : Takes 0 (read_frame frame_type) := by
  unfold read_frame
  split
  case h_3 | h_4 => exact takes_ack _
  case h_9 | h_10 | h_11 | h_12 | h_13 | h_14 | h_15 | h_16 => exact takes_stream _ _ _
  -- What is left is made of varints and bytes.
  all_goals
    repeat' first
      | exact takes_pure _
      | exact takes_fail _ _
      | refine takes_ite ?_ ?_
      | refine takes_field.bind fun _ => ?_
      | refine (takes_bytes _).bind fun _ => ?_

theorem decode_eq (buf : Bytes) : decode buf = match read_one buf with
    | (.ok frame, rest) => (.ok (frame, buf.length - rest.length) : Except Error (Frame × Nat))
    | (.error e, _) => .error e := rfl

/-- A frame takes at least its type, and no more than there is. -/
theorem decode_consumed {buf : Bytes} {frame : Frame} {consumed : Nat}
    (h : decode buf = .ok (frame, consumed)) : 1 ≤ consumed ∧ consumed ≤ buf.length := by
  have htakes : Takes 1 read_one := takes_varint.bind takes_frame
  rw [decode_eq] at h
  split at h
  · rename_i frame rest hrun
    cases h
    obtain ⟨taken, rfl, hlen⟩ := htakes _ _ _ hrun
    simp only [List.length_append]
    omega
  · cases h

/-- What was encoded decodes, whatever comes behind it. -/
theorem decode_encoded {frame : Frame} {cap : Nat} {out : Bytes} (h : WellFormed frame)
    (hout : encode frame cap = .ok out) (rest : Bytes) :
    decode (out ++ rest) = .ok (frame, out.length) := by
  unfold encode at hout
  split at hout
  · rename_i u out' hrun
    cases hout
    obtain ⟨b, hb, hread⟩ := frames_round_trip cap h _ _ _ hrun
    rw [List.nil_append] at hb
    rw [decode_eq, hb, hread]
    simp
  · cases hout

/-! ## The ranges of an ACK -/

/-- The raw ranges are whole pairs. -/
def Paired (raw : Bytes) : Prop := ∃ pairs, ack_range_pairs raw.length raw = .ok pairs

theorem decode_varint_take {buf : Bytes} {value n m : Nat} (h : decode_varint buf = .ok (value, n))
    (hm : n ≤ m) : decode_varint (buf.take m) = .ok (value, n) := by
  cases buf with
  | nil => cases h
  | cons first rest =>
    unfold decode_varint at h
    dsimp only at h
    split at h
    · cases h
    · rename_i hlen
      cases h
      have hpos := Nat.two_pow_pos (first >>> 6).toNat
      obtain ⟨m, rfl⟩ : ∃ k, m = k + 1 := ⟨m - 1, by omega⟩
      rw [List.take_succ_cons, decode_varint, List.take_take, Nat.min_eq_left (by omega), if_neg]
      simp only [List.length_cons, List.length_take] at hlen ⊢
      omega

/-- Pairs that were skipped can be read from the bytes they took. -/
theorem pairs_skipped {count : Nat} {buf rest : Bytes} (h : skip_pairs count buf = (.ok (), rest))
    {fuel : Nat} (hfuel : buf.length - rest.length ≤ fuel) :
    ∃ pairs, ack_range_pairs fuel (buf.take (buf.length - rest.length)) = .ok pairs := by
  induction count generalizing buf fuel with
  | zero =>
    cases h
    refine ⟨[], ?_⟩
    rw [Nat.sub_self, List.take_zero]
    cases fuel <;> rfl
  | succ count ih =>
    obtain ⟨gap, mid, hgap, hskip⟩ := Method.bind_eq_ok h
    obtain ⟨len, tail, hlen, hrest⟩ := Method.bind_eq_ok hskip
    obtain ⟨n₁, hdecode₁, rfl, hpos, hn₁⟩ := read_varint_eq_ok hgap
    obtain ⟨n₂, hdecode₂, rfl, -, hn₂⟩ := read_varint_eq_ok hlen
    have hle : rest.length ≤ ((buf.drop n₁).drop n₂).length := by
      obtain ⟨taken, heq, -⟩ := takes_skip_pairs count _ _ _ hrest
      rw [heq, List.length_append]
      exact Nat.le_add_left _ _
    rw [List.length_drop] at hn₂
    rw [List.length_drop, List.length_drop] at hle
    obtain ⟨fuel, rfl⟩ : ∃ k, fuel = k + 1 := ⟨fuel - 1, by omega⟩
    obtain ⟨pairs, hpairs⟩ := @ih _ hrest fuel (by simp only [List.length_drop]; omega)
    have hlast : (buf.take (buf.length - rest.length)).drop (n₁ + n₂) =
        ((buf.drop n₁).drop n₂).take (((buf.drop n₁).drop n₂).length - rest.length) := by
      rw [List.drop_drop, List.drop_take, List.length_drop]
      congr 1
      omega
    have hsecond : decode_varint ((buf.take (buf.length - rest.length)).drop n₁) = .ok (len, n₂) := by
      rw [List.drop_take]
      exact decode_varint_take hdecode₂ (by omega)
    have hfull : buf.take (buf.length - rest.length) ≠ [] := by
      intro hempty
      have := congrArg List.length hempty
      simp only [List.length_take, List.length_nil] at this
      omega
    refine ⟨(gap, len) :: pairs, ?_⟩
    rw [ack_range_pairs, if_neg hfull, decode_varint_take hdecode₁ (by omega), except_ok_bind]
    dsimp only
    rw [hsecond, except_ok_bind]
    dsimp only
    rw [hlast, hpairs]
    rfl

theorem yields_pairs (count : Nat) : Yields Paired (read_pairs count) := by
  intro buf raw rest h
  obtain ⟨start, mid, hget, hskip⟩ := Method.bind_eq_ok h
  cases hget
  obtain ⟨u, mid, hskip', hend⟩ := Method.bind_eq_ok hskip
  obtain ⟨tail, mid, hget, hpure⟩ := Method.bind_eq_ok hend
  cases hget
  cases hpure
  exact pairs_skipped hskip' (by simp)

/-- The ranges of an ACK are whole pairs; other frames have none. -/
def PairedAck : Frame → Prop
  | .Ack ack => Paired ack.ack_ranges
  | _ => True

theorem yields_ack (has_ecn : Bool) : Yields PairedAck (read_frame.read_ack has_ecn) := by
  refine yields_bind fun _ => yields_bind fun _ => yields_bind fun count => yields_bind fun _ => ?_
  refine (yields_pairs count).bind fun raw hraw => ?_
  exact yields_ite (yields_bind fun _ => yields_pure hraw) (yields_bind fun _ => yields_pure hraw)

theorem yields_stream {Q : Frame → Prop} (h : ∀ stream, Q (.Stream stream))
    (has_offset has_length fin : Bool) : Yields Q (read_frame.read_stream has_offset has_length fin) := by
  have hdata : ∀ f : Bytes → StreamFrame, Yields Q (if has_length then do
      let data ← read_varint >>= read_bytes
      pure (.Stream (f data)) else do
      let data ← read_rest
      pure (.Stream (f data))) := fun f =>
    yields_ite (yields_bind fun _ => yields_pure (h _)) (yields_bind fun _ => yields_pure (h _))
  refine yields_bind fun _ => ?_
  exact yields_ite (yields_bind fun _ => hdata _) (yields_bind fun _ => hdata _)

theorem yields_frame {Q : Frame → Prop} (hack : ∀ has_ecn, Yields Q (read_frame.read_ack has_ecn))
    (hother : ∀ frame, (∀ ack, frame ≠ .Ack ack) → Q frame) (frame_type : Nat) :
    Yields Q (read_frame frame_type) := by
  unfold read_frame
  split
  case h_3 | h_4 => exact hack _
  case h_9 | h_10 | h_11 | h_12 | h_13 | h_14 | h_15 | h_16 =>
    exact yields_stream (fun _ => hother _ nofun) _ _ _
  all_goals
    repeat' first
      | exact yields_pure (hother _ nofun)
      | exact yields_fail _ _
      | refine yields_ite ?_ ?_
      | refine yields_bind fun _ => ?_

theorem decode_yields {Q : Frame → Prop} (h : ∀ frame_type, Yields Q (read_frame frame_type))
    {buf : Bytes} {frame : Frame} {consumed : Nat} (hdecode : decode buf = .ok (frame, consumed)) :
    Q frame := by
  have hyields : Yields Q read_one := yields_bind h
  rw [decode_eq] at hdecode
  split at hdecode
  · rename_i rest hrun
    cases hdecode
    exact hyields _ _ _ hrun
  · cases hdecode

theorem decode_ack_paired {buf : Bytes} {ack : AckFrame} {consumed : Nat}
    (h : decode buf = .ok (.Ack ack, consumed)) : Paired ack.ack_ranges := by
  refine decode_yields (Q := PairedAck) (yields_frame yields_ack fun frame hother => ?_) h
  cases frame with
  | Ack ack => exact absurd rfl (hother ack)
  | _ => trivial

/-- The largest acknowledged number of an ACK has 62 bits; other frames have none. -/
def BoundedAck : Frame → Prop
  | .Ack ack => ack.largest_ack ≤ MAX_VARINT
  | _ => True

theorem yields_varint : Yields (· ≤ MAX_VARINT) read_varint := by
  intro buf value rest h
  obtain ⟨n, hdecode, -, -, -⟩ := read_varint_eq_ok h
  exact decode_varint_le hdecode

/-- An ACK that decodes acknowledges a number of 62 bits. -/
theorem decode_ack_bounded {buf : Bytes} {ack : AckFrame} {consumed : Nat}
    (h : decode buf = .ok (.Ack ack, consumed)) : ack.largest_ack ≤ MAX_VARINT := by
  refine decode_yields (Q := BoundedAck) (yields_frame (fun has_ecn => ?_) fun frame hother => ?_) h
  · refine yields_varint.bind fun largest_ack hlargest => ?_
    refine yields_bind fun _ => yields_bind fun _ => yields_bind fun _ => yields_bind fun _ => ?_
    exact yields_ite (yields_bind fun _ => yields_pure hlargest)
      (yields_bind fun _ => yields_pure hlargest)
  · cases frame with
    | Ack ack => exact absurd rfl (hother ack)
    | _ => trivial

/-! ## The frames of a payload -/

open connection Connection transport crypto

/-- Fuel for every byte of a payload is as good as any more. -/
theorem dispatch_frames_fuel {B : Build} (level : Level) (now : Instant) {fuel fuel' : Nat}
    {payload : Bytes} (ack_eliciting : Bool) (h : payload.length ≤ fuel) (h' : payload.length ≤ fuel') :
    (dispatch_frames level now fuel payload ack_eliciting : Method (Connection B) Error Bool) =
      dispatch_frames level now fuel' payload ack_eliciting := by
  induction fuel generalizing fuel' payload ack_eliciting with
  | zero =>
    obtain rfl : payload = [] := List.length_eq_zero_iff.mp (by omega)
    cases fuel' <;> rfl
  | succ fuel ih =>
    by_cases hempty : payload = []
    · subst hempty
      cases fuel' <;> rfl
    · have hlen : 0 < payload.length := List.length_pos_iff.mpr hempty
      obtain ⟨fuel', rfl⟩ : ∃ n, fuel' = n + 1 := ⟨fuel' - 1, by omega⟩
      unfold dispatch_frames
      rw [if_neg hempty, if_neg hempty]
      cases hdecode : decode payload with
      | error e => rfl
      | ok r =>
        obtain ⟨frame, consumed⟩ := r
        have hconsumed := decode_consumed hdecode
        have hrest : (payload.drop consumed).length = payload.length - consumed := List.length_drop
        have hnext := @ih fuel' (payload.drop consumed) (ack_eliciting || is_ack_eliciting frame)
          (by omega) (by omega)
        exact congrArg (fun more => dispatch_frame level now frame >>= fun _ => more) hnext

/-- Every well-formed frame that is encoded decodes to itself, from its own bytes and before any
others; what decodes takes a byte at least and no more than there are; and the frames of a payload
are dispatched to its end or to an error, with no more steps than it has bytes. -/
theorem frames_decode_as_encoded :
    (∀ (frame : Frame) (cap : Nat) (out : Bytes), WellFormed frame → encode frame cap = .ok out →
      ∀ rest, decode (out ++ rest) = .ok (frame, out.length)) ∧
    (∀ (buf : Bytes) (frame : Frame) (consumed : Nat), decode buf = .ok (frame, consumed) →
      1 ≤ consumed ∧ consumed ≤ buf.length) ∧
    ∀ (B : Build) (level : Level) (now : Instant) (fuel : Nat) (payload : Bytes)
      (ack_eliciting : Bool), payload.length ≤ fuel →
      (dispatch_frames level now fuel payload ack_eliciting : Method (Connection B) Error Bool) =
        dispatch_frames level now payload.length payload ack_eliciting :=
  ⟨fun _ _ _ h hout => decode_encoded h hout, fun _ _ _ h => decode_consumed h,
    fun _ level now _ _ ack_eliciting h => dispatch_frames_fuel level now ack_eliciting h (Nat.le_refl _)⟩

/-- An ACK with a range and ECN counts, before a PING. -/
theorem an_ack_decodes_before_a_ping :
    decode ([0x03, 0x09, 0x00, 0x01, 0x02, 0x01, 0x00, 0x01, 0x02, 0x40, 0x80] ++ [0x01]) =
      .ok (.Ack ⟨9, 0, 2, [0x01, 0x00], some ⟨1, 2, 128⟩⟩, 11) :=
  frames_decode_as_encoded.1 (.Ack ⟨9, 0, 2, [0x01, 0x00], some ⟨1, 2, 128⟩⟩) 64 _ trivial rfl [0x01]

end milli_http.frame
